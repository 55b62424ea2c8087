import MtProxy.MiddleProxy.Wire
import Mathlib.Data.Finmap
import Mathlib.Data.Finset.Sort

/-! `update_proxy_maps`: a snapshot of the endpoints of the data centres replaces the maps of the pool.
    Only then the maps are completed: a DC without an entry for its negation gets one.

        guard ≠ snapshot?  ──yes──▶  guard := snapshot, changed
              │ no                           │
              └──────────────▶ complete ◀────┘

    The comparison is made with the snapshot as it came, so a snapshot that is not complete never
    equals the map that was made of it, and a map that only has to be completed counts as unchanged. -/

namespace MtProxy.MiddleProxy

/-- The endpoints of each DC. -/
abbrev EndpointMap := Finmap fun _ : ℤ => List SocketAddr

/-- The order in which the keys of a hash map are visited. -/
structure KeyOrder where
  keys : EndpointMap → List ℤ
  mem_keys : ∀ map k, k ∈ keys map ↔ k ∈ map

inductive SnapshotApplyOutcome where
  | appliedChanged | appliedNoDelta | rejectedEmpty
  deriving DecidableEq

def SnapshotApplyOutcome.changed (outcome : SnapshotApplyOutcome) : Bool :=
  outcome == .appliedChanged

@[ext] structure ProxyMaps where
  proxyMapV4 : EndpointMap
  proxyMapV6 : EndpointMap
  deriving DecidableEq

/-- The block of one family that replaces the map, and whether it did. -/
def replaceMap (guard new : EndpointMap) : EndpointMap × Bool :=
  if new ≠ ∅ ∧ guard ≠ new then (new, true) else (guard, false)

/-- One key of the block that completes the map. -/
def mirrorKey (guard : EndpointMap) (k : ℤ) : EndpointMap :=
  if 0 < k ∧ -k ∉ guard then
    match guard.lookup k with
    | some addrs => guard.insert (-k) addrs
    | none => guard
  else guard

section
variable (order : KeyOrder)

/-- The block of one family that completes the map. -/
def mirrorMap (guard : EndpointMap) : EndpointMap := (order.keys guard).foldl mirrorKey guard

def updateProxyMaps (pool : ProxyMaps) (newV4 : EndpointMap) (newV6 : Option EndpointMap) :
    ProxyMaps × SnapshotApplyOutcome :=
  if newV4 = ∅ ∧ newV6.getD ∅ = ∅ then (pool, .rejectedEmpty)
  else
    let (guardV4, changedV4) := replaceMap pool.proxyMapV4 newV4
    let (guardV6, changedV6) := match newV6 with
      | some v6 => replaceMap pool.proxyMapV6 v6
      | none => (pool.proxyMapV6, false)
    (⟨mirrorMap order guardV4, mirrorMap order guardV6⟩,
      if changedV4 || changedV6 then .appliedChanged else .appliedNoDelta)

end

/-! ### Completing a map -/

/-- Every positive DC has an entry for its negation. -/
def Mirrored (map : EndpointMap) : Prop := ∀ k ∈ map, 0 < k → -k ∈ map

theorem mirrored_empty : Mirrored ∅ := fun _ hk => absurd hk Finmap.notMem_empty

/-- A key gives its endpoints to its negation and changes no other entry. -/
theorem lookup_mirrorKey (guard : EndpointMap) (k j : ℤ) : (mirrorKey guard k).lookup j =
    (guard.lookup j).or (if 0 < k ∧ j = -k then guard.lookup k else none) := by
  unfold mirrorKey
  by_cases hk : 0 < k ∧ -k ∉ guard
  · rw [if_pos hk]
    cases haddrs : guard.lookup k with
    | none => simp
    | some addrs =>
      by_cases hj : j = -k
      · subst hj
        have hnone : guard.lookup (-k) = none := Finmap.lookup_eq_none.mpr hk.2
        simp [Finmap.lookup_insert, hnone, hk.1]
      · simp [Finmap.lookup_insert_of_ne _ hj, hj]
  · rw [if_neg hk]
    by_cases hj : 0 < k ∧ j = -k
    · obtain ⟨hpos, rfl⟩ := hj
      have hmem : -k ∈ guard := by
        by_contra habsent
        exact hk ⟨hpos, habsent⟩
      obtain ⟨addrs, haddrs⟩ := Finmap.mem_iff.mp hmem
      simp [haddrs]
    · simp [hj]

/-- The entries of positive keys stay. -/
theorem lookup_mirrorKey_of_pos (guard : EndpointMap) (k : ℤ) {j : ℤ} (hj : 0 < j) :
    (mirrorKey guard k).lookup j = guard.lookup j := by
  rw [lookup_mirrorKey, if_neg (by omega), Option.or_none]

theorem lookup_foldl_mirrorKey (keys : List ℤ) (guard : EndpointMap) (j : ℤ) :
    (keys.foldl mirrorKey guard).lookup j =
      (guard.lookup j).or (if 0 < -j ∧ -j ∈ keys then guard.lookup (-j) else none) := by
  induction keys generalizing guard with
  | nil => simp
  | cons k keys ih =>
    rw [List.foldl_cons, ih, lookup_mirrorKey, Option.or_assoc]
    congr 1
    by_cases hpos : 0 < -j
    · rw [lookup_mirrorKey_of_pos guard k hpos]
      by_cases hk : k = -j
      · subst hk
        simp only [hpos, neg_neg, true_and, if_true, List.mem_cons_self]
        split_ifs
        · exact Option.or_self
        · exact Option.or_none
      · have hj : ¬ (0 < k ∧ j = -k) := by omega
        have hmem : -j ∈ k :: keys ↔ -j ∈ keys := by
          rw [List.mem_cons, or_iff_right (Ne.symm hk)]
        simp only [hj, hmem, if_false, Option.none_or]
    · have hj : ¬ (0 < k ∧ j = -k) := by omega
      simp only [hj, hpos, false_and, if_false, Option.none_or]

section
variable (order : KeyOrder) (map : EndpointMap)

/-- The order of the keys does not show in the result. -/
theorem lookup_mirrorMap (j : ℤ) : (mirrorMap order map).lookup j =
    (map.lookup j).or (if j < 0 then map.lookup (-j) else none) := by
  rw [mirrorMap, lookup_foldl_mirrorKey]
  simp only [order.mem_keys, neg_pos]
  by_cases hmem : -j ∈ map
  · simp only [hmem, and_true]
  · simp only [hmem, and_false, Finmap.lookup_eq_none.mpr hmem, ite_self]

theorem mirrored_mirrorMap : Mirrored (mirrorMap order map) := by
  intro k hk hpos
  obtain ⟨addrs, haddrs⟩ := Finmap.mem_iff.mp hk
  have hold : map.lookup k = some addrs := by
    rwa [lookup_mirrorMap, if_neg (by omega), Option.or_none] at haddrs
  refine Finmap.mem_iff.mpr ?_
  rw [lookup_mirrorMap, if_pos (by omega), neg_neg, hold]
  cases map.lookup (-k) with
  | none => exact ⟨addrs, rfl⟩
  | some own => exact ⟨own, rfl⟩

/-- A map is completed by nothing if and only if it is complete. -/
theorem mirrorMap_eq_self_iff : mirrorMap order map = map ↔ Mirrored map := by
  refine ⟨fun h => h ▸ mirrored_mirrorMap order map, fun h => Finmap.ext_lookup fun j => ?_⟩
  rw [lookup_mirrorMap]
  cases hj : map.lookup j with
  | some addrs => rfl
  | none =>
    rw [Option.none_or]
    split_ifs with hneg
    · by_contra hne
      obtain ⟨addrs, haddrs⟩ := Option.ne_none_iff_exists'.mp hne
      have hmem := h (-j) (Finmap.mem_iff.mpr ⟨addrs, haddrs⟩) (by omega)
      rw [neg_neg] at hmem
      exact Finmap.lookup_eq_none.mp hj hmem
    · rfl

theorem mirrorMap_mirrorMap (order' : KeyOrder) :
    mirrorMap order' (mirrorMap order map) = mirrorMap order map :=
  (mirrorMap_eq_self_iff order' _).mpr (mirrored_mirrorMap order map)

theorem mirrorMap_order (order' : KeyOrder) : mirrorMap order' map = mirrorMap order map :=
  Finmap.ext_lookup fun j => by rw [lookup_mirrorMap, lookup_mirrorMap]

end

/-! ### One family -/

/-- A snapshot of one family counts as a change. -/
def Differs (guard new : EndpointMap) : Prop := new ≠ ∅ ∧ guard ≠ new

/-- What one family holds after a snapshot. -/
def afterSnapshot (order : KeyOrder) (guard new : EndpointMap) : EndpointMap :=
  mirrorMap order (replaceMap guard new).1

section
variable (order : KeyOrder) {guard new : EndpointMap}

theorem replaceMap_snd_iff : (replaceMap guard new).2 = true ↔ Differs guard new := by
  unfold replaceMap Differs
  split_ifs with h
  · exact iff_of_true rfl h
  · exact iff_of_false (by decide) h

/-- Without endpoints in the snapshot the map stays, else it is the one of the snapshot. -/
theorem replaceMap_fst : (replaceMap guard new).1 = if new = ∅ then guard else new := by
  unfold replaceMap
  by_cases hempty : new = ∅
  · simp [hempty]
  · by_cases heq : guard = new
    · simp [heq]
    · simp [hempty, heq]

/-- The second time the same snapshot changes nothing. -/
theorem afterSnapshot_again (order' : KeyOrder) :
    afterSnapshot order' (afterSnapshot order guard new) new = afterSnapshot order guard new := by
  unfold afterSnapshot
  rw [replaceMap_fst, replaceMap_fst]
  split_ifs with hempty
  · exact mirrorMap_mirrorMap order guard order'
  · exact mirrorMap_order order new order'

/-- The second time the same snapshot counts as a change if and only if it is not complete. -/
theorem differs_afterSnapshot_iff : Differs (afterSnapshot order guard new) new ↔ ¬ Mirrored new := by
  unfold Differs afterSnapshot
  rw [replaceMap_fst]
  by_cases hempty : new = ∅
  · subst hempty
    exact iff_of_false (fun h => h.1 rfl) (fun h => h mirrored_empty)
  · rw [if_neg hempty, ne_eq, ne_eq, mirrorMap_eq_self_iff]
    exact and_iff_right hempty

/-- With a complete snapshot the map changes when this is counted, or when it had to be
    completed. -/
theorem afterSnapshot_ne_iff (hnew : Mirrored new) : afterSnapshot order guard new ≠ guard ↔
    Differs guard new ∨ (new = ∅ ∧ ¬ Mirrored guard) := by
  unfold afterSnapshot Differs
  rw [replaceMap_fst]
  by_cases hempty : new = ∅
  · rw [if_pos hempty, ne_eq, mirrorMap_eq_self_iff]
    simp [hempty]
  · rw [if_neg hempty, (mirrorMap_eq_self_iff order new).mpr hnew]
    simp [hempty, eq_comm]

end

/-! ### Both families -/

section
variable (order order' : KeyOrder) (pool : ProxyMaps) {newV4 : EndpointMap}
  {newV6 : Option EndpointMap}

theorem replaceMap_none (guard : EndpointMap) : replaceMap guard ∅ = (guard, false) :=
  if_neg fun h => h.1 rfl

/-- What a call does, family by family. -/
theorem updateProxyMaps_eq (hne : newV4 ≠ ∅ ∨ newV6.getD ∅ ≠ ∅) :
    updateProxyMaps order pool newV4 newV6 =
      (⟨afterSnapshot order pool.proxyMapV4 newV4,
        afterSnapshot order pool.proxyMapV6 (newV6.getD ∅)⟩,
       if (replaceMap pool.proxyMapV4 newV4).2 || (replaceMap pool.proxyMapV6 (newV6.getD ∅)).2
       then .appliedChanged else .appliedNoDelta) := by
  unfold updateProxyMaps
  rw [if_neg (by tauto)]
  cases newV6 with
  | none =>
    rw [Option.getD_none]
    simp only [afterSnapshot, replaceMap_none]
  | some v6 => rfl

/-- The report of a call. -/
theorem updateProxyMaps_changed_iff (hne : newV4 ≠ ∅ ∨ newV6.getD ∅ ≠ ∅) :
    (updateProxyMaps order pool newV4 newV6).2 = .appliedChanged ↔
      Differs pool.proxyMapV4 newV4 ∨ Differs pool.proxyMapV6 (newV6.getD ∅) := by
  rw [updateProxyMaps_eq order pool hne, ← replaceMap_snd_iff, ← replaceMap_snd_iff, ← Bool.or_eq_true]
  simp only
  split_ifs with h
  · exact iff_of_true rfl h
  · exact iff_of_false (by decide) h

/-- The maps are complete afterwards, the same snapshot again is without effect and reported so, and
    the report tells whether a map has changed. -/
structure AppliesTruthfully (pool : ProxyMaps) (newV4 : EndpointMap)
    (newV6 : Option EndpointMap) : Prop where
  mirroredV4 : Mirrored (updateProxyMaps order pool newV4 newV6).1.proxyMapV4
  mirroredV6 : Mirrored (updateProxyMaps order pool newV4 newV6).1.proxyMapV6
  again : updateProxyMaps order' (updateProxyMaps order pool newV4 newV6).1 newV4 newV6 =
    ((updateProxyMaps order pool newV4 newV6).1, .appliedNoDelta)
  truthful : (updateProxyMaps order pool newV4 newV6).2 = .appliedChanged ↔
    (updateProxyMaps order pool newV4 newV6).1 ≠ pool

/-- The snapshot is complete, and so are the maps it leaves alone unless it changes the other one. -/
def CompleteSnapshot (pool : ProxyMaps) (newV4 : EndpointMap) (newV6 : Option EndpointMap) : Prop :=
  (Mirrored newV4 ∧ Mirrored (newV6.getD ∅)) ∧
    ((newV4 = ∅ → Mirrored pool.proxyMapV4) ∧ (newV6.getD ∅ = ∅ → Mirrored pool.proxyMapV6) ∨
      Differs pool.proxyMapV4 newV4 ∨ Differs pool.proxyMapV6 (newV6.getD ∅))

theorem updateProxyMaps_mirrored (hne : newV4 ≠ ∅ ∨ newV6.getD ∅ ≠ ∅) :
    Mirrored (updateProxyMaps order pool newV4 newV6).1.proxyMapV4 ∧
      Mirrored (updateProxyMaps order pool newV4 newV6).1.proxyMapV6 := by
  rw [updateProxyMaps_eq order pool hne]
  exact ⟨mirrored_mirrorMap order _, mirrored_mirrorMap order _⟩

/-- Applied again, a snapshot leaves the maps as they are. -/
theorem updateProxyMaps_again_fst (hne : newV4 ≠ ∅ ∨ newV6.getD ∅ ≠ ∅) :
    (updateProxyMaps order' (updateProxyMaps order pool newV4 newV6).1 newV4 newV6).1 =
      (updateProxyMaps order pool newV4 newV6).1 := by
  rw [updateProxyMaps_eq order pool hne, updateProxyMaps_eq order' _ hne]
  exact ProxyMaps.ext (afterSnapshot_again order order') (afterSnapshot_again order order')

/-- It is reported as a change again if and only if it is not complete. -/
theorem updateProxyMaps_again_changed_iff (hne : newV4 ≠ ∅ ∨ newV6.getD ∅ ≠ ∅) :
    (updateProxyMaps order' (updateProxyMaps order pool newV4 newV6).1 newV4 newV6).2 =
        .appliedChanged ↔ ¬ (Mirrored newV4 ∧ Mirrored (newV6.getD ∅)) := by
  rw [updateProxyMaps_changed_iff order' _ hne, updateProxyMaps_eq order pool hne, not_and_or,
    differs_afterSnapshot_iff, differs_afterSnapshot_iff]

/-- Without endpoints nothing is applied, otherwise the outcome is a change or none. -/
theorem updateProxyMaps_noDelta_iff (hne : newV4 ≠ ∅ ∨ newV6.getD ∅ ≠ ∅) :
    (updateProxyMaps order pool newV4 newV6).2 = .appliedNoDelta ↔
      (updateProxyMaps order pool newV4 newV6).2 ≠ .appliedChanged := by
  rw [updateProxyMaps_eq order pool hne]
  simp only
  split_ifs <;> decide

/-- When a complete snapshot leaves maps that differ from those before. -/
theorem updateProxyMaps_ne_iff (hne : newV4 ≠ ∅ ∨ newV6.getD ∅ ≠ ∅)
    (hnew : Mirrored newV4 ∧ Mirrored (newV6.getD ∅)) :
    (updateProxyMaps order pool newV4 newV6).1 ≠ pool ↔
      (Differs pool.proxyMapV4 newV4 ∨ (newV4 = ∅ ∧ ¬ Mirrored pool.proxyMapV4)) ∨
        (Differs pool.proxyMapV6 (newV6.getD ∅) ∨
          (newV6.getD ∅ = ∅ ∧ ¬ Mirrored pool.proxyMapV6)) := by
  rw [updateProxyMaps_eq order pool hne, ← afterSnapshot_ne_iff order hnew.1,
    ← afterSnapshot_ne_iff order hnew.2, ne_eq, ProxyMaps.ext_iff, not_and_or]

theorem again_iff (hne : newV4 ≠ ∅ ∨ newV6.getD ∅ ≠ ∅) :
    updateProxyMaps order' (updateProxyMaps order pool newV4 newV6).1 newV4 newV6 =
        ((updateProxyMaps order pool newV4 newV6).1, .appliedNoDelta) ↔
      Mirrored newV4 ∧ Mirrored (newV6.getD ∅) := by
  rw [Prod.ext_iff, updateProxyMaps_again_fst order order' pool hne,
    updateProxyMaps_noDelta_iff order' _ hne, ne_eq,
    updateProxyMaps_again_changed_iff order order' pool hne, not_not]
  exact and_iff_right rfl

/-- Counting differences is right if and only if nothing else changes or there is a difference. -/
theorem counted_iff {d₄ d₆ e₄ e₆ m₄ m₆ : Prop} :
    ((d₄ ∨ d₆) ↔ (d₄ ∨ (e₄ ∧ ¬ m₄)) ∨ (d₆ ∨ (e₆ ∧ ¬ m₆))) ↔
      ((e₄ → m₄) ∧ (e₆ → m₆)) ∨ d₄ ∨ d₆ := by
  by_cases h : d₄ ∨ d₆
  · exact iff_of_true (by tauto) (Or.inr h)
  · tauto

/-- A call meets its contract if and only if the snapshot is complete and so are the maps it
    leaves alone, unless it changes the other map anyway. -/
theorem updateProxyMaps_truthful_iff (hne : newV4 ≠ ∅ ∨ newV6.getD ∅ ≠ ∅) :
    AppliesTruthfully order order' pool newV4 newV6 ↔ CompleteSnapshot pool newV4 newV6 := by
  have hagain := again_iff order order' pool hne
  have hchanged := updateProxyMaps_changed_iff order pool hne
  constructor
  · intro h
    have hnew := hagain.mp h.again
    have htruthful := h.truthful
    rw [hchanged, updateProxyMaps_ne_iff order pool hne hnew, counted_iff] at htruthful
    exact ⟨hnew, htruthful⟩
  · rintro ⟨hnew, hold⟩
    have hmirrored := updateProxyMaps_mirrored order pool hne
    refine ⟨hmirrored.1, hmirrored.2, hagain.mpr hnew, ?_⟩
    rw [hchanged, updateProxyMaps_ne_iff order pool hne hnew, counted_iff]
    exact hold

end

/-! ### Two snapshots -/

/-- The keys in ascending order. -/
def sortedKeys : KeyOrder where
  keys map := map.keys.sort
  mem_keys _ _ := (Finset.mem_sort _).trans Finmap.mem_keys

def endpoint : SocketAddr := ⟨.v4 ⟨[149, 154, 167, 51], rfl⟩, 8888⟩

/-- Endpoints of DC 2 only. -/
def positiveOnly : EndpointMap := Finmap.insert 2 [endpoint] ∅

theorem positiveOnly_ne_empty : positiveOnly ≠ ∅ := by decide

/-- The endpoints of DC 2 and of DC -2. -/
def bothSigns : EndpointMap := Finmap.insert (-2) [endpoint] positiveOnly

theorem mirrored_bothSigns : Mirrored bothSigns := by
  intro k hk hpos
  rw [bothSigns, Finmap.mem_insert, positiveOnly, Finmap.mem_insert] at hk
  rcases hk with rfl | rfl | hk
  · omega
  · exact Finmap.mem_insert.mpr (Or.inl rfl)
  · exact absurd hk Finmap.notMem_empty

/-- A complete snapshot for a pool without endpoints. -/
theorem updateProxyMaps_truthful_bothSigns :
    AppliesTruthfully sortedKeys sortedKeys ⟨∅, ∅⟩ bothSigns none := by
  have hne : bothSigns ≠ ∅ ∨ (none : Option EndpointMap).getD ∅ ≠ ∅ := Or.inl (by decide)
  refine (updateProxyMaps_truthful_iff sortedKeys sortedKeys ⟨∅, ∅⟩ hne).mpr ?_
  exact ⟨⟨mirrored_bothSigns, mirrored_empty⟩, Or.inr (Or.inl ⟨by decide, by decide⟩)⟩

theorem not_mirrored_positiveOnly : ¬ Mirrored positiveOnly := by
  intro h
  have hneg := h 2 (Finmap.mem_insert.mpr (Or.inl rfl)) (by decide)
  revert hneg
  decide

/-- A snapshot of DC 2 only: applied a second time it changes nothing and is reported as a
    change. -/
theorem updateProxyMaps_reports_change :
    ∃ first again, updateProxyMaps sortedKeys ⟨∅, ∅⟩ positiveOnly none = (first, .appliedChanged) ∧
      updateProxyMaps sortedKeys first positiveOnly none = (again, .appliedChanged) ∧
      again = first ∧
      ¬ AppliesTruthfully sortedKeys sortedKeys ⟨∅, ∅⟩ positiveOnly none := by
  have hne : positiveOnly ≠ ∅ ∨ (none : Option EndpointMap).getD ∅ ≠ ∅ :=
    Or.inl positiveOnly_ne_empty
  have hfirst := (updateProxyMaps_changed_iff sortedKeys ⟨∅, ∅⟩ hne).mpr
    (Or.inl ⟨positiveOnly_ne_empty, Ne.symm positiveOnly_ne_empty⟩)
  have hagain := (updateProxyMaps_again_changed_iff sortedKeys sortedKeys ⟨∅, ∅⟩ hne).mpr
    (fun h => not_mirrored_positiveOnly h.1)
  refine ⟨_, _, Prod.ext rfl hfirst, Prod.ext rfl hagain,
    updateProxyMaps_again_fst sortedKeys sortedKeys ⟨∅, ∅⟩ hne, ?_⟩
  intro h
  exact not_mirrored_positiveOnly ((again_iff sortedKeys sortedKeys ⟨∅, ∅⟩ hne).mp h.again).1

end MtProxy.MiddleProxy
