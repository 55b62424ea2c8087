import MtProxy.MiddleProxy.PoolSteps

/-! The books of the pool: `conn_count` counts the entries of `writers`, and a writer that leaves the
    list without having been marked draining is replaced by one refill of its address.

        connect   push ────────▶ conn_count + 1
        remove    erase, conn_count - 1 ────────▶ trigger_immediate_refill
        reader    retain                            (nothing)

    `Pushes` says that every id is pushed once. The reader task drops its writer from the list after
    the cleanup, without touching the books: when the ping task has won the election and has not come
    to the removal yet, the writer leaves by this way and the later removal no longer finds it. In
    the runs where the reader finds its writer gone the books are right. -/

namespace MtProxy.MiddleProxy
open Schemes

/-! ### Every id is pushed once -/

/-- The list holds writers that were pushed, and an id that is still to be pushed is a new one. -/
structure Pushes (p : MePool) (h : List PoolOp) (M : Multiset Frame) : Prop where
  listed : ∀ v ∈ p.writers, .pushWriter v ∈ h
  nodup : p.writerIds.Nodup
  pushed_lt : ∀ v, .pushWriter v ∈ h → v.id < p.nextWriterId
  unique : ∀ u v, .pushWriter u ∈ h → .pushWriter v ∈ h → u.id = v.id → u = v
  once : ∀ w, M.countP (fun g => pushes g = some w) ≤ 1
  fresh : ∀ w, ∀ g ∈ M, pushes g = some w →
    w < p.nextWriterId ∧ ∀ v, .pushWriter v ∈ h → v.id ≠ w

section
variable {p : MePool} {h : List PoolOp} {f : Frame} {R : Multiset Frame} {e : PoolOp}
  {fs : List Frame} {sp : List (List Frame)}

theorem pushes_initial (start : ℕ) :
    Pushes (initial start).shared (initial start).history (initial start).frames := by
  refine ⟨?_, List.nodup_nil, ?_, ?_, fun w => ?_, fun w => ?_⟩
  · intro v hv
    cases hv
  · intro v hv
    cases hv
  · intro u v hu
    cases hu
  · exact Multiset.countP_le_card _ _
  · simp [Config.frames, initial, pushes]

/-- Steps that push nothing and add nothing to push. -/
theorem Pushes.mono (hI : Pushes p h (f ::ₘ R)) {p' : MePool}
    (hw : p'.writers.Sublist p.writers) (hn : p'.nextWriterId = p.nextWriterId)
    (hne : ∀ v, e ≠ .pushWriter v) (hnew : ∀ g ∈ fs ++ sp.flatten, pushes g = none) :
    Pushes p' (h ++ [e]) ((fs ++ sp.flatten : List Frame) + R) := by
  have hmem : ∀ v, .pushWriter v ∈ h ++ [e] ↔ .pushWriter v ∈ h := fun v => by
    rw [List.mem_append, List.mem_singleton]
    exact or_iff_left fun hv => hne v hv.symm
  refine ⟨fun v hv => (hmem v).mpr (hI.listed v (hw.subset hv)), hI.nodup.sublist (hw.map _),
    fun v hv => ?_, fun u v hu hv => hI.unique u v ((hmem u).mp hu) ((hmem v).mp hv), fun w => ?_,
    fun w g hg hgw => ?_⟩
  · rw [hn]
    exact hI.pushed_lt v ((hmem v).mp hv)
  · refine countP_add_le (hI.once w) ?_
    rw [List.countP_eq_zero.mpr fun g hg => by simp [hnew g hg]]
    exact Nat.zero_le _
  · rw [hn]
    simp only [hmem]
    rw [Multiset.mem_add, Multiset.mem_coe] at hg
    rcases hg with hg | hg
    · rw [hnew g hg] at hgw
      cases hgw
    · exact hI.fresh w g (Multiset.mem_cons_of_mem hg) hgw

theorem Pushes.step (hI : Pushes p h (f ::ₘ R)) (hspec : OpSpec p f fs sp e) :
    Pushes (e.effect p) (h ++ [e]) ((fs ++ sp.flatten : List Frame) + R) := by
  cases e with
  | allocId =>
    obtain ⟨addr, rfl, rfl, rfl⟩ := hspec
    have hmem : ∀ v, .pushWriter v ∈ h ++ [PoolOp.allocId] ↔ .pushWriter v ∈ h := by simp
    refine ⟨fun v hv => (hmem v).mpr (hI.listed v hv), hI.nodup, fun v hv => ?_,
      fun u v hu hv => hI.unique u v ((hmem u).mp hu) ((hmem v).mp hv), ?_, fun w g hg hgw => ?_⟩
    · exact Nat.lt_succ_of_lt (hI.pushed_lt v ((hmem v).mp hv))
    · refine countP_key_le_one (n := p.nextWriterId) hI.once (by simp [pushes])
        (fun w hw => by simp [pushes, Ne.symm hw]) fun g hg hgw => ?_
      exact Nat.lt_irrefl _ (hI.fresh _ g (Multiset.mem_cons_of_mem hg) hgw).1
    · simp only [hmem, PoolOp.effect]
      rcases Multiset.mem_add.mp hg with hg | hg
      · obtain rfl | rfl : g = .connectPush ⟨p.nextWriterId, addr⟩ ∨
            g = .writerTask p.nextWriterId := by simpa using hg
        · obtain rfl : p.nextWriterId = w := by simpa [pushes] using hgw
          exact ⟨Nat.lt_succ_self _, fun v hv => Nat.ne_of_lt (hI.pushed_lt v hv)⟩
        · cases hgw
      · obtain ⟨hlt, hnot⟩ := hI.fresh w g (Multiset.mem_cons_of_mem hg) hgw
        exact ⟨Nat.lt_succ_of_lt hlt, hnot⟩
  | pushWriter v =>
    obtain ⟨rfl, rfl, rfl⟩ := hspec
    obtain ⟨hlt, hnot⟩ := hI.fresh v.id (.connectPush v) (Multiset.mem_cons_self _ _) rfl
    have hmem : ∀ u, .pushWriter u ∈ h ++ [PoolOp.pushWriter v] ↔ .pushWriter u ∈ h ∨ u = v := by
      simp
    refine ⟨fun u hu => ?_, ?_, fun u hu => ?_, fun u u' hu hu' hid => ?_, fun w => ?_,
      fun w g hg hgw => ?_⟩
    · rcases List.mem_append.mp hu with hu | hu
      · exact (hmem u).mpr (.inl (hI.listed u hu))
      · exact (hmem u).mpr (.inr (List.mem_singleton.mp hu))
    · rw [MePool.writerIds, PoolOp.effect, List.map_append, List.map_singleton]
      refine hI.nodup.append (List.nodup_singleton _) ?_
      rw [List.disjoint_singleton]
      intro hv
      obtain ⟨u, hu, huv⟩ := List.mem_map.mp hv
      exact hnot u (hI.listed u hu) huv
    · rcases (hmem u).mp hu with hu | rfl
      · exact hI.pushed_lt u hu
      · exact hlt
    · rcases (hmem u).mp hu with hu₁ | hu₁ <;> rcases (hmem u').mp hu' with hu₂ | hu₂
      · exact hI.unique u u' hu₁ hu₂ hid
      · exact absurd (hid.trans (congrArg _ hu₂)) (hnot u hu₁)
      · exact absurd (hid.symm.trans (congrArg _ hu₁)) (hnot u' hu₂)
      · exact hu₁.trans hu₂.symm
    · exact countP_add_le (hI.once w) (by simp [pushes])
    · simp only [hmem, PoolOp.effect]
      have hR : g ∈ R := by
        rcases Multiset.mem_add.mp hg with hg | hg
        · obtain rfl : g = .connectCount v.id := by simpa using hg
          cases hgw
        · exact hg
      obtain ⟨hltw, hnotw⟩ := hI.fresh w g (Multiset.mem_cons_of_mem hR) hgw
      refine ⟨hltw, fun u hu => ?_⟩
      rcases hu with hu | rfl
      · exact hnotw u hu
      · -- the frame just run was the only one to push this id
        rintro rfl
        exact notMem_of_countP_le_one (hI.once u.id) rfl hgw hR
  | skip =>
    obtain ⟨-, -, -, -, -, -, -, hpush, -, -⟩ := hspec
    exact hI.mono (.refl _) rfl (by simp) hpush
  | removeWriter v =>
    obtain ⟨discard, -, rfl, rfl, rfl⟩ := hspec
    exact hI.mono List.eraseP_sublist rfl (by simp) (by split <;> simp [pushes])
  | retain w =>
    obtain ⟨rfl, rfl, rfl⟩ := hspec
    exact hI.mono List.filter_sublist rfl (by simp) (by simp [pushes])
  | register c =>
    obtain ⟨-, rfl, rfl, rfl⟩ := hspec
    exact hI.mono (.refl _) rfl (by simp) (by simp [pushes])
  | bindWriter c w m =>
    obtain ⟨call, rfl, -, -, rfl, rfl⟩ := hspec
    exact hI.mono (.refl _) rfl (by simp) (by simp [pushes])
  | writerLost w discard conns =>
    obtain ⟨rfl, -, rfl, rfl⟩ := hspec
    exact hI.mono (.refl _) rfl (by simp) (by split <;> simp [pushes])
  | enqueue c w =>
    rcases hspec with ⟨-, rfl, rfl⟩ | ⟨call, -, -, -, -, -, rfl, rfl⟩ <;>
      exact hI.mono (.refl _) rfl (by simp) (by simp [pushes])
  | routeClose c =>
    rcases hspec with ⟨cs, -, rfl, rfl, rfl⟩ | ⟨w, rfl, rfl, rfl⟩ <;>
      exact hI.mono (.refl _) rfl (by simp) (by simp [pushes])
  | countUp =>
    obtain ⟨w, rfl, rfl, rfl⟩ := hspec
    exact hI.mono (.refl _) rfl (by simp) (by simp [pushes])
  | markDraining w =>
    obtain ⟨rfl, -, rfl, rfl⟩ := hspec
    exact hI.mono (.refl _) rfl (by simp) (by simp [pushes])
  | claimCleanup w =>
    obtain ⟨rest, ⟨-, rfl⟩ | ⟨-, rfl⟩, rfl, rfl⟩ := hspec <;>
      exact hI.mono (.refl _) rfl (by simp) (by simp [pushes])
  | unregister | triggerRefill | closeChannel =>
    obtain ⟨rfl, rfl, rfl⟩ := hspec
    exact hI.mono (.refl _) rfl (by simp) (by simp [pushes])

/-! ### The books -/

/-- The task is about to count the writer it has pushed. -/
def counting : Frame → Bool
  | .connectCount _ => true
  | _ => false

/-- What is counted and what is still to be counted are the entries of the list; what was refilled
    and what is still to be refilled are the writers that left it and were not draining. -/
structure Books (p : MePool) (h : List PoolOp) (M : Multiset Frame) : Prop where
  marked : ∀ w, p.draining w = true ↔ .markDraining w ∈ h
  count : p.connCount + UInt64.ofNat (M.countP (counting · = true)) = UInt64.ofNat p.writers.length
  refill : ∀ v, h.count (.triggerRefill v) + M.count (.removeRefill v) =
    if .pushWriter v ∈ h ∧ v ∉ p.writers ∧ p.draining v.id = false then 1 else 0

theorem books_initial (start : ℕ) :
    Books (initial start).shared (initial start).history (initial start).frames := by
  refine ⟨fun w => ?_, ?_, fun v => ?_⟩
  · simp [initial, MePool.new]
  · rfl
  · simp [initial, Config.frames]

theorem not_counting_of_not_books {g : Frame} (h : books g = false) : counting g ≠ true := by
  cases g with
  | _ => first | exact Bool.false_ne_true | cases h

/-- Steps that leave the list, the counter, the marks and the bookkeeping alone. -/
theorem Books.mono (hB : Books p h (f ::ₘ R)) {p' : MePool} (hw : p'.writers = p.writers)
    (hc : p'.connCount = p.connCount) (hd : p'.draining = p.draining)
    (he : (∀ v, e ≠ .pushWriter v) ∧ (∀ w, e ≠ .markDraining w) ∧ ∀ v, e ≠ .triggerRefill v)
    (hf : books f = false) (hnew : ∀ g ∈ fs ++ sp.flatten, books g = false) :
    Books p' (h ++ [e]) ((fs ++ sp.flatten : List Frame) + R) := by
  obtain ⟨hpush, hmark, hrefill⟩ := he
  have hno : ∀ g v, books g = false → g ≠ .removeRefill v := fun g v hg => by
    rintro rfl
    cases hg
  refine ⟨fun w => ?_, ?_, fun v => ?_⟩
  · rw [hd, hB.marked, List.mem_append, List.mem_singleton]
    exact (or_iff_left fun hw => hmark w hw.symm).symm
  · have hold := hB.count
    rw [Multiset.countP_cons_of_neg (p := fun g => counting g = true) _ (not_counting_of_not_books hf)] at hold
    rw [hc, hw, countP_add_of_forall_not fun g hg => not_counting_of_not_books (hnew g hg), hold]
  · have hold := hB.refill v
    rw [Multiset.count_cons_of_ne (fun hv => hno f v hf hv.symm)] at hold
    have hmem : .pushWriter v ∈ h ++ [e] ↔ .pushWriter v ∈ h := by
      rw [List.mem_append, List.mem_singleton]
      exact or_iff_left fun hv => hpush v hv.symm
    have hlast : [e].count (.triggerRefill v) = 0 := by
      rw [List.count_eq_zero, List.mem_singleton]
      exact fun hv => hrefill v hv.symm
    rw [count_add_of_notMem fun hg => hno _ v (hnew _ hg) rfl, List.count_append, hlast, Nat.add_zero,
      hold]
    simp only [hmem, hw, hd]

/-- Erasing a listed writer by its id erases this one only. -/
theorem mem_eraseP_id (hI : Pushes p h (f ::ₘ R)) {v : MeWriter} (hv : v ∈ p.writers) (u : MeWriter) :
    u ∈ p.writers.eraseP (·.id = v.id) ↔ u ≠ v ∧ u ∈ p.writers := by
  obtain ⟨a, l₁, l₂, -, hid, hl, he⟩ := List.exists_of_eraseP hv (p := (·.id = v.id)) (by simp)
  obtain rfl : a = v := by
    have ha : a ∈ p.writers := by simp [hl]
    exact hI.unique a v (hI.listed a ha) (hI.listed v hv) (by simpa using hid)
  have hnodup : (a :: (l₁ ++ l₂)).Nodup := List.nodup_middle.mp (hl ▸ hI.nodup.of_map _)
  have hnot : a ∉ l₁ ++ l₂ := (List.nodup_cons.mp hnodup).1
  rw [he, hl]
  constructor
  · intro hu
    exact ⟨fun hua => hnot (hua ▸ hu), by simp at hu ⊢; tauto⟩
  · rintro ⟨hne, hu⟩
    simp at hu ⊢
    tauto

/-- A step of the counter and of the list, each by one. -/
theorem counted_succ {c : UInt64} {k n : ℕ} (hc : c + UInt64.ofNat k = UInt64.ofNat n) :
    c + UInt64.ofNat (k + 1) = UInt64.ofNat (n + 1) := by
  rw [UInt64.ofNat_add, UInt64.ofNat_add, ← UInt64.add_assoc, hc]

theorem counted_pred {c : UInt64} {k n : ℕ} (hc : c + UInt64.ofNat k = UInt64.ofNat (n + 1)) :
    c - 1 + UInt64.ofNat k = UInt64.ofNat n := by
  rw [UInt64.ofNat_add] at hc
  grind

theorem Books.step (hI : Pushes p h (f ::ₘ R)) (hB : Books p h (f ::ₘ R))
    (hspec : OpSpec p f fs sp e) (hG : ∀ w, e = .retain w → w ∉ p.writerIds) :
    Books (e.effect p) (h ++ [e]) ((fs ++ sp.flatten : List Frame) + R) := by
  cases e with
  | pushWriter v =>
    obtain ⟨rfl, rfl, rfl⟩ := hspec
    obtain ⟨-, hnot⟩ := hI.fresh v.id (.connectPush v) (Multiset.mem_cons_self _ _) rfl
    refine ⟨fun w => by simpa [PoolOp.effect] using hB.marked w, ?_, fun u => ?_⟩
    · have hold := hB.count
      rw [Multiset.countP_cons_of_neg (p := fun g => counting g = true) _ (by simp [counting])] at hold
      have hnew : (([.connectCount v.id] : List Frame) : Multiset Frame).countP
          (fun g => counting g = true) = 1 := rfl
      rw [List.flatten_nil, List.append_nil, Multiset.countP_add, hnew, Nat.add_comm 1, PoolOp.effect,
        List.length_append]
      exact counted_succ hold
    · have hold := hB.refill u
      rw [Multiset.count_cons_of_ne (by simp)] at hold
      rw [count_add_of_notMem (by simp)]
      by_cases huv : u = v
      · subst huv
        have hno : .pushWriter u ∉ h := fun hu => hnot u hu rfl
        simpa [PoolOp.effect, hno] using hold
      · simpa [PoolOp.effect, huv] using hold
  | countUp =>
    obtain ⟨w, rfl, rfl, rfl⟩ := hspec
    refine ⟨fun w => by simpa [PoolOp.effect] using hB.marked w, ?_, fun u => ?_⟩
    · have hold := hB.count
      rw [Multiset.countP_cons_of_pos (p := fun g => counting g = true) _ rfl, UInt64.ofNat_add] at hold
      rw [countP_add_of_forall_not (by simp [counting])]
      simp only [PoolOp.effect]
      grind
    · have hold := hB.refill u
      rw [Multiset.count_cons_of_ne (by simp)] at hold
      rw [count_add_of_notMem (by simp)]
      simpa [PoolOp.effect] using hold
  | removeWriter v =>
    obtain ⟨discard, hv, rfl, rfl, rfl⟩ := hspec
    have hlen := List.length_eraseP_add_one hv (p := (·.id = v.id)) (by simp)
    refine ⟨fun w => by simpa [PoolOp.effect] using hB.marked w, ?_, fun u => ?_⟩
    · have hold := hB.count
      rw [Multiset.countP_cons_of_neg (p := fun g => counting g = true) _ (by simp [counting]),
        ← hlen] at hold
      rw [countP_add_of_forall_not (by split <;> simp [counting])]
      exact counted_pred hold
    · have hold := hB.refill u
      rw [Multiset.count_cons_of_ne (by simp)] at hold
      have hmem := mem_eraseP_id hI hv u
      rw [Multiset.count_add, Multiset.coe_count, PoolOp.effect]
      by_cases huv : u = v
      · subst huv
        have hpush := hI.listed u hv
        cases hd : p.draining u.id <;> simp_all
      · cases hd : p.draining v.id <;> simp_all [Ne.symm huv]
  | retain w =>
    obtain ⟨rfl, rfl, rfl⟩ := hspec
    refine hB.mono (List.filter_eq_self.mpr fun v hv => ?_) rfl rfl (by simp) rfl (by simp)
    simpa using fun hid => hG w rfl (List.mem_map.mpr ⟨v, hv, hid⟩)
  | triggerRefill v =>
    obtain ⟨rfl, rfl, rfl⟩ := hspec
    refine ⟨fun w => by simpa [PoolOp.effect] using hB.marked w, ?_, fun u => ?_⟩
    · have hold := hB.count
      rw [Multiset.countP_cons_of_neg (p := fun g => counting g = true) _ (by simp [counting])] at hold
      rw [countP_add_of_forall_not (by simp)]
      exact hold
    · have hold := hB.refill u
      rw [Multiset.count_cons] at hold
      by_cases huv : u = v
      · subst huv
        simp_all [PoolOp.effect]
        omega
      · simp_all [PoolOp.effect, Ne.symm huv]
  | markDraining w =>
    obtain ⟨rfl, hw, rfl, rfl⟩ := hspec
    obtain ⟨v, hv, rfl⟩ := List.mem_map.mp hw
    refine ⟨fun w => ?_, ?_, fun u => ?_⟩
    · by_cases hwv : w = v.id
      · simp [PoolOp.effect, hwv]
      · simpa [PoolOp.effect, hwv] using hB.marked w
    · have hold := hB.count
      rw [Multiset.countP_cons_of_neg (p := fun g => counting g = true) _ (by simp [counting])] at hold
      rw [countP_add_of_forall_not (by simp [counting])]
      exact hold
    · have hold := hB.refill u
      rw [Multiset.count_cons_of_ne (by simp)] at hold
      rw [count_add_of_notMem (by simp)]
      by_cases huv : u.id = v.id
      · -- a pushed writer with the id of a listed one is that one
        have hlisted : .pushWriter u ∈ h → u ∈ p.writers := fun hu =>
          hI.unique u v hu (hI.listed v hv) huv ▸ hv
        have hzero : ¬ (.pushWriter u ∈ h ∧ u ∉ p.writers ∧ p.draining u.id = false) :=
          fun hc => hc.2.1 (hlisted hc.1)
        simp_all [PoolOp.effect]
      · simpa [PoolOp.effect, huv] using hold
  | skip =>
    exact hB.mono rfl rfl rfl (by simp) hspec.books.1 hspec.books.2
  | register c =>
    obtain ⟨-, rfl, rfl, rfl⟩ := hspec
    exact hB.mono rfl rfl rfl (by simp) rfl (by simp [books])
  | bindWriter c w m =>
    obtain ⟨call, rfl, -, -, rfl, rfl⟩ := hspec
    exact hB.mono rfl rfl rfl (by simp) rfl (by simp [books])
  | writerLost w discard conns =>
    obtain ⟨rfl, -, rfl, rfl⟩ := hspec
    exact hB.mono rfl rfl rfl (by simp) rfl (by split <;> simp [books])
  | enqueue c w =>
    rcases hspec with ⟨hf, rfl, rfl⟩ | ⟨call, -, hf, -, -, -, rfl, rfl⟩
    · exact hB.mono rfl rfl rfl (by simp) (owner_spec (owner_of_resends hf)).2.2
        (by simp [books])
    · exact hB.mono rfl rfl rfl (by simp) (owner_spec (owner_of_seeks hf)).2.2
        (by simp [books])
  | routeClose c =>
    rcases hspec with ⟨cs, -, rfl, rfl, rfl⟩ | ⟨w, rfl, rfl, rfl⟩ <;>
      exact hB.mono rfl rfl rfl (by simp) rfl (by simp [books])
  | allocId =>
    obtain ⟨addr, rfl, rfl, rfl⟩ := hspec
    exact hB.mono rfl rfl rfl (by simp) rfl (by simp [books])
  | claimCleanup w =>
    obtain ⟨rest, ⟨rfl, rfl⟩ | ⟨rfl, rfl⟩, rfl, rfl⟩ := hspec <;>
      exact hB.mono rfl rfl rfl (by simp) rfl (by simp [books])
  | unregister | closeChannel =>
    obtain ⟨rfl, rfl, rfl⟩ := hspec
    exact hB.mono rfl rfl rfl (by simp) rfl (by simp)

end

/-- The `retain` of a reader task finds its writer gone from the list. -/
def retainsNone (cfg : PoolConfig) : PoolOp → Bool
  | .retain w => w ∉ cfg.shared.writerIds
  | _ => true

/-- Both invariants, along the runs in which no reader task drops a listed writer. -/
theorem books_of_run {start : ℕ} {ls : List (ℕ × Answer)} {cfg : PoolConfig}
    (hmeets : poolProgram.Meets retainsNone (initial start) ls)
    (hrun : run poolProgram.step (initial start) ls = some cfg) :
    Pushes cfg.shared cfg.history cfg.frames ∧ Books cfg.shared cfg.history cfg.frames := by
  refine Program.interleave_invariant (I := fun p h M => Pushes p h M ∧ Books p h M) ?_ ls
    ⟨pushes_initial start, books_initial start⟩ hmeets hrun
  rintro c f R a e fs sp ⟨hI, hB⟩ hexec hG
  have hspec := exec_spec hexec
  refine ⟨hI.step hspec, hB.step hI hspec fun w he => ?_⟩
  subst he
  simpa [retainsNone] using hG

/-- In every run in which the reader tasks find their writers gone from the list: whenever no task has
    pushed a writer and not counted it, `conn_count` is the number of entries; and for a writer that
    has left the list without having been marked draining, unless its refill is still to come, it
    was triggered exactly once. -/
theorem pool_books_balance (start : ℕ) (ls : List (ℕ × Answer)) (cfg : PoolConfig)
    (hrun : run poolProgram.step (initial start) ls = some cfg)
    (hmeets : poolProgram.Meets retainsNone (initial start) ls) :
    ((∀ w, .connectCount w ∉ cfg.frames) →
      cfg.shared.connCount = UInt64.ofNat cfg.shared.writers.length) ∧
    ∀ v, .pushWriter v ∈ cfg.history → v ∉ cfg.shared.writers →
      .markDraining v.id ∉ cfg.history → .removeRefill v ∉ cfg.frames →
      cfg.history.count (.triggerRefill v) = 1 := by
  obtain ⟨-, hB⟩ := books_of_run hmeets hrun
  constructor
  · intro hidle
    have hzero : cfg.frames.countP (counting · = true) = 0 := by
      refine Multiset.countP_eq_zero.mpr fun g hg hc => ?_
      cases g with
      | connectCount w => exact hidle w hg
      | _ => cases hc
    have hcount := hB.count
    rw [hzero] at hcount
    simpa using hcount
  · intro v hpush hleft hmark hdone
    have hdrain : cfg.shared.draining v.id = false := by
      rw [← Bool.not_eq_true, hB.marked]
      exact hmark
    have hrefill := hB.refill v
    rwa [Multiset.count_eq_zero.mpr hdone, Nat.add_zero, if_pos ⟨hpush, hleft, hdrain⟩] at hrefill

/-- Writer 1 connects, and its channel closes. -/
def dyingWriter (addr : SocketAddr) : List (ℕ × Answer) :=
  [(0, .startConnect addr), (1, .go), (1, .go), (1, .go), (2, .exit)]

/-- The reader task cleans up, and finds the writer gone after that. -/
theorem pool_books_balance_reader_cleans_up :
    let addr : SocketAddr := ⟨.v4 ⟨[127, 0, 0, 1], rfl⟩, 443⟩
    let ls := dyingWriter addr ++ [(3, .exit), (3, .go), (3, .go), (3, .go), (3, .go), (3, .go),
      (3, .go), (3, .go)]
    ∃ cfg, run poolProgram.step (initial 1) ls = some cfg ∧ .retain 1 ∈ cfg.history ∧
      cfg.shared.connCount = 0 ∧ cfg.history.count (.triggerRefill ⟨1, addr⟩) = 1 := by
  intro addr ls
  have heval : (run poolProgram.step (initial 1) ls).map (fun cfg => (cfg.shared.writers,
      decide (.retain 1 ∈ cfg.history), decide (.pushWriter ⟨1, addr⟩ ∈ cfg.history),
      decide (.markDraining 1 ∈ cfg.history), cfg.tasks.flatten)) =
      some ([], true, true, false, [.proxy, .ping 1]) := by decide +kernel
  obtain ⟨cfg, hrun, hcfg⟩ := Option.map_eq_some_iff.mp heval
  simp only [Prod.mk.injEq, decide_eq_true_eq, decide_eq_false_iff_not] at hcfg
  obtain ⟨hws, hretain, hpush, hmark, hframes⟩ := hcfg
  obtain ⟨hcount, hrefill⟩ := pool_books_balance 1 ls cfg hrun (by decide +kernel)
  refine ⟨cfg, hrun, hretain, ?_, hrefill ⟨1, addr⟩ hpush (by simp [hws]) hmark ?_⟩
  · rw [hcount (by simp [Config.frames, hframes]), hws]
    rfl
  · simp [Config.frames, hframes]

/-- The ping task wins the cleanup, and before it comes to the removal the reader task drops the
    writer: with all tasks done, the counter is one too high and no refill was triggered. -/
theorem reader_retain_unbalances_books :
    let addr : SocketAddr := ⟨.v4 ⟨[127, 0, 0, 1], rfl⟩, 443⟩
    let ls := dyingWriter addr ++ [(4, .closed), (4, .go), (3, .exit), (3, .go), (3, .go), (4, .go),
      (4, .go), (4, .go)]
    ∃ cfg, run poolProgram.step (initial 1) ls = some cfg ∧ cfg.tasks.flatten = [.proxy] ∧
      cfg.shared.writers = [] ∧ cfg.shared.connCount = 1 ∧ .pushWriter ⟨1, addr⟩ ∈ cfg.history ∧
      .markDraining 1 ∉ cfg.history ∧ cfg.history.count (.triggerRefill ⟨1, addr⟩) = 0 := by
  intro addr ls
  have heval : (run poolProgram.step (initial 1) ls).map (fun cfg => (cfg.tasks.flatten,
      cfg.shared.writers, cfg.shared.connCount, decide (.pushWriter ⟨1, addr⟩ ∈ cfg.history),
      decide (.markDraining 1 ∈ cfg.history), cfg.history.count (.triggerRefill ⟨1, addr⟩))) =
      some ([.proxy], [], 1, true, false, 0) := by decide +kernel
  obtain ⟨cfg, hrun, hcfg⟩ := Option.map_eq_some_iff.mp heval
  simp only [Prod.mk.injEq, decide_eq_true_eq, decide_eq_false_iff_not] at hcfg
  exact ⟨cfg, hrun, hcfg⟩

end MtProxy.MiddleProxy
