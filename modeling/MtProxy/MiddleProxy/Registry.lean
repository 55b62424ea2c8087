import MtProxy.MiddleProxy.Wire
import MtProxy.Schemes.Run

/-! `ConnRegistry`: which clients are connected and which Middle-End writer each of them is bound to.
    The binding is stored in both directions.

        writer_for_conn   conn ──▶ writer
        conns_for_writer  writer ──▶ set of conns

    `Consistent` says that the two directions agree and that what is bound has its other entries.
    Every operation keeps it, `bind_writer` for a conn that is not bound; the sender of a conn calls
    it only after `get_writer` returned `None`. Ids come from 64-bit counters and are plain numbers
    here, tasks of different connections being told apart by them. -/

namespace MtProxy.MiddleProxy
open Schemes

structure ConnMeta where
  targetDc : Int16
  clientAddr : SocketAddr
  ourAddr : SocketAddr
  protoFlags : UInt32
  deriving DecidableEq

structure BoundConn where
  connId : ℕ
  connMeta : ConnMeta

structure ConnWriter (Wx : Type) where
  writerId : ℕ
  tx : Wx
  deriving DecidableEq

/-- A `HashSet<u64>`; the order of the list is the order in which the set happens to be iterated. -/
structure ConnSet where
  toList : List ℕ
  nodup : toList.Nodup

namespace ConnSet

def empty : ConnSet := ⟨[], List.nodup_nil⟩
def insert (s : ConnSet) (c : ℕ) : ConnSet := ⟨s.toList.insert c, s.nodup.insert⟩
def erase (s : ConnSet) (c : ℕ) : ConnSet := ⟨s.toList.erase c, s.nodup.erase c⟩

end ConnSet

/-- `ConnRegistry` with its inner maps; `Tx` are the clients' response senders, `Wx` the writers'
    command senders. -/
structure ConnRegistry (Tx Wx : Type) where
  nextId : ℕ
  map : ℕ → Option Tx
  writers : ℕ → Option Wx
  writerForConn : ℕ → Option ℕ
  connsForWriter : ℕ → Option ConnSet
  connMeta : ℕ → Option ConnMeta

namespace ConnRegistry
variable {Tx Wx : Type}

/-- A new registry, whose first id is drawn at random. -/
def new (start : ℕ) : ConnRegistry Tx Wx :=
  ⟨start, fun _ => none, fun _ => none, fun _ => none, fun _ => none, fun _ => none⟩

def register (r : ConnRegistry Tx Wx) (tx : Tx) : ℕ × ConnRegistry Tx Wx :=
  (r.nextId, { r with nextId := r.nextId + 1, map := Function.update r.map r.nextId (some tx) })

def unregister (r : ConnRegistry Tx Wx) (id : ℕ) : Option ℕ × ConnRegistry Tx Wx :=
  let r' := { r with
    map := Function.update r.map id none
    connMeta := Function.update r.connMeta id none }
  match r.writerForConn id with
  | some w =>
    (some w, { r' with
      writerForConn := Function.update r.writerForConn id none
      connsForWriter := Function.update r.connsForWriter w ((r.connsForWriter w).map (·.erase id)) })
  | none => (none, r')

def bindWriter (r : ConnRegistry Tx Wx) (connId writerId : ℕ) (tx : Wx) (m : ConnMeta) :
    ConnRegistry Tx Wx :=
  { r with
    connMeta := Function.update r.connMeta connId (some ((r.connMeta connId).getD m))
    writerForConn := Function.update r.writerForConn connId (some writerId)
    writers := Function.update r.writers writerId (some ((r.writers writerId).getD tx))
    connsForWriter := Function.update r.connsForWriter writerId
      (some (((r.connsForWriter writerId).getD .empty).insert connId)) }

def getWriter (r : ConnRegistry Tx Wx) (connId : ℕ) : Option (ConnWriter Wx) := do
  let writerId ← r.writerForConn connId
  let tx ← r.writers writerId
  return ⟨writerId, tx⟩

/-- The conns of a writer, as `conns_for_writer` has them. -/
def connsOf (r : ConnRegistry Tx Wx) (writerId : ℕ) : List ℕ :=
  ((r.connsForWriter writerId).getD .empty).toList

def writerLost (r : ConnRegistry Tx Wx) (writerId : ℕ) : List BoundConn × ConnRegistry Tx Wx :=
  let conns := r.connsOf writerId
  (conns.filterMap (fun c => (r.connMeta c).map (⟨c, ·⟩)),
    { r with
      writers := Function.update r.writers writerId none
      connsForWriter := Function.update r.connsForWriter writerId none
      writerForConn := fun c => if c ∈ conns then none else r.writerForConn c })

def isWriterEmpty (r : ConnRegistry Tx Wx) (writerId : ℕ) : Bool :=
  ((r.connsForWriter writerId).map (·.toList.isEmpty)).getD true

/-! ### What the operations do to the two directions -/

variable (r : ConnRegistry Tx Wx)

theorem nodup_connsOf (w : ℕ) : (r.connsOf w).Nodup := ((r.connsForWriter w).getD .empty).nodup

@[simp] theorem writerForConn_register (tx : Tx) :
    (r.register tx).2.writerForConn = r.writerForConn := rfl

@[simp] theorem connsOf_register (tx : Tx) (w : ℕ) : (r.register tx).2.connsOf w = r.connsOf w := rfl

@[simp] theorem writerForConn_unregister (id : ℕ) :
    (r.unregister id).2.writerForConn = Function.update r.writerForConn id none := by
  unfold unregister
  cases h : r.writerForConn id with
  | some w => rfl
  | none =>
    funext c
    by_cases hc : c = id
    · simpa [hc] using h
    · simp [hc]

@[simp] theorem writerForConn_bindWriter (c w : ℕ) (tx : Wx) (m : ConnMeta) :
    (r.bindWriter c w tx m).writerForConn = Function.update r.writerForConn c (some w) := rfl

@[simp] theorem map_unregister (id : ℕ) :
    (r.unregister id).2.map = Function.update r.map id none := by
  unfold unregister
  cases r.writerForConn id <;> rfl

@[simp] theorem connMeta_unregister (id : ℕ) :
    (r.unregister id).2.connMeta = Function.update r.connMeta id none := by
  unfold unregister
  cases r.writerForConn id <;> rfl

@[simp] theorem writers_unregister (id : ℕ) : (r.unregister id).2.writers = r.writers := by
  unfold unregister
  cases r.writerForConn id <;> rfl

@[simp] theorem nextId_unregister (id : ℕ) : (r.unregister id).2.nextId = r.nextId := by
  unfold unregister
  cases r.writerForConn id <;> rfl

theorem connsOf_unregister (id w : ℕ) :
    (r.unregister id).2.connsOf w =
      if r.writerForConn id = some w then (r.connsOf w).erase id else r.connsOf w := by
  unfold unregister connsOf
  cases h : r.writerForConn id with
  | none => simp
  | some w' =>
    by_cases hw : w' = w
    · subst hw
      cases hc : r.connsForWriter w' <;> simp [hc, ConnSet.erase, ConnSet.empty]
    · simp [hw, Function.update_of_ne (Ne.symm hw)]

theorem connsOf_bindWriter (c w : ℕ) (tx : Wx) (m : ConnMeta) (w' : ℕ) :
    (r.bindWriter c w tx m).connsOf w' =
      if w' = w then (r.connsOf w).insert c else r.connsOf w' := by
  unfold bindWriter connsOf
  by_cases hw : w' = w
  · subst hw
    simp [ConnSet.insert]
  · simp [hw]

theorem connsOf_writerLost (w w' : ℕ) :
    (r.writerLost w).2.connsOf w' = if w' = w then [] else r.connsOf w' := by
  unfold writerLost connsOf
  by_cases hw : w' = w
  · subst hw
    simp [ConnSet.empty]
  · simp [hw]

theorem isWriterEmpty_iff (w : ℕ) : r.isWriterEmpty w = true ↔ r.connsOf w = [] := by
  unfold isWriterEmpty connsOf
  cases r.connsForWriter w <;> simp [ConnSet.empty]

/-! ### The two directions agree -/

/-- The representation invariant. -/
structure Consistent (r : ConnRegistry Tx Wx) : Prop where
  bound_iff : ∀ c w, r.writerForConn c = some w ↔ c ∈ r.connsOf w
  meta_of_bound : ∀ c w, r.writerForConn c = some w → ∃ m, r.connMeta c = some m
  writer_of_bound : ∀ c w, r.writerForConn c = some w → ∃ tx, r.writers w = some tx

variable {r}

theorem consistent_new (start : ℕ) : (new start : ConnRegistry Tx Wx).Consistent :=
  ⟨by simp [new, connsOf, ConnSet.empty], by simp [new], by simp [new]⟩

theorem Consistent.register (h : r.Consistent) (tx : Tx) : (r.register tx).2.Consistent :=
  ⟨h.bound_iff, h.meta_of_bound, h.writer_of_bound⟩

theorem Consistent.unregister (h : r.Consistent) (id : ℕ) : (r.unregister id).2.Consistent := by
  refine ⟨fun c w => ?_, fun c w hc => ?_, fun c w hc => ?_⟩
  · rw [writerForConn_unregister, connsOf_unregister]
    by_cases hid : c = id
    · subst hid
      rw [Function.update_self]
      split_ifs with hw
      · simp [(r.nodup_connsOf w).mem_erase_iff]
      · simpa [h.bound_iff] using hw
    · rw [Function.update_of_ne hid, h.bound_iff]
      split_ifs
      · exact (List.mem_erase_of_ne hid).symm
      · rfl
  · rw [writerForConn_unregister] at hc
    by_cases hid : c = id
    · simp [hid] at hc
    · rw [Function.update_of_ne hid] at hc
      rw [connMeta_unregister, Function.update_of_ne hid]
      exact h.meta_of_bound c w hc
  · rw [writerForConn_unregister] at hc
    by_cases hid : c = id
    · simp [hid] at hc
    · rw [Function.update_of_ne hid] at hc
      rw [writers_unregister]
      exact h.writer_of_bound c w hc

/-- Binding a conn that is not bound. -/
theorem Consistent.bindWriter (h : r.Consistent) {c : ℕ} (hc : r.writerForConn c = none) (w : ℕ)
    (tx : Wx) (m : ConnMeta) : (r.bindWriter c w tx m).Consistent := by
  have hnot : ∀ w', c ∉ r.connsOf w' := fun w' hmem => by
    rw [← h.bound_iff, hc] at hmem
    cases hmem
  refine ⟨fun c' w' => ?_, fun c' w' hc' => ?_, fun c' w' hc' => ?_⟩
  · rw [connsOf_bindWriter]
    by_cases hcc : c' = c
    · subst hcc
      by_cases hw : w' = w
      · simp [hw, ConnRegistry.bindWriter]
      · simp [hw, ConnRegistry.bindWriter, hnot w', Ne.symm hw]
    · have hsame : (r.bindWriter c w tx m).writerForConn c' = r.writerForConn c' :=
        Function.update_of_ne hcc ..
      rw [hsame, h.bound_iff]
      split_ifs with hw
      · subst hw
        simp [hcc]
      · rfl
  · by_cases hcc : c' = c
    · subst hcc
      exact ⟨_, Function.update_self ..⟩
    · have hsame : r.writerForConn c' = some w' := by
        rwa [writerForConn_bindWriter, Function.update_of_ne hcc] at hc'
      obtain ⟨m', hm'⟩ := h.meta_of_bound c' w' hsame
      exact ⟨m', (Function.update_of_ne hcc ..).trans hm'⟩
  · by_cases hw : w' = w
    · subst hw
      exact ⟨_, Function.update_self ..⟩
    · have hcc : c' ≠ c := by
        rintro rfl
        rw [writerForConn_bindWriter, Function.update_self, Option.some.injEq] at hc'
        exact hw hc'.symm
      have hsame : r.writerForConn c' = some w' := by
        rwa [writerForConn_bindWriter, Function.update_of_ne hcc] at hc'
      obtain ⟨tx', htx'⟩ := h.writer_of_bound c' w' hsame
      exact ⟨tx', (Function.update_of_ne hw ..).trans htx'⟩

/-- Who is bound to which writer after one is lost. -/
theorem Consistent.writerForConn_writerLost (h : r.Consistent) (w c w' : ℕ) :
    (r.writerLost w).2.writerForConn c = some w' ↔ w' ≠ w ∧ r.writerForConn c = some w' := by
  simp only [ConnRegistry.writerLost]
  by_cases hc : c ∈ r.connsOf w
  · have hb := (h.bound_iff c w).mpr hc
    simp only [if_pos hc, hb, Option.some.injEq]
    constructor
    · intro hf
      cases hf
    · rintro ⟨hne, rfl⟩
      exact absurd rfl hne
  · rw [if_neg hc]
    refine ⟨fun hw' => ⟨?_, hw'⟩, fun hw' => hw'.2⟩
    rintro rfl
    exact hc ((h.bound_iff c w').mp hw')

theorem Consistent.writerLost (h : r.Consistent) (w : ℕ) : (r.writerLost w).2.Consistent := by
  refine ⟨fun c w' => ?_, fun c w' hc => ?_, fun c w' hc => ?_⟩
  · rw [h.writerForConn_writerLost, connsOf_writerLost, h.bound_iff]
    by_cases hw : w' = w <;> simp [hw]
  · exact h.meta_of_bound c w' ((h.writerForConn_writerLost w c w').mp hc).2
  · obtain ⟨hne, hb⟩ := (h.writerForConn_writerLost w c w').mp hc
    obtain ⟨tx, htx⟩ := h.writer_of_bound c w' hb
    exact ⟨tx, (Function.update_of_ne hne ..).trans htx⟩

/-- `get_writer` finds a writer exactly for the bound conns. -/
theorem Consistent.getWriter_isSome (h : r.Consistent) (c : ℕ) :
    (r.getWriter c).isSome = true ↔ ∃ w, r.writerForConn c = some w := by
  cases hc : r.writerForConn c with
  | none => simp [getWriter, hc]
  | some w =>
    obtain ⟨tx, htx⟩ := h.writer_of_bound c w hc
    simp [getWriter, hc, htx]

/-- `writer_lost` returns the conns bound to the writer, each with its meta. -/
theorem Consistent.mem_writerLost (h : r.Consistent) (w : ℕ) (b : BoundConn) :
    b ∈ (r.writerLost w).1 ↔
      r.writerForConn b.connId = some w ∧ r.connMeta b.connId = some b.connMeta := by
  simp only [ConnRegistry.writerLost, List.mem_filterMap, Option.map_eq_some_iff]
  rw [h.bound_iff]
  constructor
  · rintro ⟨c, hc, m, hm, rfl⟩
    exact ⟨hc, hm⟩
  · rintro ⟨hc, hm⟩
    exact ⟨b.connId, hc, b.connMeta, hm, rfl⟩

/-- The ids `writer_lost` returns are those of the conns bound to the writer. -/
theorem Consistent.mem_lostConns (h : r.Consistent) (w c : ℕ) :
    c ∈ (r.writerLost w).1.map (·.connId) ↔ r.writerForConn c = some w := by
  rw [List.mem_map]
  constructor
  · rintro ⟨b, hb, rfl⟩
    exact ((h.mem_writerLost w b).mp hb).1
  · intro hc
    obtain ⟨m, hm⟩ := h.meta_of_bound c w hc
    exact ⟨⟨c, m⟩, (h.mem_writerLost w ⟨c, m⟩).mpr ⟨hc, hm⟩, rfl⟩

/-- `writer_lost` returns no conn twice. -/
theorem nodup_writerLost (w : ℕ) : ((r.writerLost w).1.map (·.connId)).Nodup := by
  have hsub : ∀ l : List ℕ, List.Sublist
      ((l.filterMap (fun c => (r.connMeta c).map (BoundConn.mk c))).map (·.connId)) l := by
    intro l
    induction l with
    | nil => exact .slnil
    | cons c l ih =>
      cases hm : r.connMeta c with
      | none => simpa [List.filterMap_cons, hm] using ih.cons c
      | some m => simpa [List.filterMap_cons, hm] using ih.cons_cons c
  exact (r.nodup_connsOf w).sublist (hsub _)

end ConnRegistry

/-! ### Runs of the registry -/

/-- The operations, and the look-up that comes before a `bind_writer`. -/
inductive RegistryOp (Tx Wx : Type) where
  | register (tx : Tx)
  | unregister (id : ℕ)
  | getWriter (connId : ℕ)
  | bindWriter (connId writerId : ℕ) (tx : Wx) (m : ConnMeta)
  | writerLost (writerId : ℕ)

/-- The registry, and the conns whose sender saw `get_writer` return `None` and has not bound them
    since. -/
structure SharedRegistry (Tx Wx : Type) where
  reg : ConnRegistry Tx Wx
  missing : ℕ → Bool

namespace SharedRegistry
variable {Tx Wx : Type}

def new (start : ℕ) : SharedRegistry Tx Wx := ⟨.new start, fun _ => false⟩

/-- One operation of any task. A conn is bound by its own sender only, after a look-up without
    result. -/
def step (s : SharedRegistry Tx Wx) : RegistryOp Tx Wx → Option (SharedRegistry Tx Wx)
  | .register tx => some { s with reg := (s.reg.register tx).2 }
  | .unregister id => some { s with reg := (s.reg.unregister id).2 }
  | .getWriter c =>
    some { s with missing := Function.update s.missing c (s.reg.getWriter c).isNone }
  | .bindWriter c w tx m =>
    if s.missing c then
      some ⟨s.reg.bindWriter c w tx m, Function.update s.missing c false⟩
    else none
  | .writerLost w => some { s with reg := (s.reg.writerLost w).2 }

/-- The registry is consistent, and a conn found missing is not bound. -/
structure Inv (s : SharedRegistry Tx Wx) : Prop where
  consistent : s.reg.Consistent
  unbound : ∀ c, s.missing c = true → s.reg.writerForConn c = none

theorem inv_new (start : ℕ) : (new start : SharedRegistry Tx Wx).Inv :=
  ⟨ConnRegistry.consistent_new start, by simp [new]⟩

theorem Inv.step {s s' : SharedRegistry Tx Wx} {op : RegistryOp Tx Wx} (h : s.Inv)
    (hstep : s.step op = some s') : s'.Inv := by
  cases op with
  | register tx =>
    obtain rfl := Option.some.inj hstep
    exact ⟨h.consistent.register tx, h.unbound⟩
  | unregister id =>
    obtain rfl := Option.some.inj hstep
    refine ⟨h.consistent.unregister id, fun c hc => ?_⟩
    by_cases hid : c = id
    · simp [hid]
    · simpa [hid] using h.unbound c hc
  | getWriter c =>
    obtain rfl := Option.some.inj hstep
    refine ⟨h.consistent, fun c' hc' => ?_⟩
    by_cases hcc : c' = c
    · subst hcc
      simp only [Function.update_self, Option.isNone_iff_eq_none] at hc'
      by_contra hne
      obtain ⟨w, hw⟩ := Option.ne_none_iff_exists'.mp hne
      have hsome := (h.consistent.getWriter_isSome c').mpr ⟨w, hw⟩
      simp [hc'] at hsome
    · exact h.unbound c' (by simpa [hcc] using hc')
  | bindWriter c w tx m =>
    simp only [SharedRegistry.step] at hstep
    split_ifs at hstep with hmiss
    obtain rfl := Option.some.inj hstep
    refine ⟨h.consistent.bindWriter (h.unbound c hmiss) w tx m, fun c' hc' => ?_⟩
    by_cases hcc : c' = c
    · simp [hcc] at hc'
    · simpa [hcc] using h.unbound c' (by simpa [hcc] using hc')
  | writerLost w =>
    obtain rfl := Option.some.inj hstep
    refine ⟨h.consistent.writerLost w, fun c hc => ?_⟩
    simp [ConnRegistry.writerLost, h.unbound c hc]

end SharedRegistry

/-- In every state that the operations reach, in any order: the two directions of the index agree
    and every conn is in at most one set; what is bound has its meta and its writer, so that
    `get_writer` finds exactly the bound conns; `is_writer_empty` and `writer_lost` see exactly the
    conns bound to the writer, and losing it unbinds these and no others. -/
theorem registry_index_agrees {Tx Wx : Type} (start : ℕ) (ops : List (RegistryOp Tx Wx))
    (s : SharedRegistry Tx Wx) (hrun : run SharedRegistry.step (.new start) ops = some s) :
    (∀ c w, s.reg.writerForConn c = some w ↔ ∃ cs, s.reg.connsForWriter w = some cs ∧ c ∈ cs.toList) ∧
    (∀ c w w', c ∈ s.reg.connsOf w → c ∈ s.reg.connsOf w' → w = w') ∧
    (∀ c w, s.reg.writerForConn c = some w →
      (s.reg.connMeta c).isSome = true ∧ (s.reg.writers w).isSome = true) ∧
    (∀ c, (s.reg.getWriter c).isSome = true ↔ (s.reg.writerForConn c).isSome = true) ∧
    (∀ w, s.reg.isWriterEmpty w = true ↔ ∀ c, s.reg.writerForConn c ≠ some w) ∧
    (∀ w, ((s.reg.writerLost w).1.map (·.connId)).Nodup ∧
      (∀ c, (∃ b ∈ (s.reg.writerLost w).1, b.connId = c) ↔ s.reg.writerForConn c = some w) ∧
      (∀ b ∈ (s.reg.writerLost w).1, s.reg.connMeta b.connId = some b.connMeta) ∧
      (∀ c, (s.reg.writerLost w).2.writerForConn c ≠ some w) ∧
      (∀ c w', w' ≠ w → ((s.reg.writerLost w).2.writerForConn c = some w' ↔
        s.reg.writerForConn c = some w'))) := by
  have hinv := run_invariant (fun _ _ _ h hstep => SharedRegistry.Inv.step h hstep) ops
    (SharedRegistry.inv_new start) hrun
  have h := hinv.consistent
  refine ⟨fun c w => ?_, fun c w w' hc hc' => ?_, fun c w hc => ?_, fun c => ?_, fun w => ?_,
    fun w => ⟨ConnRegistry.nodup_writerLost w, fun c => ?_, fun b hb => ?_, fun c hc => ?_,
      fun c w' hne => ?_⟩⟩
  · rw [h.bound_iff, ConnRegistry.connsOf]
    cases s.reg.connsForWriter w <;> simp [ConnSet.empty]
  · rw [← h.bound_iff] at hc hc'
    exact Option.some.inj (hc.symm.trans hc')
  · obtain ⟨m, hm⟩ := h.meta_of_bound c w hc
    obtain ⟨tx, htx⟩ := h.writer_of_bound c w hc
    exact ⟨by rw [hm]; rfl, by rw [htx]; rfl⟩
  · rw [h.getWriter_isSome, Option.isSome_iff_exists]
  · rw [ConnRegistry.isWriterEmpty_iff, List.eq_nil_iff_forall_not_mem]
    exact forall_congr' fun c => not_congr (h.bound_iff c w).symm
  · constructor
    · rintro ⟨b, hb, rfl⟩
      exact ((h.mem_writerLost w b).mp hb).1
    · intro hc
      obtain ⟨m, hm⟩ := h.meta_of_bound c w hc
      exact ⟨⟨c, m⟩, (h.mem_writerLost w ⟨c, m⟩).mpr ⟨hc, hm⟩, rfl⟩
  · exact ((h.mem_writerLost w b).mp hb).2
  · exact ((h.writerForConn_writerLost w c w).mp hc).1 rfl
  · rw [h.writerForConn_writerLost]
    exact and_iff_right hne

/-- Two conns bound to writer 7, the first of them gone again: only the second one is lost with it. -/
theorem registry_index_agrees_after_unregister :
    let addr : SocketAddr := ⟨.v4 ⟨[127, 0, 0, 1], rfl⟩, 443⟩
    let m : ConnMeta := ⟨2, addr, addr, 0⟩
    let ops : List (RegistryOp Unit Unit) := [.register (), .getWriter 1, .bindWriter 1 7 () m,
      .register (), .getWriter 2, .bindWriter 2 7 () m, .unregister 1]
    ∃ s, run SharedRegistry.step (.new 1) ops = some s ∧
      s.reg.writerForConn 2 = some 7 ∧ s.reg.connsOf 7 = [2] ∧
      ∀ c, (∃ b ∈ (s.reg.writerLost 7).1, b.connId = c) ↔ s.reg.writerForConn c = some 7 := by
  intro addr m ops
  obtain ⟨s, hs, hw, hc⟩ : ∃ s, run SharedRegistry.step (.new 1) ops = some s ∧
      s.reg.writerForConn 2 = some 7 ∧ s.reg.connsOf 7 = [2] := ⟨_, rfl, rfl, rfl⟩
  exact ⟨s, hs, hw, hc, ((registry_index_agrees 1 ops s hs).2.2.2.2.2 7).2.1⟩

end MtProxy.MiddleProxy
