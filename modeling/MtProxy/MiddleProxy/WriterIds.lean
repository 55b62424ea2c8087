import MtProxy.MiddleProxy.Pool
import MtProxy.Schemes.Holdings

/-! The ids of the writers, and the endpoints that are served. An id is handed out by `next_writer_id`
    before the writer gets into the list, once, and a writer is marked draining only in the list.

        allocId ──▶ pending ──push──▶ listed ──remove──▶ gone
                                      settled from here on

    So a writer is live when it gets into the list, and what is known of the writer with a settled id
    stays known. `Covered` says that some endpoint has a live writer; it is lost only by the removal or
    the draining of a live writer. -/

namespace MtProxy.MiddleProxy
open Schemes

/-- The writers that are not draining. -/
def MePool.live (p : MePool) : List MeWriter := p.writers.filter (fun w => !p.draining w.id)

/-- A live writer is on one of the endpoints. -/
def Covered (p : MePool) (eps : List SocketAddr) : Prop := ∃ w ∈ p.live, w.addr ∈ eps

/-- Every id is in the list or still to be pushed, not both, and at most once. -/
structure IdsOnce (p : MePool) (pending : Multiset ℕ) : Prop where
  nodup : ((p.writerIds : Multiset ℕ) + pending).Nodup
  lt : ∀ w ∈ (p.writerIds : Multiset ℕ) + pending, w < p.nextWriterId
  draining : ∀ w, p.draining w = true → w < p.nextWriterId ∧ w ∉ pending

/-- The id was handed out, and no writer will be pushed under it any more. -/
def Settled (p : MePool) (pending : Multiset ℕ) (w : ℕ) : Prop := w < p.nextWriterId ∧ w ∉ pending

section
variable {p p' : MePool} {pending : Multiset ℕ} {w : MeWriter} {eps : List SocketAddr}

theorem mem_live {v : MeWriter} : v ∈ p.live ↔ v ∈ p.writers ∧ p.draining v.id = false := by
  simp [MePool.live]

theorem mem_writerIds {v : MeWriter} (h : v ∈ p.writers) : v.id ∈ p.writerIds :=
  List.mem_map_of_mem h

theorem idsOnce_new (start : ℕ) : IdsOnce (.new start) 0 := by
  refine ⟨?_, ?_, ?_⟩
  · exact Multiset.nodup_zero
  · intro w hw
    cases hw
  · intro w hw
    cases hw

theorem IdsOnce.settled (h : IdsOnce p pending) {v : ℕ} (hv : v ∈ p.writerIds) :
    Settled p pending v := by
  refine ⟨h.lt v (Multiset.mem_add.mpr (.inl hv)), fun hpending => ?_⟩
  exact Multiset.disjoint_left.mp (Multiset.nodup_add.mp h.nodup).2.2 hv hpending

/-- Two writers in the list with one id are one. -/
theorem IdsOnce.unique (h : IdsOnce p pending) {u v : MeWriter} (hu : u ∈ p.writers)
    (hv : v ∈ p.writers) (hid : u.id = v.id) : u = v :=
  List.inj_on_of_nodup_map (Multiset.coe_nodup.mp (Multiset.nodup_add.mp h.nodup).1) hu hv hid

theorem IdsOnce.alloc (h : IdsOnce p pending) :
    IdsOnce (PoolOp.allocId.effect p) ({p.nextWriterId} + pending) := by
  have hnew : p.nextWriterId ∉ (p.writerIds : Multiset ℕ) + pending := fun hmem =>
    Nat.lt_irrefl _ (h.lt _ hmem)
  refine ⟨?_, ?_, ?_⟩
  · rw [add_left_comm, Multiset.singleton_add]
    exact Multiset.nodup_cons.mpr ⟨hnew, h.nodup⟩
  · intro w hw
    rw [add_left_comm, Multiset.singleton_add] at hw
    rcases Multiset.mem_cons.mp hw with rfl | hw
    · exact Nat.lt_succ_self _
    · exact Nat.lt_succ_of_lt (h.lt w hw)
  · intro w hw
    obtain ⟨hlt, hnot⟩ := h.draining w hw
    refine ⟨Nat.lt_succ_of_lt hlt, fun hmem => ?_⟩
    rcases Multiset.mem_add.mp hmem with hmem | hmem
    · exact hlt.ne (Multiset.mem_singleton.mp hmem)
    · exact hnot hmem

theorem writerIds_push : ((PoolOp.pushWriter w).effect p).writerIds = p.writerIds ++ [w.id] :=
  List.map_append

theorem IdsOnce.push (h : IdsOnce p ({w.id} + pending)) :
    IdsOnce ((PoolOp.pushWriter w).effect p) pending := by
  have heq : (((PoolOp.pushWriter w).effect p).writerIds : Multiset ℕ) + pending =
      (p.writerIds : Multiset ℕ) + ({w.id} + pending) := by
    rw [writerIds_push, ← Multiset.coe_add, Multiset.coe_singleton, add_assoc]
  refine ⟨heq ▸ h.nodup, fun v hv => h.lt v (heq ▸ hv), fun v hv => ?_⟩
  obtain ⟨hlt, hnot⟩ := h.draining v hv
  exact ⟨hlt, fun hmem => hnot (Multiset.mem_add.mpr (.inr hmem))⟩

/-- The list shrinks, and only writers in it begin to drain. -/
structure Shrinks (p p' : MePool) : Prop where
  writers : p'.writers.Sublist p.writers
  next : p'.nextWriterId = p.nextWriterId
  draining : ∀ v, p'.draining v = true → p.draining v = true ∨ v ∈ p.writerIds

theorem shrinks_refl (p : MePool) : Shrinks p p := ⟨.refl _, rfl, fun _ h => .inl h⟩

theorem IdsOnce.shrink (h : IdsOnce p pending) (hp : Shrinks p p') {pending' : Multiset ℕ}
    (hle : pending' ≤ pending) : IdsOnce p' pending' := by
  have hle' : (p'.writerIds : Multiset ℕ) + pending' ≤ (p.writerIds : Multiset ℕ) + pending :=
    add_le_add (Multiset.coe_le.mpr (hp.writers.map MeWriter.id).subperm) hle
  refine ⟨Multiset.nodup_of_le hle' h.nodup, fun v hv => ?_, fun v hv => ?_⟩
  · rw [hp.next]
    exact h.lt v (Multiset.mem_of_le hle' hv)
  · rw [hp.next]
    have hsettled : Settled p pending v := (hp.draining v hv).elim (h.draining v) h.settled
    exact ⟨hsettled.1, fun hmem => hsettled.2 (Multiset.mem_of_le hle hmem)⟩

/-! ### One step of a task -/

/-- What a step does to the ids: it allocates one, adds the writer its frame was to push, or shrinks the
    list. `held` and `held'` are what its frames are to push before and after. -/
inductive IdStep (p : MePool) (held held' : Multiset ℕ) (p' : MePool) : Prop
  | alloc (hheld : held = 0) (hheld' : held' = {p.nextWriterId})
    (hpool : p' = PoolOp.allocId.effect p)
  | push (w : MeWriter) (hheld : held = {w.id}) (hheld' : held' = 0)
    (hpool : p' = (PoolOp.pushWriter w).effect p)
  | shrink (hheld : held' ≤ held) (hpool : Shrinks p p')

variable {held held' rest : Multiset ℕ}

theorem IdStep.idsOnce (hstep : IdStep p held held' p') (h : IdsOnce p (held + rest)) :
    IdsOnce p' (held' + rest) := by
  cases hstep with
  | alloc hheld hheld' hpool =>
    rw [hheld, zero_add] at h
    rw [hheld', hpool]
    exact h.alloc
  | push w hheld hheld' hpool =>
    rw [hheld] at h
    rw [hheld', hpool, zero_add]
    exact h.push
  | shrink hheld hpool => exact h.shrink hpool (add_le_add_left hheld rest)

/-- What is settled stays settled. -/
theorem IdStep.settled (hstep : IdStep p held held' p') {w : ℕ} (h : Settled p (held + rest) w) :
    Settled p' (held' + rest) w := by
  obtain ⟨hlt, hnot⟩ := h
  rw [Multiset.mem_add, not_or] at hnot
  rw [Settled, Multiset.mem_add, not_or]
  cases hstep with
  | alloc hheld hheld' hpool =>
    rw [hheld', hpool, Multiset.mem_singleton]
    exact ⟨Nat.lt_succ_of_lt hlt, hlt.ne, hnot.2⟩
  | push v hheld hheld' hpool =>
    rw [hheld', hpool]
    exact ⟨hlt, Multiset.notMem_zero w, hnot.2⟩
  | shrink hheld hpool =>
    rw [hpool.next]
    exact ⟨hlt, fun hmem => hnot.1 (Multiset.mem_of_le hheld hmem), hnot.2⟩

/-- A writer that is in the list under a settled id was there before. -/
theorem IdStep.mem_writers (hstep : IdStep p held held' p') {v : MeWriter}
    (hsettled : Settled p (held + rest) v.id) (hv : v ∈ p'.writers) : v ∈ p.writers := by
  cases hstep with
  | alloc hheld hheld' hpool => rwa [hpool] at hv
  | push w hheld hheld' hpool =>
    rw [hpool] at hv
    rcases List.mem_append.mp hv with hv | hv
    · exact hv
    · obtain rfl := List.mem_singleton.mp hv
      refine absurd ?_ hsettled.2
      rw [hheld]
      exact Multiset.mem_add.mpr (.inl (Multiset.mem_singleton_self _))
  | shrink hheld hpool => exact hpool.writers.subset hv

/-! ### Live writers -/

/-- A writer is live when it gets into the list. -/
theorem live_push (h : IdsOnce p ({w.id} + pending)) :
    ((PoolOp.pushWriter w).effect p).live = p.live ++ [w] := by
  have hdraining : p.draining w.id = false := by
    refine Bool.eq_false_iff.mpr fun hd => (h.draining w.id hd).2 ?_
    exact Multiset.mem_add.mpr (.inl (Multiset.mem_singleton_self _))
  simp [MePool.live, PoolOp.effect, List.filter_append, hdraining]

theorem filter_not_sublist_eraseP {α : Type} (q : α → Bool) (l : List α) :
    (l.filter (fun a => !q a)).Sublist (l.eraseP q) := by
  induction l with
  | nil => exact .slnil
  | cons a l ih =>
    cases hq : q a with
    | true =>
      rw [List.eraseP_cons_of_pos hq, List.filter_cons_of_neg (by simp [hq])]
      exact List.filter_sublist
    | false =>
      rw [List.eraseP_cons_of_neg (by simp [hq]), List.filter_cons_of_pos (by simp [hq])]
      exact ih.cons_cons a

/-- The live writers that are kept in the list, and do not begin to drain, stay live. -/
theorem live_filter_sublist {keep : MeWriter → Bool}
    (hw : (p.writers.filter keep).Sublist p'.writers)
    (hd : ∀ v, keep v = true → p.draining v.id = false → p'.draining v.id = false) :
    (p.live.filter keep).Sublist p'.live := by
  have heq : p.live.filter keep =
      (p.writers.filter keep).filter (fun v => keep v && !p.draining v.id) := by
    rw [MePool.live, List.filter_filter, List.filter_filter]
    exact List.filter_congr fun v _ => by cases keep v <;> simp
  rw [heq]
  refine (hw.filter _).trans (List.monotone_filter_right _ fun v hv => ?_)
  obtain ⟨hkeep, hlive⟩ := Bool.and_eq_true_iff.mp hv
  simpa using hd v hkeep (by simpa using hlive)

/-- The writer an operation removes or drains. -/
def PoolOp.target : PoolOp → Option ℕ
  | .removeWriter v => some v.id
  | .retain w | .markDraining w => some w
  | _ => none

/-- The writers that are left alone. -/
def spared (target : Option ℕ) (v : MeWriter) : Bool := target ≠ some v.id

theorem spared_iff {target : Option ℕ} {v : MeWriter} :
    spared target v = true ↔ target ≠ some v.id := by
  simp [spared]

theorem spared_some (w : ℕ) : spared (some w) = fun v => !decide (v.id = w) := by
  funext v
  simp [spared, eq_comm]

theorem live_removeWriter (v : MeWriter) (p : MePool) :
    (p.live.filter (spared (some v.id))).Sublist ((PoolOp.removeWriter v).effect p).live := by
  refine live_filter_sublist ?_ fun _ _ h => h
  rw [spared_some]
  exact filter_not_sublist_eraseP (fun u : MeWriter => decide (u.id = v.id)) p.writers

theorem live_retain (w : ℕ) (p : MePool) :
    (p.live.filter (spared (some w))).Sublist ((PoolOp.retain w).effect p).live := by
  refine live_filter_sublist ?_ fun _ _ h => h
  simp [spared_some, PoolOp.effect]

theorem live_markDraining (w : ℕ) (p : MePool) :
    (p.live.filter (spared (some w))).Sublist ((PoolOp.markDraining w).effect p).live := by
  refine live_filter_sublist List.filter_sublist fun v hv hlive => ?_
  have hne : v.id ≠ w := fun h => spared_iff.mp hv (congrArg some h.symm)
  exact (Function.update_of_ne hne ..).trans hlive

theorem Covered.of_spared {target : Option ℕ} (h : ∃ v ∈ p.live, v.addr ∈ eps ∧ target ≠ some v.id)
    (hlive : (p.live.filter (spared target)).Sublist p'.live) : Covered p' eps := by
  obtain ⟨v, hv, hmem, hne⟩ := h
  exact ⟨v, hlive.subset (List.mem_filter.mpr ⟨hv, spared_iff.mpr hne⟩), hmem⟩

end

end MtProxy.MiddleProxy
