import MtProxy.MiddleProxy.Routing

/-! Which writer a client gets without waiting. The candidates are sorted by their class (contour, stale,
    degraded), but the scan starts at `rr % n`, anywhere in that order:

        active │ active │ warm │ draining         rr % 4 = 3: the draining writer is tried first
                                 ▲

    The writer is of the best class there is exactly when that start does not lie behind all the usable
    candidates of this class. -/

namespace MtProxy.MiddleProxy
open Schemes Reinit

/-! ### The order -/

section
variable {pool : SelectionPool} {writers : List MeWriter}

theorem preferenceClass_le_of_sortKey {v w : MeWriter} (h : pool.sortKey v ≤ pool.sortKey w) :
    pool.preferenceClass v ≤ pool.preferenceClass w :=
  Prod.Lex.monotone_fst _ _ h

theorem sortKey_le_of_deterministicKey {v w : MeWriter}
    (h : pool.deterministicKey v ≤ pool.deterministicKey w) : pool.sortKey v ≤ pool.sortKey w :=
  Prod.Lex.monotone_fst _ _ h

/-- Both sorts put the better classes first. -/
theorem sortCandidates_sorted (candidates : List (Fin writers.length)) :
    (pool.sortCandidates candidates).Pairwise
      (fun i j => pool.preferenceClass (writers.get i) ≤ pool.preferenceClass (writers.get j)) := by
  rw [SelectionPool.sortCandidates]
  split_ifs with hmode
  · refine (pairwise_insertionSort_key (fun i => pool.deterministicKey (writers.get i)) _).imp ?_
    intro i j hle
    exact preferenceClass_le_of_sortKey (sortKey_le_of_deterministicKey hle)
  · refine (pairwise_insertionSort_key (fun i => pool.sortKey (writers.get i)) _).imp ?_
    intro i j hle
    exact preferenceClass_le_of_sortKey hle

/-! ### The scan -/

/-- The candidate accepts new bindings, and its channel the payload. -/
def Usable (pool : SelectionPool) (channel : ℕ → ChannelState) {writers : List MeWriter}
    (i : Fin writers.length) : Bool :=
  pool.writerAcceptsNewBinding (writers.get i) && channel (writers.get i).id == .ready

theorem scanWriters_bound {n : ℕ} (accepts : Fin n → Bool) (channel : Fin n → ChannelState)
    (todo : List (Fin n)) (fallback : Option (Fin n)) :
    (scanWriters accepts channel todo fallback).bound =
      todo.find? (fun i => accepts i && channel i == .ready) := by
  induction todo generalizing fallback with
  | nil => rfl
  | cons idx todo ih =>
    rw [scanWriters, List.find?_cons]
    cases haccepts : accepts idx with
    | false => exact ih fallback
    | true =>
      cases hchannel : channel idx with
      | ready => rfl
      | full => exact ih _
      | closed => exact ih fallback

theorem tryOrder_eq_rotate (candidates : List (Fin writers.length)) :
    pool.tryOrder candidates = (pool.sortCandidates candidates).rotate pool.rr.toNat := by
  rw [SelectionPool.tryOrder, cycleFrom_eq_rotate, List.rotate_mod]

variable {channel : ℕ → ChannelState}

/-- The answers of a scan in a pool and channels that stay as they are. -/
def scanAnswers (pool : SelectionPool) (channel : ℕ → ChannelState) {writers : List MeWriter} :
    List (Fin writers.length) → List (SelectionPool × SelectAnswer)
  | [] => []
  | idx :: todo =>
    if pool.writerAcceptsNewBinding (writers.get idx) then
      (pool, .channel (channel (writers.get idx).id)) ::
        if channel (writers.get idx).id = .ready then [] else scanAnswers pool channel todo
    else (pool, .go) :: scanAnswers pool channel todo

/-- What the call does in such a scan. -/
theorem run_scan (s : SelectState) (todo : List (Fin writers.length))
    (fallback : Option (Fin writers.length)) :
    run SelectState.step { s with pc := .scan writers todo fallback } (scanAnswers pool channel todo) =
      some { s with pc :=
        let result := scanWriters (fun i => pool.writerAcceptsNewBinding (writers.get i))
          (fun i => channel (writers.get i).id) todo fallback
        match result.bound with
        | some i => .bound (writers.get i)
        | none => .scan writers [] result.fallbackBlockingIdx } := by
  induction todo generalizing fallback with
  | nil => rfl
  | cons idx todo ih =>
    rw [scanAnswers, scanWriters]
    cases haccepts : pool.writerAcceptsNewBinding (writers.get idx) with
    | false =>
      rw [if_neg Bool.false_ne_true, if_neg Bool.false_ne_true, run]
      simp only [SelectState.step, haccepts, Bool.false_eq_true, if_false, SelectState.goto,
        Option.bind_some]
      exact ih fallback
    | true =>
      rw [if_pos rfl, if_pos rfl, run]
      cases hchannel : channel (writers.get idx).id with
      | ready =>
        simp only [SelectState.step, haccepts, if_true, SelectState.goto, Option.bind_some]
        rfl
      | full =>
        simp only [SelectState.step, haccepts, if_true, SelectState.goto, Option.bind_some,
          reduceCtorEq, if_false]
        exact ih _
      | closed =>
        simp only [SelectState.step, haccepts, if_true, SelectState.goto, Option.bind_some,
          reduceCtorEq, if_false]
        exact ih fallback

end

/-! ### Preference -/

/-- The scan does not start behind the best of the usable candidates. -/
def StartsBeforeBest (pool : SelectionPool) (channel : ℕ → ChannelState) {writers : List MeWriter}
    (candidates : List (Fin writers.length)) : Prop :=
  GoodStart (fun i => pool.preferenceClass (writers.get i)) (Usable pool channel)
    (pool.sortCandidates candidates) pool.rr.toNat

/-- No usable candidate is of a better class than the writer bound to, if and only if the scan does not
    start behind the best of them. -/
theorem preference_respected_iff (pool : SelectionPool) (channel : ℕ → ChannelState)
    {writers : List MeWriter} (candidates : List (Fin writers.length)) :
    (∀ w, (selectWriter pool channel candidates).bound = some w →
      ∀ v ∈ candidates, Usable pool channel v = true →
        ¬ pool.preferenceClass (writers.get v) < pool.preferenceClass (writers.get w)) ↔
      StartsBeforeBest pool channel candidates := by
  have hmem (v : Fin writers.length) : v ∈ candidates ↔ v ∈ pool.sortCandidates candidates := by
    have htry : v ∈ pool.tryOrder candidates ↔ v ∈ candidates := mem_tryOrder
    rw [← htry, tryOrder_eq_rotate, List.mem_rotate]
  have hbound : (selectWriter pool channel candidates).bound =
      ((pool.sortCandidates candidates).rotate pool.rr.toNat).find? (Usable pool channel) := by
    rw [← tryOrder_eq_rotate]
    exact scanWriters_bound _ _ _ _
  rw [hbound, StartsBeforeBest,
    ← rotation_best_iff (sortCandidates_sorted candidates) pool.rr.toNat]
  simp only [hmem]

/-- A writer of the current generation, and a draining one that may still be bound to. -/
def drainingPool : SelectionPool :=
  { oneWriterPool ⟨1, loopback 2⟩ with
    writers := [⟨1, loopback 2⟩, ⟨2, loopback 2⟩]
    generationOf := fun id => if id = 1 then 1 else 0
    flags := fun id => if id = 1 then freshFlags else ⟨.draining, false, true, 0, true⟩
    bindStaleMode := .always
    rr := 1 }

/-- The counter points at the draining writer, and the call binds to it. -/
theorem draining_preferred :
    let candidates := drainingPool.candidateIndicesForDc drainingPool.writers 2 false
    (selectWriter drainingPool (fun _ => .ready) candidates).bound = some ⟨1, by decide⟩ ∧
      ⟨0, by decide⟩ ∈ candidates ∧
        Usable drainingPool (fun _ => .ready) (⟨0, by decide⟩ : Fin drainingPool.writers.length) = true ∧
          drainingPool.preferenceClass ⟨1, loopback 2⟩ <
            drainingPool.preferenceClass ⟨2, loopback 2⟩ := by
  decide

end MtProxy.MiddleProxy
