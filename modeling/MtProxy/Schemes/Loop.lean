import Mathlib.Tactic

/-! Total loops. A `loop { .. }` of an imperative program is a body `step` that either goes round
    again with a new state or leaves with a result. With a natural number that every further round
    makes smaller the loop is a total function, computed by structural recursion on that number.

        step s = inl s'  ──▶  go round again with s'   (μ s' < μ s)
        step s = inr b   ──▶  leave with b

    `loop_inl` and `loop_inr` unfold one round, `loop_induct` is the induction over the rounds and
    `loop_invariant` the rule for a loop invariant. `loop_extend` is about a loop that is handed more
    input after it has stopped: it does what it would have done with all the input at once. -/

namespace Schemes

section
variable {σ β : Type*} (step : σ → σ ⊕ β) (μ : σ → ℕ)
  (hμ : ∀ s s', step s = .inl s' → μ s' < μ s)

/-- The rounds of the loop, `n` bounding how many are left. -/
def loopAux : (n : ℕ) → (s : σ) → μ s < n → β
  | 0, _, h => absurd h (Nat.not_lt_zero _)
  | n + 1, s, h =>
    match hs : step s with
    | .inl s' => loopAux n s' (lt_of_lt_of_le (hμ s s' hs) (Nat.lt_succ_iff.mp h))
    | .inr b => b

/-- The result of the loop started in `s`. -/
def loop (s : σ) : β := loopAux step μ hμ (μ s + 1) s (Nat.lt_succ_self _)

/-- The bound does not matter as long as it is one. -/
theorem loopAux_irrel : ∀ (n m : ℕ) (s : σ) (hn : μ s < n) (hm : μ s < m),
    loopAux step μ hμ n s hn = loopAux step μ hμ m s hm
  | 0, _, _, hn, _ => absurd hn (Nat.not_lt_zero _)
  | _ + 1, 0, _, _, hm => absurd hm (Nat.not_lt_zero _)
  | n + 1, m + 1, s, hn, hm => by
    simp only [loopAux]
    split
    · exact loopAux_irrel n m _ _ _
    · rfl

theorem loop_inl {s s' : σ} (hs : step s = .inl s') : loop step μ hμ s = loop step μ hμ s' := by
  rw [loop, loopAux]
  split
  · rename_i t ht
    obtain rfl : t = s' := Sum.inl.inj (ht.symm.trans hs)
    exact loopAux_irrel step μ hμ _ _ _ _ _
  · rename_i b hb
    exact absurd (hb.symm.trans hs) (by simp)

theorem loop_inr {s : σ} {b : β} (hs : step s = .inr b) : loop step μ hμ s = b := by
  rw [loop, loopAux]
  split
  · rename_i t ht
    exact absurd (ht.symm.trans hs) (by simp)
  · rename_i c hc
    exact Sum.inr.inj (hc.symm.trans hs)

/-- Induction over the rounds of the loop: `P s b` relates a start state with the result. -/
theorem loop_induct {P : σ → β → Prop} (done : ∀ s b, step s = .inr b → P s b)
    (next : ∀ s s' b, step s = .inl s' → P s' b → P s b) (s : σ) : P s (loop step μ hμ s) := by
  induction h : μ s using Nat.strong_induction_on generalizing s with
  | _ n ih =>
    cases hs : step s with
    | inl s' =>
      rw [loop_inl step μ hμ hs]
      exact next s s' _ hs (ih (μ s') (h ▸ hμ s s' hs) s' rfl)
    | inr b =>
      rw [loop_inr step μ hμ hs]
      exact done s b hs

/-- Loop invariant: `I` holds at the head of every round, `Q` of the result. -/
theorem loop_invariant {I : σ → Prop} {Q : β → Prop}
    (next : ∀ s s', I s → step s = .inl s' → I s') (done : ∀ s b, I s → step s = .inr b → Q b)
    (s : σ) (hs : I s) : Q (loop step μ hμ s) := by
  refine loop_induct step μ hμ (P := fun s b => I s → Q b) ?_ ?_ s hs
  · exact fun s b hb hI => done s b hI hb
  · exact fun s s' b hs' ih hI => ih (next s s' hI hs')

/-- Where a round that goes on also goes on from the extended state, the loop started in `ext s` can
    be joined where the one started in `s` leaves off. -/
theorem loop_extend (ext : σ → σ) (hext : ∀ s s', step s = .inl s' → step (ext s) = .inl (ext s'))
    (s : σ) : ∃ t, step t = .inr (loop step μ hμ s) ∧
      loop step μ hμ (ext s) = loop step μ hμ (ext t) := by
  refine loop_induct step μ hμ (P := fun s b => ∃ t, step t = .inr b ∧
    loop step μ hμ (ext s) = loop step μ hμ (ext t)) ?_ ?_ s
  · intro s b hs
    exact ⟨s, hs, rfl⟩
  · intro s s' b hs ih
    obtain ⟨t, ht, hloop⟩ := ih
    exact ⟨t, ht, (loop_inl step μ hμ (hext s s' hs)).trans hloop⟩

end

/-! ### Rounds that can fail -/

section
variable {σ β : Type*}

/-- A round that fails ends the loop without a result. -/
def roundOf : Option (σ ⊕ β) → σ ⊕ Option β
  | none => .inr none
  | some (.inl s) => .inl s
  | some (.inr b) => .inr (some b)

theorem roundOf_inl {r : Option (σ ⊕ β)} {s : σ} (h : roundOf r = .inl s) : r = some (.inl s) := by
  match r, h with
  | some (.inl _), h => rw [Sum.inl.inj h]

variable (step : σ → Option (σ ⊕ β)) (μ : σ → ℕ)
  (hμ : ∀ s s', step s = some (.inl s') → μ s' < μ s)

/-- The loop whose rounds can fail: `none` if one of them does. -/
def tryLoop (s : σ) : Option β :=
  loop (fun s => roundOf (step s)) μ (fun s s' h => hμ s s' (roundOf_inl h)) s

theorem tryLoop_inl {s s' : σ} (hs : step s = some (.inl s')) :
    tryLoop step μ hμ s = tryLoop step μ hμ s' :=
  loop_inl _ μ _ (congrArg roundOf hs)

theorem tryLoop_inr {s : σ} {b : β} (hs : step s = some (.inr b)) :
    tryLoop step μ hμ s = some b :=
  loop_inr _ μ _ (congrArg roundOf hs)

/-- Where no round fails, the loop has a result, and induction over the rounds is about it. -/
theorem tryLoop_induct {P : σ → β → Prop} (total : ∀ s, (step s).isSome = true)
    (done : ∀ s b, step s = some (.inr b) → P s b)
    (next : ∀ s s' b, step s = some (.inl s') → P s' b → P s b) (s : σ) :
    ∃ b, tryLoop step μ hμ s = some b ∧ P s b := by
  refine loop_induct _ μ _ (P := fun s (r : Option β) => ∃ b, r = some b ∧ P s b) ?_ ?_ s
  · intro s r hr
    obtain ⟨t, ht⟩ := Option.isSome_iff_exists.mp (total s)
    rw [ht] at hr
    cases t with
    | inl s' => cases hr
    | inr b =>
      obtain rfl := Sum.inr.inj hr
      exact ⟨b, rfl, done s b ht⟩
  · rintro s s' r hs ⟨b, rfl, hb⟩
    exact ⟨b, rfl, next s s' b (roundOf_inl hs) hb⟩

/-- Where no round fails, the loop has a result. -/
theorem tryLoop_isSome (total : ∀ s, (step s).isSome = true) (s : σ) :
    (tryLoop step μ hμ s).isSome = true := by
  obtain ⟨b, hb, -⟩ := tryLoop_induct step μ hμ (P := fun _ _ => True) total
    (fun _ _ _ => trivial) (fun _ _ _ _ _ => trivial) s
  rw [hb, Option.isSome_some]

end

end Schemes
