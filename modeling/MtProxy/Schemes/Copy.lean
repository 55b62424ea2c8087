import MtProxy.Schemes.Run

/-! A task that copies a stream: it reads a chunk, writes all of it, piece by piece, and reads again.

        source ──read──▶ hand ──write──▶ delivered

    Reads and writes give as much as they want, and may fail. Whatever they do, what was delivered, what is
    in hand and what is still to come are the stream; a task that has ended had its source at the end, or
    a read or a write of it has failed. -/

namespace Schemes

/-- How the loop was left. -/
inductive CopyEnd where
  | eof | readFailed | writeFailed
  deriving DecidableEq

/-- `hand` is what was read and not yet written; nothing in hand means that the next step is a read. -/
structure Copy (α : Type*) where
  source : List α
  hand : List α
  delivered : List α
  ended : Option CopyEnd
  deriving DecidableEq

inductive CopyMove where
  | read (n : ℕ)
  | readFails
  | write (n : ℕ)
  | writeFails
  deriving DecidableEq

def CopyMove.Fails (m : CopyMove) : Prop := m = .readFails ∨ m = .writeFails

namespace Copy

section
variable {α : Type*} (buffer : ℕ)

/-- A read of nothing is the end of the source. -/
def step (c : Copy α) (m : CopyMove) : Option (Copy α) :=
  if c.ended.isSome then none
  else match m with
    | .read n =>
      if c.hand = [] ∧ n ≤ buffer ∧ n ≤ c.source.length ∧ (n = 0 → c.source = []) then
        if n = 0 then some { c with ended := some .eof }
        else some { c with source := c.source.drop n, hand := c.source.take n }
      else none
    | .readFails => if c.hand = [] then some { c with ended := some .readFailed } else none
    | .write n =>
      if 0 < n ∧ n ≤ c.hand.length then
        some { c with hand := c.hand.drop n, delivered := c.delivered ++ c.hand.take n }
      else none
    | .writeFails => if c.hand ≠ [] then some { c with ended := some .writeFailed } else none

/-- All that there is to copy. -/
def whole (c : Copy α) : List α := c.delivered ++ (c.hand ++ c.source)

/-- A task that has come to the end of its source has nothing left. -/
def Complete (c : Copy α) : Prop := c.ended = some .eof → c.hand = [] ∧ c.source = []

/-- What is left to do: every byte is read and written, and the end is read. -/
def work (c : Copy α) : ℕ :=
  if c.ended.isSome then 0 else 2 * c.source.length + c.hand.length + 1

variable {buffer} {c c' : Copy α} {m : CopyMove}

/-- What a step can do. -/
theorem step_cases (h : c.step buffer m = some c') :
    c.ended = none ∧
      ((∃ n, 0 < n ∧ n ≤ c.source.length ∧ c.hand = [] ∧
          c' = { c with source := c.source.drop n, hand := c.source.take n }) ∨
        (∃ n, 0 < n ∧ n ≤ c.hand.length ∧
          c' = { c with hand := c.hand.drop n, delivered := c.delivered ++ c.hand.take n }) ∨
        (∃ e, c' = { c with ended := some e } ∧ (e = .eof → c.hand = [] ∧ c.source = []))) := by
  unfold step at h
  by_cases hended : c.ended.isSome
  · rw [if_pos hended] at h
    cases h
  rw [if_neg hended] at h
  refine ⟨by simpa using hended, ?_⟩
  cases m with
  | read n =>
    dsimp only at h
    split at h
    · rename_i hread
      split at h
      · rename_i hn
        obtain rfl := Option.some.inj h
        exact .inr (.inr ⟨.eof, rfl, fun _ => ⟨hread.1, hread.2.2.2 hn⟩⟩)
      · rename_i hn
        obtain rfl := Option.some.inj h
        exact .inl ⟨n, Nat.pos_of_ne_zero hn, hread.2.2.1, hread.1, rfl⟩
    · cases h
  | readFails =>
    dsimp only at h
    split at h
    · obtain rfl := Option.some.inj h
      exact .inr (.inr ⟨.readFailed, rfl, by simp⟩)
    · cases h
  | write n =>
    dsimp only at h
    split at h
    · rename_i hn
      obtain rfl := Option.some.inj h
      exact .inr (.inl ⟨n, hn.1, hn.2, rfl⟩)
    · cases h
  | writeFails =>
    dsimp only at h
    split at h
    · obtain rfl := Option.some.inj h
      exact .inr (.inr ⟨.writeFailed, rfl, by simp⟩)
    · cases h

theorem step_whole (h : c.step buffer m = some c') : c'.whole = c.whole := by
  obtain ⟨-, ⟨n, -, -, hhand, rfl⟩ | ⟨n, -, -, rfl⟩ | ⟨e, rfl, -⟩⟩ := step_cases h
  · simp [whole, hhand]
  · simp only [whole, List.append_assoc]
    rw [← List.append_assoc (c.hand.take n), List.take_append_drop]
  · rfl

theorem step_complete (h : c.step buffer m = some c') : c'.Complete := by
  obtain ⟨hended, ⟨n, -, -, -, rfl⟩ | ⟨n, -, -, rfl⟩ | ⟨e, rfl, heof⟩⟩ := step_cases h
  · intro hdone
    cases hended.symm.trans hdone
  · intro hdone
    cases hended.symm.trans hdone
  · intro hdone
    exact heof (Option.some.inj hdone)

theorem step_work (h : c.step buffer m = some c') : c'.work < c.work := by
  obtain ⟨hended, ⟨n, hn, hlen, hhand, rfl⟩ | ⟨n, hn, hlen, rfl⟩ | ⟨e, rfl, -⟩⟩ := step_cases h
  · simp [work, hended, hhand, List.length_take, List.length_drop]
    omega
  · simp [work, hended, List.length_drop]
    omega
  · simp [work, hended]

theorem delivered_prefix (c : Copy α) : c.delivered <+: c.whole := List.prefix_append _ _

/-- All has been delivered if the end of the source was read. -/
theorem Complete.delivered (h : c.Complete) (heof : c.ended = some .eof) : c.delivered = c.whole := by
  obtain ⟨hhand, hsource⟩ := h heof
  simp [whole, hhand, hsource]

/-- A task that has not ended can read or write, and need not fail. -/
theorem exists_step (hbuffer : 0 < buffer) (h : c.ended = none) :
    ∃ m c', ¬ m.Fails ∧ c.step buffer m = some c' ∧ (c'.ended = none ∨ c'.ended = some .eof) := by
  by_cases hhand : c.hand = []
  · by_cases hsource : c.source = []
    · exact ⟨.read 0, { c with ended := some .eof }, by simp [CopyMove.Fails],
        by simp [step, h, hhand, hsource], .inr rfl⟩
    · have hpos : 0 < c.source.length := List.length_pos_of_ne_nil hsource
      have hfits : c.hand = [] ∧ 1 ≤ buffer ∧ 1 ≤ c.source.length ∧ (1 = 0 → c.source = []) :=
        ⟨hhand, hbuffer, hpos, by simp⟩
      refine ⟨.read 1, { c with source := c.source.drop 1, hand := c.source.take 1 },
        by simp [CopyMove.Fails], ?_, .inl h⟩
      simp only [step, h, Option.isSome_none, Bool.false_eq_true, if_false, if_pos hfits]
      rw [if_neg Nat.one_ne_zero]
  · have hpos : 0 < c.hand.length := List.length_pos_of_ne_nil hhand
    refine ⟨.write 1, { c with hand := c.hand.drop 1, delivered := c.delivered ++ c.hand.take 1 },
      by simp [CopyMove.Fails], ?_, .inl h⟩
    simp only [step, h, Option.isSome_none, Bool.false_eq_true, if_false]
    rw [if_pos ⟨Nat.one_pos, hpos⟩]

/-- It can copy all that is left. -/
theorem exists_completion (hbuffer : 0 < buffer) (h : c.ended = none) :
    ∃ ms c', (∀ m ∈ ms, ¬ m.Fails) ∧ run (step buffer) c ms = some c' ∧ c'.delivered = c.whole := by
  induction hwork : c.work using Nat.strong_induction_on generalizing c with
  | _ n ih =>
    obtain ⟨m, c₁, hm, hstep, hended⟩ := exists_step hbuffer h
    rcases hended with hended | heof
    · have hless := step_work hstep
      obtain ⟨ms, c₂, hms, hrun, hdelivered⟩ := ih c₁.work (hwork ▸ hless) hended rfl
      refine ⟨m :: ms, c₂, ?_, by simp [run, hstep, hrun], hdelivered.trans (step_whole hstep)⟩
      intro m' hm'
      rcases List.mem_cons.mp hm' with rfl | hm'
      · exact hm
      · exact hms m' hm'
    · refine ⟨[m], c₁, by simpa using hm, by simp [run, hstep], ?_⟩
      rw [(step_complete hstep).delivered heof, step_whole hstep]

end

end Copy

end Schemes
