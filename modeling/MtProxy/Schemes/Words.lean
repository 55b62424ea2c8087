import Mathlib.Tactic

/-! Splitting at separators: the words of a text are its longest runs without one, and words joined by
    single separators are split into the same words again.

        "TCP4 203.0.113.7  80"  ──▶  TCP4 │ 203.0.113.7 │ 80 -/

namespace Schemes

section
variable {α : Type*} (sep : α → Bool)

/-- The words of a text, the first of them already begun. -/
def wordsFrom : List α → List α → List (List α)
  | cur, [] => if cur.isEmpty then [] else [cur]
  | cur, c :: cs =>
    if sep c then (if cur.isEmpty then wordsFrom [] cs else cur :: wordsFrom [] cs)
    else wordsFrom (cur ++ [c]) cs

def words (text : List α) : List (List α) := wordsFrom sep [] text

variable {sep} {w : List α}

/-- What can be a word. -/
def IsWord (sep : α → Bool) (w : List α) : Prop := w ≠ [] ∧ ∀ c ∈ w, sep c = false

theorem wordsFrom_append (hw : ∀ c ∈ w, sep c = false) (cur rest : List α) :
    wordsFrom sep cur (w ++ rest) = wordsFrom sep (cur ++ w) rest := by
  induction w generalizing cur with
  | nil => rw [List.nil_append, List.append_nil]
  | cons c w ih =>
    obtain ⟨hc, hw⟩ := List.forall_mem_cons.mp hw
    rw [List.cons_append, wordsFrom, hc, if_neg (by simp), ih hw, List.append_assoc]
    rfl

theorem words_word (hw : IsWord sep w) : words sep w = [w] := by
  have h := wordsFrom_append hw.2 [] []
  rw [List.append_nil, List.nil_append] at h
  rw [words, h, wordsFrom, if_neg (by simpa using hw.1)]

/-- A word ends at the separator behind it. -/
theorem words_cons {s : α} (hs : sep s = true) (hw : IsWord sep w) (rest : List α) :
    words sep (w ++ s :: rest) = w :: words sep rest := by
  rw [words, wordsFrom_append hw.2, List.nil_append, wordsFrom, hs, if_pos rfl,
    if_neg (by simpa using hw.1), words]

end

end Schemes
