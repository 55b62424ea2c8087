import MtProxy.Schemes.Interleave

/-! What the tasks hold. A frame holds some keys, each once or more often; `holdings` are those of all
    frames. A set behind a lock is accounted for if its elements are exactly the keys held, each once:

        S.val = holdings held frames

    Taking a key that is not in the set and giving one back keep this, and no key has two holders. -/

namespace Schemes

section
variable {F κ : Type*} {held : F → Multiset κ} {f : F} {fs : List F} {R frames : Multiset F}

def holdings (held : F → Multiset κ) (frames : Multiset F) : Multiset κ := frames.bind held

@[simp] theorem holdings_cons : holdings held (f ::ₘ R) = held f + holdings held R :=
  Multiset.cons_bind ..

@[simp] theorem holdings_nil_add : holdings held (([] : List F) + R) = holdings held R := by simp

@[simp] theorem holdings_cons_add :
    holdings held ((f :: fs : List F) + R) =
      held f + holdings held ((fs : Multiset F) + R) := by
  rw [← Multiset.cons_coe, Multiset.cons_add, holdings_cons]

theorem holdings_add (gs : List F) :
    holdings held ((gs : Multiset F) + R) = (gs.map held).sum + holdings held R := by
  induction gs with
  | nil => simp
  | cons g gs ih => rw [holdings_cons_add, ih, List.map_cons, List.sum_cons, add_assoc]

theorem holdings_eq_zero (h : ∀ f ∈ frames, held f = 0) : holdings held frames = 0 := by
  rw [holdings, Multiset.bind_congr h, Multiset.bind_zero]

/-- The frames of a kind that holds `k` are no more than the holdings of `k`. -/
theorem countP_le_count_holdings [DecidableEq κ] {q : F → Prop} [DecidablePred q] {k : κ}
    (h : ∀ f, q f → k ∈ held f) (frames : Multiset F) :
    frames.countP q ≤ (holdings held frames).count k := by
  induction frames using Multiset.induction with
  | empty => simp
  | cons f R ih =>
    rw [holdings_cons, Multiset.countP_cons, Multiset.count_add]
    split
    · next hq =>
      have hpos := Multiset.one_le_count_iff_mem.mpr (h f hq)
      omega
    · omega

variable [DecidableEq κ] {S K : Finset κ} {k : κ} {rest : Multiset κ}

theorem insert_val_of_held (h : S.val = rest) (hk : k ∉ S) : (insert k S).val = {k} + rest := by
  rw [Finset.insert_val_of_notMem hk, h, Multiset.singleton_add]

theorem union_val_of_held (h : S.val = rest) (hK : Disjoint K S) : (K ∪ S).val = K.val + rest := by
  rw [← Finset.disjUnion_eq_union K S hK, Finset.disjUnion_val, h]

theorem erase_val_of_held (h : S.val = {k} + rest) : (S.erase k).val = rest := by
  rw [Finset.erase_val, h, Multiset.singleton_add, Multiset.erase_cons_head]

theorem sdiff_val_of_held (h : S.val = K.val + rest) : (S \ K).val = rest := by
  rw [Finset.sdiff_val, h, add_tsub_cancel_left]

/-- A set that is accounted for has no key with two holders. -/
theorem countP_le_one_of_held {q : F → Prop} [DecidablePred q] (hq : ∀ f, q f → k ∈ held f)
    (h : S.val = holdings held frames) : frames.countP q ≤ 1 := by
  refine (countP_le_count_holdings hq frames).trans ?_
  rw [← h]
  exact Multiset.nodup_iff_count_le_one.mp S.nodup k

end

end Schemes
