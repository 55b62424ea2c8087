import Mathlib.Tactic

/-! Runs of a transition system. `step s e` is the state after the label `e`, or nothing when `e` is
    not possible in `s`; a run is a list of labels.

        s ──e₁──▶ s₁ ──e₂──▶ ⋯ ──eₙ──▶ sₙ        run s [e₁, ⋯, eₙ] = some sₙ

    `run_invariant` carries an invariant along a run. `RunMeets G` is the run all of whose steps meet
    a condition `G` on the state before the step and the label; `runMeets_invariant` is the invariant
    rule under such a condition, `runMeets_imp` the rule for what the steps of such runs meet besides, and
    `runMeets_iff` the case where the condition is exact. `run_history` is the rule for invariants that
    mention what the run has done so far. -/

namespace Schemes

section
variable {σ ε : Type*} (step : σ → ε → Option σ)

def run : σ → List ε → Option σ
  | s, [] => some s
  | s, e :: es => (step s e).bind (fun s' => run s' es)

/-- Every step of the run meets `G`. -/
def RunMeets (G : σ → ε → Prop) : σ → List ε → Prop
  | _, [] => True
  | s, e :: es => G s e ∧ ∀ s', step s e = some s' → RunMeets G s' es

instance decidableRunMeets (G : σ → ε → Prop) [∀ s e, Decidable (G s e)] :
    ∀ (s : σ) (es : List ε), Decidable (RunMeets step G s es)
  | _, [] => inferInstanceAs (Decidable True)
  | s, e :: es =>
    match h : step s e with
    | none => decidable_of_iff (G s e) ⟨fun hg => ⟨hg, fun s' hs => by simp [h] at hs⟩, fun hm => hm.1⟩
    | some s' =>
      have := decidableRunMeets G s' es
      decidable_of_iff (G s e ∧ RunMeets step G s' es)
        ⟨fun hg => ⟨hg.1, fun t ht => Option.some.inj (h.symm.trans ht) ▸ hg.2⟩,
          fun hm => ⟨hm.1, hm.2 s' h⟩⟩

variable {step} {G : σ → ε → Prop} {I P : σ → Prop}

theorem run_cons {s u : σ} {e : ε} {es : List ε} (h : run step s (e :: es) = some u) :
    ∃ s', step s e = some s' ∧ run step s' es = some u := by
  simpa only [run, Option.bind_eq_some_iff] using h

/-- An invariant of the steps that meet `G` holds at the end of every run that meets `G`. -/
theorem runMeets_invariant (hstep : ∀ s e s', I s → G s e → step s e = some s' → I s')
    (es : List ε) {s u : σ} (hs : I s) (hmeets : RunMeets step G s es)
    (hrun : run step s es = some u) : I u := by
  induction es generalizing s with
  | nil =>
    obtain rfl : s = u := Option.some.inj hrun
    exact hs
  | cons e es ih =>
    obtain ⟨s', hs', hrun'⟩ := run_cons hrun
    exact ih (hstep s e s' hs hmeets.1 hs') (hmeets.2 s' hs') hrun'

/-- What follows from the invariant and `G` is met by every step of a run that meets `G`. -/
theorem runMeets_imp {H : σ → ε → Prop} (hstep : ∀ s e s', I s → G s e → step s e = some s' → I s')
    (himp : ∀ s e, I s → G s e → H s e) (es : List ε) {s : σ} (hs : I s)
    (hmeets : RunMeets step G s es) : RunMeets step H s es := by
  induction es generalizing s with
  | nil => trivial
  | cons e es ih =>
    refine ⟨himp s e hs hmeets.1, fun s' hs' => ?_⟩
    exact ih (hstep s e s' hs hmeets.1 hs') (hmeets.2 s' hs')

theorem runMeets_true (es : List ε) (s : σ) : RunMeets step (fun _ _ => True) s es := by
  induction es generalizing s with
  | nil => trivial
  | cons e es ih => exact ⟨trivial, fun s' _ => ih s'⟩

/-- A condition on the labels alone. -/
theorem runMeets_of_labels {L : ε → Prop} {es : List ε} (h : ∀ e ∈ es, L e) (s : σ) :
    RunMeets step (fun _ e => L e) s es := by
  induction es generalizing s with
  | nil => trivial
  | cons e es ih =>
    exact ⟨h e List.mem_cons_self, fun s' _ => ih (fun e' he' => h e' (List.mem_cons_of_mem _ he')) s'⟩

/-- An invariant of all steps holds at the end of every run. -/
theorem run_invariant (hstep : ∀ s e s', I s → step s e = some s' → I s') (es : List ε) {s u : σ}
    (hs : I s) (hrun : run step s es = some u) : I u :=
  runMeets_invariant (G := fun _ _ => True) (fun s e s' hI _ h => hstep s e s' hI h) es hs
    (runMeets_true es s) hrun

theorem run_concat_iff {s u : σ} {es : List ε} {e : ε} :
    run step s (es ++ [e]) = some u ↔ ∃ t, run step s es = some t ∧ step t e = some u := by
  rw [← Option.bind_eq_some_iff]
  induction es generalizing s with
  | nil => simp [run]
  | cons e' es ih => cases h : step s e' <;> simp [run, h, ih]

/-- The invariant rule for what a run from `s` has done so far. -/
theorem run_history {s u : σ} {I : List ε → σ → Prop} (hs : I [] s)
    (hstep : ∀ past t e t', run step s past = some t → I past t → step t e = some t' →
      I (past ++ [e]) t') (es : List ε) (hrun : run step s es = some u) : I es u := by
  induction es using List.reverseRecOn generalizing u with
  | nil =>
    obtain rfl : s = u := Option.some.inj hrun
    exact hs
  | append_singleton es e ih =>
    obtain ⟨t, ht, hu⟩ := run_concat_iff.mp hrun
    exact hstep es t e u ht (ih ht) hu

/-- Where `G` is exactly what keeps `P`, a run meets `G` if and only if all its states have `P`. `K`
    is what all steps of the run meet anyway, and `I` an invariant of such runs. -/
theorem runMeets_iff_of_meets {K : σ → ε → Prop}
    (hI : ∀ s e s', I s → K s e → step s e = some s' → I s')
    (hG : ∀ s e s', I s → K s e → P s → step s e = some s' → (P s' ↔ G s e)) (es : List ε) {s u : σ}
    (hIs : I s) (hs : P s) (hK : RunMeets step K s es) (hrun : run step s es = some u) :
    (∀ es', es' <+: es → ∀ s', run step s es' = some s' → P s') ↔ RunMeets step G s es := by
  induction es generalizing s with
  | nil =>
    refine iff_of_true (fun es' hpre s' hrun => ?_) trivial
    obtain rfl := List.prefix_nil.mp hpre
    exact Option.some.inj hrun ▸ hs
  | cons e es ih =>
    obtain ⟨t, ht, hrun'⟩ := run_cons hrun
    have ih := fun hPt => ih (hI s e t hIs hK.1 ht) hPt (hK.2 t ht) hrun'
    constructor
    · intro hall
      have hPt : P t := hall [e] (by simp) t (by simp [run, ht])
      refine ⟨(hG s e t hIs hK.1 hs ht).mp hPt, fun t' ht' => ?_⟩
      obtain rfl := Option.some.inj (ht.symm.trans ht')
      refine (ih hPt).mp fun es' hpre s' hrun' => hall (e :: es') ?_ s' ?_
      · exact (List.cons_prefix_cons).mpr ⟨rfl, hpre⟩
      · simpa [run, ht] using hrun'
    · intro hmeets es' hpre s' hrun'
      match es', hpre with
      | [], _ => exact Option.some.inj hrun' ▸ hs
      | e' :: es', hpre =>
        obtain ⟨rfl, hpre'⟩ := List.cons_prefix_cons.mp hpre
        obtain ⟨t', ht', hrun''⟩ := run_cons hrun'
        obtain rfl := Option.some.inj (ht.symm.trans ht')
        have hPt := (hG s e' t hIs hK.1 hs ht).mpr hmeets.1
        exact (ih hPt).mpr (hmeets.2 t ht) es' hpre' s' hrun''

/-- `runMeets_iff_of_meets` for an invariant of all runs. -/
theorem runMeets_iff (hI : ∀ s e s', I s → step s e = some s' → I s')
    (hG : ∀ s e s', I s → P s → step s e = some s' → (P s' ↔ G s e)) (es : List ε) {s u : σ}
    (hIs : I s) (hs : P s) (hrun : run step s es = some u) :
    (∀ es', es' <+: es → ∀ s', run step s es' = some s' → P s') ↔ RunMeets step G s es :=
  runMeets_iff_of_meets (K := fun _ _ => True) (fun s e s' hIs _ h => hI s e s' hIs h)
    (fun s e s' hIs _ hs h => hG s e s' hIs hs h) es hIs hs (runMeets_true es s) hrun

end

end Schemes
