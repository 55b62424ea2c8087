import MtProxy.Schemes.Interleave

/-! One task among others. The steps of a task `i` in a run of interleaving tasks are those labelled
    with `i`; the steps of the others leave its stack alone, whatever they do to the shared state.

        others, (c₁, e₁), others, (c₂, e₂), ⋯      taskSteps i = [(c₁, e₁), (c₂, e₂), ⋯]

    `task_invariant` is the invariant rule for what a task has done so far. -/

namespace Schemes.Program

section
variable {σ F E A : Type*} {p : Program σ F E A} {c c' : Config σ F E} {l : ℕ × A} {i : ℕ}

theorem proceed_other {tasks : List (List F)} {j : ℕ} (fs : List F) (h : j ≠ i) :
    (proceed tasks j fs)[i]? = tasks[i]? := by
  rw [proceed, List.getElem?_modify_ne _ _ h]

/-- A step of task `i`: its top frame runs. -/
theorem step_own {stack : List F} (h : p.step c l = some c') (htask : c.tasks[l.1]? = some stack) :
    ∃ f fs e gs spawned, stack = f :: fs ∧ p.exec c.shared f l.2 = some (e, gs, spawned) ∧
      p.op c l = some e ∧ c'.tasks[l.1]? = some (gs ++ fs) ∧ c'.shared = p.effect e c.shared := by
  obtain ⟨f, fs, R, e, gs, spawned, htask', hexec, hop, hnext, -, -, hshared⟩ := step_task h
  exact ⟨f, fs, e, gs, spawned, Option.some.inj (htask.symm.trans htask'), hexec, hop, hnext, hshared⟩

/-- A step of another task. -/
theorem step_other {stack : List F} (h : p.step c l = some c') (hother : l.1 ≠ i)
    (htask : c.tasks[i]? = some stack) : c'.tasks[i]? = some stack := by
  obtain ⟨⟨e, gs, spawned⟩, -, rfl⟩ := Option.map_eq_some_iff.mp h
  exact getElem?_append_of_some ((proceed_other gs hother).trans htask)

/-! ### What a task does in a run -/

variable (p i) in
/-- The steps of task `i` in a run: the configuration before each of them, and its operation. -/
def taskSteps : Config σ F E → List (ℕ × A) → List (Config σ F E × E)
  | _, [] => []
  | c, l :: ls =>
    match p.op c l, p.step c l with
    | some e, some c' => if l.1 = i then (c, e) :: taskSteps c' ls else taskSteps c' ls
    | _, _ => []

/-- Every step of another task than `i` meets a condition on the state before it and its operation. -/
def OthersMeet (p : Program σ F E A) (i : ℕ) (G : Config σ F E → E → Bool) (c : Config σ F E)
    (ls : List (ℕ × A)) : Prop :=
  RunMeets p.step (fun c l => l.1 ≠ i → ∀ e ∈ p.op c l, G c e = true) c ls

instance (i : ℕ) (G : Config σ F E → E → Bool) (c : Config σ F E) (ls : List (ℕ × A)) :
    Decidable (p.OthersMeet i G c ls) :=
  inferInstanceAs (Decidable (RunMeets p.step _ c ls))

theorem op_of_step (h : p.step c l = some c') : ∃ e, p.op c l = some e := by
  obtain ⟨r, hr, -⟩ := Option.map_eq_some_iff.mp h
  exact ⟨r.1, by rw [op, hr]; rfl⟩

/-- Invariants of what task `i` has done so far, along the runs whose steps meet a condition `G`. -/
theorem task_invariant {G : Config σ F E → ℕ × A → Prop}
    {I : List (Config σ F E × E) → Config σ F E → Prop}
    (hown : ∀ tr c l c' e, I tr c → G c l → p.step c l = some c' → p.op c l = some e → l.1 = i →
      I (tr ++ [(c, e)]) c')
    (hother : ∀ tr c l c', I tr c → G c l → p.step c l = some c' → l.1 ≠ i → I tr c')
    (ls : List (ℕ × A)) {tr : List (Config σ F E × E)} (hc : I tr c)
    (hmeets : RunMeets p.step G c ls) (hrun : run p.step c ls = some c') :
    I (tr ++ p.taskSteps i c ls) c' := by
  induction ls generalizing c tr with
  | nil =>
    obtain rfl : c = c' := Option.some.inj hrun
    rwa [taskSteps, List.append_nil]
  | cons l ls ih =>
    obtain ⟨c₁, hstep, hrun'⟩ := run_cons hrun
    obtain ⟨e, hop⟩ := op_of_step hstep
    rw [taskSteps, hop, hstep]
    simp only
    split
    · next hi =>
      rw [List.append_cons]
      exact ih (hown tr c l c₁ e hc hmeets.1 hstep hop hi) (hmeets.2 c₁ hstep) hrun'
    · next hi => exact ih (hother tr c l c₁ hc hmeets.1 hstep hi) (hmeets.2 c₁ hstep) hrun'

end

end Schemes.Program
