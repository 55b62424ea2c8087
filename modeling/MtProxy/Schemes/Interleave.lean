import MtProxy.Schemes.Run

/-! Tasks that interleave on a shared state. A task is a stack of frames, one for every call it is
    in. In one step the scheduler picks a task; its top frame performs one atomic operation on the
    shared state and is replaced by the frames it goes on with, and new tasks may be spawned. What
    the environment decides (a channel that is full, a connection that fails) is the answer that
    comes with the step.

        f :: rest  ──operation e──▶  fs ++ rest,  spawned tasks

    The stacks matter for what can run next only. `step_frames` describes a step on the multiset of
    all frames, and `interleave_invariant` is the invariant rule in these terms: an invariant of the
    shared state, the operations performed so far and the frames in flight. `interleave_iff` is the
    rule for a condition on the operations that is exactly what keeps a property. -/

namespace Schemes

section
variable {σ F E A : Type*}

/-- What a frame does in a step, and what an operation does to the shared state. -/
structure Program (σ F E A : Type*) where
  exec : σ → F → A → Option (E × List F × List (List F))
  effect : E → σ → σ

/-- The shared state, the stacks of the tasks and the operations performed so far. -/
structure Config (σ F E : Type*) where
  shared : σ
  tasks : List (List F)
  history : List E

namespace Config

/-- All frames in flight. -/
def frames (c : Config σ F E) : Multiset F := (c.tasks.flatten : Multiset F)

end Config

theorem countP_add_of_forall_not {q : F → Prop} [DecidablePred q] {gs : List F} {R : Multiset F}
    (h : ∀ g ∈ gs, ¬ q g) : ((gs : Multiset F) + R).countP q = R.countP q := by
  rw [Multiset.countP_add, Multiset.countP_eq_zero.mpr h, Nat.zero_add]

theorem count_add_of_notMem [DecidableEq F] {a : F} {gs : List F} {R : Multiset F} (h : a ∉ gs) :
    ((gs : Multiset F) + R).count a = R.count a := by
  rw [Multiset.count_add, Multiset.count_eq_zero.mpr h, Nat.zero_add]

/-- A step that passes on what `f` has keeps the bound on the number of frames that have it. -/
theorem countP_add_le {q : F → Prop} [DecidablePred q] {f : F} {gs : List F} {R : Multiset F} {n : ℕ}
    (h : (f ::ₘ R).countP q ≤ n) (hgs : gs.countP (q ·) ≤ [f].countP (q ·)) :
    ((gs : Multiset F) + R).countP q ≤ n := by
  rw [Multiset.countP_add, Multiset.coe_countP]
  rw [Multiset.countP_cons] at h
  rw [List.countP_singleton] at hgs
  simp only [decide_eq_true_eq] at hgs
  omega

/-- The only frame that has `q`. -/
theorem notMem_of_countP_le_one {q : F → Prop} [DecidablePred q] {f g : F} {R : Multiset F}
    (h : (f ::ₘ R).countP q ≤ 1) (hf : q f) (hg : q g) : g ∉ R := by
  intro hR
  have hpos : 0 < R.countP q := Multiset.countP_pos.mpr ⟨g, hR, hg⟩
  rw [Multiset.countP_cons_of_pos _ hf] at h
  omega

/-- A step that brings in a key nobody has: each key still belongs to one frame at most. -/
theorem countP_key_le_one {κ : Type*} [DecidableEq κ] {key : F → Option κ} {f : F} {gs : List F}
    {R : Multiset F} {n : κ} (h : ∀ k, (f ::ₘ R).countP (fun g => key g = some k) ≤ 1)
    (hgs : gs.countP (fun g => key g = some n) ≤ 1)
    (hother : ∀ k, k ≠ n → ∀ g ∈ gs, ¬ key g = some k) (hnew : ∀ g ∈ R, ¬ key g = some n) (k : κ) :
    ((gs : Multiset F) + R).countP (fun g => key g = some k) ≤ 1 := by
  by_cases hk : k = n
  · subst hk
    rwa [Multiset.countP_add, Multiset.countP_eq_zero.mpr hnew, Multiset.coe_countP]
  · rw [countP_add_of_forall_not (hother k hk)]
    exact (Multiset.countP_le_of_le _ (Multiset.le_cons_self R f)).trans (h k)

/-- What some frame is to do is still to be done after the step, if the frame that ran hands it on. -/
theorem exists_mem_add {X : F → Prop} {f : F} {gs : List F} {R : Multiset F}
    (h : ∃ g ∈ f ::ₘ R, X g) (hf : X f → ∃ g ∈ gs, X g) : ∃ g ∈ (gs : Multiset F) + R, X g := by
  obtain ⟨g, hg, hX⟩ := h
  rcases Multiset.mem_cons.mp hg with rfl | hg
  · obtain ⟨g', hg', hX'⟩ := hf hX
    exact ⟨g', Multiset.mem_add.mpr (.inl hg'), hX'⟩
  · exact ⟨g, Multiset.mem_add.mpr (.inr hg), hX⟩

namespace Program
variable (p : Program σ F E A)

/-- What the top frame of task `l.1` does on the answer `l.2`. -/
def next (c : Config σ F E) (l : ℕ × A) : Option (E × List F × List (List F)) :=
  match c.tasks[l.1]? with
  | some (f :: _) => p.exec c.shared f l.2
  | _ => none

/-- The operation of a step. -/
def op (c : Config σ F E) (l : ℕ × A) : Option E := (p.next c l).map (·.1)

/-- The task at `i` goes on with `fs` in place of its top frame. -/
def proceed (tasks : List (List F)) (i : ℕ) (fs : List F) : List (List F) :=
  tasks.modify i (fun stack => fs ++ stack.tail)

def step (c : Config σ F E) (l : ℕ × A) : Option (Config σ F E) :=
  (p.next c l).map fun r =>
    ⟨p.effect r.1 c.shared, proceed c.tasks l.1 r.2.1 ++ r.2.2, c.history ++ [r.1]⟩

/-- Every step of the run meets a condition on the state before it and its operation. -/
def Meets (G : Config σ F E → E → Bool) (c : Config σ F E) (ls : List (ℕ × A)) : Prop :=
  RunMeets p.step (fun c l => ∀ e ∈ p.op c l, G c e = true) c ls

instance (G : Config σ F E → E → Bool) (c : Config σ F E) (ls : List (ℕ × A)) :
    Decidable (p.Meets G c ls) :=
  inferInstanceAs (Decidable (RunMeets p.step _ c ls))

variable {p}

/-- Taking one frame off the top of a stack. -/
theorem flatten_proceed : ∀ {tasks : List (List F)} {i : ℕ} {f : F} {rest : List F} (fs : List F),
    tasks[i]? = some (f :: rest) → ∃ R : Multiset F,
      (tasks.flatten : Multiset F) = f ::ₘ R ∧
        ((proceed tasks i fs).flatten : Multiset F) = (fs : Multiset F) + R
  | [], _, _, _, _, h => by simp at h
  | stack :: tasks, 0, f, rest, fs, h => by
    obtain rfl : stack = f :: rest := by simpa using h
    refine ⟨(rest ++ tasks.flatten : List F), by simp, ?_⟩
    simp [proceed, ← Multiset.coe_add]
  | stack :: tasks, i + 1, f, rest, fs, h => by
    obtain ⟨R, hR, hR'⟩ := flatten_proceed fs (show tasks[i]? = some (f :: rest) by simpa using h)
    refine ⟨(stack : Multiset F) + R, ?_, ?_⟩
    · rw [List.flatten_cons, ← Multiset.coe_add, hR, Multiset.add_cons]
    · have hcons : proceed (stack :: tasks) (i + 1) fs = stack :: proceed tasks i fs := rfl
      rw [hcons, List.flatten_cons, ← Multiset.coe_add, hR', add_left_comm]

theorem proceed_self {tasks : List (List F)} {i : ℕ} {f : F} {rest : List F} (fs : List F)
    (h : tasks[i]? = some (f :: rest)) : (proceed tasks i fs)[i]? = some (fs ++ rest) := by
  rw [proceed, List.getElem?_modify_eq, h]
  rfl

theorem getElem?_append_of_some {tasks spawned : List (List F)} {i : ℕ} {stack : List F}
    (h : tasks[i]? = some stack) : (tasks ++ spawned)[i]? = some stack := by
  obtain ⟨hi, hstack⟩ := List.getElem?_eq_some_iff.mp h
  rw [List.getElem?_append_left hi, h]

/-- A step on the stack of its task and on the multiset of all frames. -/
theorem step_task {c c' : Config σ F E} {l : ℕ × A} (h : p.step c l = some c') :
    ∃ f fs R e gs spawned, c.tasks[l.1]? = some (f :: fs) ∧
      p.exec c.shared f l.2 = some (e, gs, spawned) ∧ p.op c l = some e ∧
      c'.tasks[l.1]? = some (gs ++ fs) ∧ c.frames = f ::ₘ R ∧
      c'.frames = (gs ++ spawned.flatten : List F) + R ∧ c'.shared = p.effect e c.shared := by
  obtain ⟨⟨e, gs, spawned⟩, hnext, rfl⟩ := Option.map_eq_some_iff.mp h
  have hop : p.op c l = some e := by rw [op, hnext]; rfl
  unfold next at hnext
  split at hnext
  · rename_i f fs htask
    obtain ⟨R, hR, hR'⟩ := flatten_proceed gs htask
    refine ⟨f, fs, R, e, gs, spawned, htask, hnext, hop,
      getElem?_append_of_some (proceed_self gs htask), hR, ?_, rfl⟩
    rw [Config.frames, List.flatten_append, ← Multiset.coe_add, hR', ← Multiset.coe_add,
      add_right_comm]
  · cases hnext

theorem history_step {c c' : Config σ F E} {l : ℕ × A} {e : E} (h : p.step c l = some c')
    (hop : p.op c l = some e) : c'.history = c.history ++ [e] := by
  obtain ⟨r, hnext, rfl⟩ := Option.map_eq_some_iff.mp h
  obtain rfl : r.1 = e := Option.some.inj (by rw [← hop, op, hnext]; rfl)
  rfl

/-- A step on the multiset of frames: `f` is replaced, the others stay. -/
theorem step_frames {c c' : Config σ F E} {l : ℕ × A} (h : p.step c l = some c') :
    ∃ f R e fs spawned, p.exec c.shared f l.2 = some (e, fs, spawned) ∧ p.op c l = some e ∧
      c.frames = f ::ₘ R ∧ c'.frames = (fs ++ spawned.flatten : List F) + R ∧
      c'.shared = p.effect e c.shared ∧ c'.history = c.history ++ [e] := by
  obtain ⟨f, rest, R, e, fs, spawned, -, hexec, hop, -, hR, hR', hshared⟩ := step_task h
  exact ⟨f, R, e, fs, spawned, hexec, hop, hR, hR', hshared, history_step h hop⟩

/-- Invariants of the shared state, the history and the frames in flight, along the runs whose steps
    meet a condition `G`. -/
theorem interleave_invariant {G : Config σ F E → E → Bool}
    {I : σ → List E → Multiset F → Prop}
    (hexec : ∀ (c : Config σ F E) f R a e fs spawned, I c.shared c.history (f ::ₘ R) →
      p.exec c.shared f a = some (e, fs, spawned) → G c e = true →
      I (p.effect e c.shared) (c.history ++ [e]) ((fs ++ spawned.flatten : List F) + R))
    (ls : List (ℕ × A)) {c c' : Config σ F E} (hc : I c.shared c.history c.frames)
    (hmeets : p.Meets G c ls)
    (hrun : run p.step c ls = some c') : I c'.shared c'.history c'.frames := by
  refine runMeets_invariant (I := fun c => I c.shared c.history c.frames) ?_ ls hc hmeets hrun
  intro s l s' hI hG hstep
  obtain ⟨f, R, e, fs, spawned, hx, hop, hframes, hframes', hshared, hhist⟩ := step_frames hstep
  rw [hframes] at hI
  rw [hframes', hshared, hhist]
  exact hexec s f R l.2 e fs spawned hI hx (hG e hop)

/-- A property that an operation keeps exactly if it meets `G` holds in all states of a run exactly if
    all its operations meet `G`. `K` is what the operations of the run meet anyway. -/
theorem interleave_iff {K G : σ → Multiset F → E → Bool} {I P : σ → Multiset F → Prop}
    (hI : ∀ s f R a e fs spawned, p.exec s f a = some (e, fs, spawned) → I s (f ::ₘ R) →
      K s (f ::ₘ R) e = true → I (p.effect e s) ((fs ++ spawned.flatten : List F) + R))
    (hG : ∀ s f R a e fs spawned, p.exec s f a = some (e, fs, spawned) → I s (f ::ₘ R) →
      K s (f ::ₘ R) e = true → P s (f ::ₘ R) →
      (P (p.effect e s) ((fs ++ spawned.flatten : List F) + R) ↔ G s (f ::ₘ R) e = true))
    (ls : List (ℕ × A)) {c u : Config σ F E} (hIc : I c.shared c.frames) (hPc : P c.shared c.frames)
    (hK : p.Meets (fun c => K c.shared c.frames) c ls) (hrun : run p.step c ls = some u) :
    (∀ ls', ls' <+: ls → ∀ c', run p.step c ls' = some c' → P c'.shared c'.frames) ↔
      p.Meets (fun c => G c.shared c.frames) c ls := by
  refine runMeets_iff_of_meets (I := fun c => I c.shared c.frames)
    (P := fun c => P c.shared c.frames) ?_ ?_ ls hIc hPc hK hrun
  · intro s l s' hIs hKs hstep
    obtain ⟨f, R, e, fs, spawned, hx, hop, hframes, hframes', hshared, -⟩ := step_frames hstep
    have hKe : K s.shared s.frames e = true := hKs e hop
    rw [hframes] at hIs hKe
    rw [hframes', hshared]
    exact hI s.shared f R l.2 e fs spawned hx hIs hKe
  · intro s l s' hIs hKs hPs hstep
    obtain ⟨f, R, e, fs, spawned, hx, hop, hframes, hframes', hshared, -⟩ := step_frames hstep
    have hKe : K s.shared s.frames e = true := hKs e hop
    rw [hframes] at hIs hKe hPs
    simp only [hop, Option.mem_some_iff, forall_eq', hframes, hframes', hshared]
    exact hG s.shared f R l.2 e fs spawned hx hIs hKe hPs

theorem meets_true (ls : List (ℕ × A)) (c : Config σ F E) : p.Meets (fun _ _ => true) c ls := by
  induction ls generalizing c with
  | nil => trivial
  | cons l ls ih => exact ⟨fun _ _ => rfl, fun c' _ => ih c'⟩

end Program

end

end Schemes
