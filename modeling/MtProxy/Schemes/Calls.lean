import Mathlib.Tactic

/-! Machines that answer calls. `call s c` is the reply to `c` in the state `s` and the next state;
    every call is possible in every state.

        s ──c₁──▶ s₁ ──c₂──▶ ⋯ ──cₙ──▶ sₙ        after s [c₁, ⋯, cₙ] = sₙ
                  ╰── dead ── refuse, refuse, ⋯

    `after_induct` is the induction along a run, with the calls made so far at hand. `Final` says of
    a run that a dead state is for good: whatever is called from then on is refused and the machine
    stays dead. `final_iff` reduces it to the single calls made in dead states. -/

namespace Schemes

section
variable {σ γ ρ : Type*} (call : σ → γ → ρ × σ)

/-- The state after a sequence of calls. -/
def after : σ → List γ → σ
  | s, [] => s
  | s, c :: cs => after (call s c).2 cs

/-- From the first dead state of the run on, every call `c` is refused and leaves a dead state. -/
def Final (Dead : σ → Prop) (Refused : σ → γ → ρ × σ → Prop) (s : σ) (cs : List γ) : Prop :=
  ∀ pre mid c post, cs = pre ++ mid ++ c :: post → Dead (after call s pre) →
    Dead (after call s (pre ++ mid ++ [c])) ∧
      Refused (after call s (pre ++ mid)) c (call (after call s (pre ++ mid)) c)

variable {call} {Dead : σ → Prop} {Refused : σ → γ → ρ × σ → Prop}

theorem after_append (s : σ) (cs ds : List γ) :
    after call s (cs ++ ds) = after call (after call s cs) ds := by
  induction cs generalizing s with
  | nil => rfl
  | cons c cs ih => exact ih (call s c).2

theorem after_concat (s : σ) (cs : List γ) (c : γ) :
    after call s (cs ++ [c]) = (call (after call s cs) c).2 := after_append s cs [c]

/-- What holds at the start and is kept by every call of the run holds all along it. -/
theorem after_induct {I : List γ → σ → Prop} {s : σ} {cs : List γ} (hstart : I [] s)
    (hstep : ∀ pre c, pre ++ [c] <+: cs → I pre (after call s pre) →
      I (pre ++ [c]) (call (after call s pre) c).2) :
    ∀ pre, pre <+: cs → I pre (after call s pre) := by
  intro pre
  induction pre using List.reverseRecOn with
  | nil => exact fun _ => hstart
  | append_singleton pre c ih =>
    intro hpre
    rw [after_concat]
    exact hstep pre c hpre (ih ((List.prefix_append pre [c]).trans hpre))

/-- Where `G` is exactly what keeps a dead state dead and refusing, a run is final if and only if
    all its calls in dead states meet `G`. -/
theorem final_iff {G : σ → γ → Prop}
    (hstep : ∀ s c, Dead s → ((Dead (call s c).2 ∧ Refused s c (call s c)) ↔ G s c)) (s : σ)
    (cs : List γ) : Final call Dead Refused s cs ↔
      ∀ pre c post, cs = pre ++ c :: post → Dead (after call s pre) → G (after call s pre) c := by
  constructor
  · intro hfinal pre c post hcs hdead
    obtain ⟨hnext, href⟩ := hfinal pre [] c post (by simpa using hcs) hdead
    rw [List.append_nil] at hnext href
    rw [after_concat] at hnext
    exact (hstep _ c hdead).mp ⟨hnext, href⟩
  · intro hall pre mid c post hcs hdead
    have hmid : Dead (after call s (pre ++ mid)) := by
      induction mid using List.reverseRecOn generalizing c post with
      | nil => rwa [List.append_nil]
      | append_singleton mid d ih =>
        have hd := ih d (c :: post) (by simpa using hcs)
        rw [← List.append_assoc, after_concat]
        exact ((hstep _ d hd).mpr (hall (pre ++ mid) d (c :: post) (by simpa using hcs) hd)).1
    rw [after_concat]
    exact (hstep _ c hmid).mpr (hall (pre ++ mid) c post hcs hmid)

/-- A machine whose dead states stay dead and refuse every call is final in every run. -/
theorem final_of_step (hstep : ∀ s c, Dead s → Dead (call s c).2 ∧ Refused s c (call s c)) (s : σ)
    (cs : List γ) : Final call Dead Refused s cs :=
  (final_iff (G := fun _ _ => True) (fun s c hs => iff_of_true (hstep s c hs) trivial) s cs).mpr
    fun _ _ _ _ _ => trivial

end

end Schemes
