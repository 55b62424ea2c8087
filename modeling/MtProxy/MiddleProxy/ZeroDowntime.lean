import MtProxy.MiddleProxy.WritersLock
import MtProxy.MiddleProxy.Replacement

/-! What a reinit cycle leaves running. A cycle drains stale writers, by their id, long after it has
    looked at the list; between its survey and the last drain others go on.

                    is drained                      is not, and covers the group
        hardswap    generation < g                  generation = g, at least as many as required
        otherwise   endpoint in no DC group         endpoint in the group

    The two kinds are apart, and what is known of a writer by its id stays known, since ids are handed out
    once. So a DC group that had a live writer keeps one, as long as no other task takes live writers
    away. `zero_downtime_drain` says this of the passes that replace writers one by one as well. -/

namespace MtProxy.MiddleProxy.Reinit
open Schemes

/-- The writer an update removes or drains. -/
def ListUpdate.target : ListUpdate → Option ℕ
  | .push .. => none
  | .remove w | .retain w | .markDraining w => some w

def ReinitOp.target : ReinitOp → Option ℕ
  | .update _ u => u.target
  | _ => none

/-- The operation removes and drains no live writer. -/
def sparesLive (s : ReinitPool) (e : ReinitOp) : Bool := s.pool.live.all (spared e.target)

/-- The writers `stale_writer_ids` are the ids of. -/
def Stale (s : ReinitPool) (call : ReinitCall) (v : MeWriter) : Prop :=
  if call.hardswap then s.generationOf v.id < call.generation
  else ∀ d ∈ call.desired, v.addr ∉ d.2

/-- The cycle may drain: each DC group has as many writers of the new generation as its survey, of `s₀`,
    required, or without a hardswap a live one. -/
def Ready (s₀ s : ReinitPool) (call : ReinitCall) : Prop :=
  ∀ d ∈ call.desired, d.2 ≠ [] →
    if call.hardswap then
      requiredWritersForDc s₀ d.2.length ≤ freshWriterCount s call.generation d.2
    else Covered s.pool d.2

/-- What the operation takes away from the live writers is stale. -/
def Harmless (s : ReinitPool) (call : ReinitCall) (e : ReinitOp) : Prop :=
  ∀ v ∈ s.pool.live, e.target = some v.id → Stale s call v

section
variable {s₀ s : ReinitPool} {f : Frame} {e : ReinitOp} {gs : List Frame} {R : Multiset Frame}
  {call : ReinitCall} {steps : List (ReinitConfig × ReinitOp)}

/-! ### What a step does to the live writers -/

theorem live_update (u : ListUpdate) (hu : ∀ w generation contour, u ≠ .push w generation contour) :
    (s.pool.live.filter (spared u.target)).Sublist (u.effect s).pool.live := by
  cases u with
  | push w generation contour => exact absurd rfl (hu w generation contour)
  | remove w =>
    rw [ListUpdate.effect]
    split
    · next v hv =>
      obtain rfl : v.id = w := by simpa using List.find?_some hv
      exact live_removeWriter v s.pool
    · exact List.filter_sublist
  | retain w => exact live_retain w s.pool
  | markDraining w =>
    rw [ListUpdate.effect]
    split
    · exact live_markDraining w s.pool
    · exact List.filter_sublist

/-- The live writers a step does not target stay live. -/
theorem live_step (hids : IdsOnce s.pool (pending (f ::ₘ R))) (hspec : OpSpec s f gs e) :
    (s.pool.live.filter (spared e.target)).Sublist (e.effect s).pool.live := by
  cases e with
  | update t u =>
    cases u with
    | push w generation contour =>
      rw [pending_cons, hspec.1] at hids
      have hlive : ((ReinitOp.update t (.push w generation contour)).effect s).pool.live =
          s.pool.live ++ [w] := live_push hids
      rw [hlive]
      exact List.filter_sublist.trans (List.sublist_append_left _ _)
    | remove w => exact live_update (.remove w) nofun
    | retain w => exact live_update (.retain w) nofun
    | markDraining w => exact live_update (.markDraining w) nofun
  | begin hash now =>
    rw [(poolStep_begin hash now).1]
    exact List.filter_sublist
  | _ => exact List.filter_sublist

theorem generationOf_step (hids : IdsOnce s.pool (pending (f ::ₘ R))) (hspec : OpSpec s f gs e)
    {v : MeWriter} (hv : v ∈ s.pool.writers) : (e.effect s).generationOf v.id = s.generationOf v.id :=
  ((poolStep_of_opSpec hspec).settled (hids.settled (mem_writerIds hv))).2

/-- The writers of a generation do not get fewer, if none of them is a target. -/
theorem freshWriterCount_le (hids : IdsOnce s.pool (pending (f ::ₘ R))) (hspec : OpSpec s f gs e)
    {g : ℕ} {eps : List SocketAddr}
    (hkeep : ∀ v ∈ s.pool.live, s.generationOf v.id = g → v.addr ∈ eps → e.target ≠ some v.id) :
    freshWriterCount s g eps ≤ freshWriterCount (e.effect s) g eps := by
  have heq : s.pool.live.filter (fun v => s.generationOf v.id = g ∧ v.addr ∈ eps) =
      (s.pool.live.filter (spared e.target)).filter
        (fun v => (e.effect s).generationOf v.id = g ∧ v.addr ∈ eps) := by
    rw [List.filter_filter]
    refine List.filter_congr fun v hv => ?_
    rw [generationOf_step hids hspec (mem_live.mp hv).1, Bool.eq_iff_iff, Bool.and_eq_true,
      decide_eq_true_eq, spared_iff]
    exact ⟨fun h => ⟨h, hkeep v hv h.1 h.2⟩, fun h => h.1⟩
  exact (congrArg List.length heq).trans_le ((live_step hids hspec).filter _).length_le

theorem covered_spared (hids : IdsOnce s.pool (pending (f ::ₘ R))) (hspec : OpSpec s f gs e)
    {eps : List SocketAddr} (h : ∃ v ∈ s.pool.live, v.addr ∈ eps ∧ e.target ≠ some v.id) :
    Covered (e.effect s).pool eps := Covered.of_spared h (live_step hids hspec)

/-! ### A cycle that may drain -/

/-- It still may after a step that takes away stale writers only. -/
theorem Ready.step (h : Ready s₀ s call) (hids : IdsOnce s.pool (pending (f ::ₘ R)))
    (hspec : OpSpec s f gs e) (hharmless : Harmless s call e) : Ready s₀ (e.effect s) call := by
  intro d hd hne
  have hd' := h d hd hne
  cases hswap : call.hardswap with
  | true =>
    rw [hswap, if_pos rfl] at hd'
    rw [if_pos rfl]
    refine hd'.trans (freshWriterCount_le hids hspec fun v hv hgen _ htarget => ?_)
    have hstale := hharmless v hv htarget
    rw [Stale, hswap, if_pos rfl] at hstale
    exact hstale.ne hgen
  | false =>
    rw [hswap, if_neg Bool.false_ne_true] at hd'
    rw [if_neg Bool.false_ne_true]
    obtain ⟨v, hv, hmem⟩ := hd'
    refine covered_spared hids hspec ⟨v, hv, hmem, fun htarget => ?_⟩
    have hstale := hharmless v hv htarget
    rw [Stale, hswap, if_neg Bool.false_ne_true] at hstale
    exact hstale d hd hmem

theorem requiredWritersForDc_pos (s : ReinitPool) {eps : List SocketAddr} (h : eps ≠ []) :
    0 < requiredWritersForDc s eps.length := by
  have hlen : eps.length ≠ 0 := fun hzero => h (List.length_eq_zero_iff.mp hzero)
  rw [requiredWritersForDc, if_neg hlen]
  split <;> omega

theorem Ready.covered (h : Ready s₀ s call) {d : ℤ × List SocketAddr} (hd : d ∈ call.desired)
    (hne : d.2 ≠ []) : Covered s.pool d.2 := by
  have hd' := h d hd hne
  cases hswap : call.hardswap with
  | true =>
    rw [hswap, if_pos rfl] at hd'
    have hpos := (requiredWritersForDc_pos s₀ hne).trans_le hd'
    obtain ⟨v, hv⟩ := List.exists_mem_of_length_pos hpos
    obtain ⟨hlive, hfresh⟩ := List.mem_filter.mp hv
    exact ⟨v, hlive, (of_decide_eq_true hfresh).2⟩
  | false => rwa [hswap, if_neg Bool.false_ne_true] at hd'

theorem ready_of_fresh (hswap : call.hardswap = true) (h : freshMissingDc s call = []) :
    Ready s s call := by
  intro d hd hne
  rw [hswap, if_pos rfl]
  by_contra hlt
  have hmem : d.1 ∈ freshMissingDc s call :=
    List.mem_map_of_mem (List.mem_filter.mpr ⟨hd, by simpa [hne] using hlt⟩)
  rw [h] at hmem
  cases hmem

theorem ready_of_missing (hswap : call.hardswap = false) (h : missingDc s call.desired = []) :
    Ready s₀ s call := by
  intro d hd hne
  rw [hswap, if_neg Bool.false_ne_true]
  by_contra hnot
  have hall : ∀ addr ∈ d.2, addr ∉ activeWriterAddrs s := by
    intro addr haddr hmem
    obtain ⟨v, hv, rfl⟩ := List.mem_map.mp hmem
    exact hnot ⟨v, hv, haddr⟩
  have hmem : d.1 ∈ missingDc s call.desired :=
    List.mem_map_of_mem (List.mem_filter.mpr ⟨hd, by simpa [hne] using hall⟩)
  rw [h] at hmem
  cases hmem

/-- A covered group stays covered: nothing live is taken away, or the cycle may drain what is. -/
theorem covered_step (hids : IdsOnce s.pool (pending (f ::ₘ R))) (hspec : OpSpec s f gs e)
    {d : ℤ × List SocketAddr} (hd : d ∈ call.desired) (hcovered : Covered s.pool d.2)
    (h : sparesLive s e = true ∨ (∃ s₀, Ready s₀ s call) ∧ Harmless s call e) :
    Covered (e.effect s).pool d.2 := by
  obtain ⟨v, hv, hmem⟩ := hcovered
  rcases h with hspares | ⟨⟨s₀, hready⟩, hharmless⟩
  · exact covered_spared hids hspec
      ⟨v, hv, hmem, spared_iff.mp (List.all_eq_true.mp hspares v hv)⟩
  · exact (hready.step hids hspec hharmless).covered hd (List.ne_nil_of_mem hmem)

/-! ### The writers a cycle drains -/

/-- Whatever writer is in the list under this id is stale, now and later. -/
def Doomed (s : ReinitPool) (M : Multiset Frame) (call : ReinitCall) (w : ℕ) : Prop :=
  Settled s.pool (pending M) w ∧ ∀ v ∈ s.pool.writers, v.id = w → Stale s call v

/-- A hardswap cycle that has made these steps has surveyed the list in `s₀`, and decided to drain. -/
def Surveyed (call : ReinitCall) (steps : List (ReinitConfig × ReinitOp)) (s₀ : ReinitPool) : Prop :=
  call.hardswap = true → ∃ y ∈ steps, y.2 = .activate call.generation ∧ y.1.shared = s₀

/-- A cycle that has decided to drain may do so, and what it drains is stale. -/
def CycleOk (steps : List (ReinitConfig × ReinitOp)) (s : ReinitPool) (M : Multiset Frame)
    (call : ReinitCall) (pc : ReinitPc) : Prop :=
  ∀ ids, doomed pc = some ids →
    ∃ s₀, Surveyed call steps s₀ ∧ Ready s₀ s call ∧ ∀ w ∈ ids, Doomed s M call w

theorem Doomed.step {w : ℕ} (h : Doomed s (f ::ₘ R) call w) (hspec : OpSpec s f gs e) :
    Doomed (e.effect s) ((gs : Multiset Frame) + R) call w := by
  have hpool := poolStep_of_opSpec hspec
  obtain ⟨hsettled, hgen⟩ := hpool.settled h.1
  refine ⟨hsettled, ?_⟩
  rintro v hv rfl
  have hstale := h.2 v (hpool.mem_writers h.1 hv) rfl
  rw [Stale] at hstale ⊢
  rwa [hgen]

theorem doomed_of_stale (hids : IdsOnce s.pool (pending (f ::ₘ R))) {w : ℕ}
    (h : w ∈ staleWriterIds s call) : Doomed s (f ::ₘ R) call w := by
  obtain ⟨u, hu, rfl⟩ := List.mem_map.mp h
  obtain ⟨hlive, hstale⟩ := List.mem_filter.mp hu
  have hmem : u ∈ s.pool.writers := (List.mem_filter.mp hlive).1
  refine ⟨hids.settled (mem_writerIds hmem), fun v hv hid => ?_⟩
  obtain rfl := hids.unique hv hmem hid
  rw [Stale]
  cases hswap : call.hardswap with
  | true => simpa [hswap] using hstale
  | false => simpa [hswap] using hstale

/-- The steps of a cycle take away only what it has decided to drain. -/
theorem CycleOk.harmless {t : ℕ} {pc : ReinitPc}
    (h : CycleOk steps s (.reinit t call pc ::ₘ R) call pc)
    (hspec : OpSpec s (.reinit t call pc) gs e) :
    e.target = none ∨ (∃ s₀, Ready s₀ s call) ∧ Harmless s call e := by
  cases e with
  | update t' u =>
    cases u with
    | push w generation contour => exact .inl rfl
    | remove w => cases hspec.1
    | retain w => cases hspec.1
    | markDraining w =>
      rcases hspec with ⟨call', todo, hf, -⟩ | ⟨hf, -⟩
      · cases hf
        obtain ⟨s₀, -, hready, hdoomed⟩ := h (w :: todo) rfl
        refine .inr ⟨⟨s₀, hready⟩, fun v hv htarget => ?_⟩
        exact (hdoomed w List.mem_cons_self).2 v (mem_live.mp hv).1 (Option.some.inj htarget).symm
      · cases hf
  | _ => exact .inl rfl

theorem harmless_of_target (h : e.target = none) : Harmless s call e := by
  intro v hv htarget
  cases h.symm.trans htarget

theorem Surveyed.append (h : Surveyed call steps s₀) (x : ReinitConfig × ReinitOp) :
    Surveyed call (steps ++ [x]) s₀ := by
  intro hswap
  obtain ⟨y, hy, hop, hs⟩ := h hswap
  exact ⟨y, List.mem_append_left _ hy, hop, hs⟩

theorem CycleOk.step {cfg : ReinitConfig} {t : ℕ} {pc pc' : ReinitPc}
    (h : CycleOk steps cfg.shared (.reinit t call pc ::ₘ R) call pc)
    (hids : IdsOnce cfg.shared.pool (pending (.reinit t call pc ::ₘ R)))
    (hspec : OpSpec cfg.shared (.reinit t call pc) gs e) (hg : .reinit t call pc' ∈ gs) :
    CycleOk (steps ++ [(cfg, e)]) (e.effect cfg.shared) ((gs : Multiset Frame) + R) call pc' := by
  intro ids hids'
  have hharmless : Harmless cfg.shared call e :=
    (h.harmless hspec).elim harmless_of_target And.right
  -- the cycle was ready before the step, and so were the writers doomed
  suffices hbefore : ∃ s₀, Surveyed call (steps ++ [(cfg, e)]) s₀ ∧ Ready s₀ cfg.shared call ∧
      ∀ w ∈ ids, Doomed cfg.shared (.reinit t call pc ::ₘ R) call w by
    obtain ⟨s₀, hsurveyed, hready, hdoomed⟩ := hbefore
    exact ⟨s₀, hsurveyed, hready.step hids hspec hharmless, fun w hw => (hdoomed w hw).step hspec⟩
  cases cycleStep_of_opSpec hspec hg with
  | start hash now hf hop hswap hgen hpc' => cases hf
  | next pc₀ hf hnone hsome =>
    cases hf
    cases hsome ids hids' with
    | still before hpc hsub =>
      obtain ⟨s₀, hsurveyed, hready, hdoomed⟩ := h before hpc
      exact ⟨s₀, hsurveyed.append _, hready, fun w hw => hdoomed w (hsub hw)⟩
    | stale hpc hstale =>
      subst hpc
      obtain ⟨s₀, hsurveyed, hready, -⟩ := h [] rfl
      exact ⟨s₀, hsurveyed.append _, hready, fun w hw => doomed_of_stale hids (hstale ▸ hw)⟩
    | hardswap hop hnil hswap hfresh =>
      subst hnil
      refine ⟨cfg.shared, fun _ => ?_, ready_of_fresh hswap hfresh, nofun⟩
      exact ⟨(cfg, e), List.mem_append_right _ (List.mem_singleton_self _), hop, rfl⟩
    | covered hpc hnil hswap hmissing =>
      subst hnil
      refine ⟨cfg.shared, fun hhard => ?_, ready_of_missing hswap hmissing, nofun⟩
      cases hswap.symm.trans hhard

/-- A step of another task that leaves the live writers alone. -/
theorem CycleOk.other {pc : ReinitPc} (h : CycleOk steps s (f ::ₘ R) call pc)
    (hids : IdsOnce s.pool (pending (f ::ₘ R))) (hspec : OpSpec s f gs e)
    (hspares : sparesLive s e = true) :
    CycleOk steps (e.effect s) ((gs : Multiset Frame) + R) call pc := by
  have hharmless : Harmless s call e := fun v hv htarget =>
    absurd htarget (spared_iff.mp (List.all_eq_true.mp hspares v hv))
  intro ids hpc
  obtain ⟨s₀, hsurveyed, hready, hdoomed⟩ := h ids hpc
  exact ⟨s₀, hsurveyed, hready.step hids hspec hharmless, fun w hw => (hdoomed w hw).step hspec⟩

end

/-! ### The cycle among other tasks -/

theorem reinitStep_frames {s : ReinitPool} {t : ℕ} {call : ReinitCall} {pc : ReinitPc} {a : Answer}
    {e : ReinitOp} {fs : List Frame} {sp : List (List Frame)}
    (h : reinitStep s t call pc a = some (e, fs, sp)) :
    sp = [] ∧ (fs = [] ∨ ∃ pc', fs = [.reinit t call pc']) := by
  revert h
  fun_cases reinitStep s t call pc a <;> intro h
  case case22 what hheld => cases what <;> cases h <;> simp
  all_goals
    cases h
    try simp

/-- The cycle of task `i` runs, or is over. -/
inductive CycleAt (i : ℕ) (call : ReinitCall) (steps : List (ReinitConfig × ReinitOp))
    (cfg : ReinitConfig) : Prop
  | running (t : ℕ) (pc : ReinitPc) (htask : cfg.tasks[i]? = some [.reinit t call pc])
    (hok : CycleOk steps cfg.shared cfg.frames call pc)
  | ended (htask : cfg.tasks[i]? = some [])

/-- A hardswap cycle drains a writer after its survey only, the writer is of an older generation, and
    each DC group has as many writers of the new one as the survey required. -/
def DrainedSafely (call : ReinitCall) (steps : List (ReinitConfig × ReinitOp)) : Prop :=
  call.hardswap = true → ∀ before x, before ++ [x] <+: steps →
    ∀ t w, x.2 = .update t (.markDraining w) →
      ∃ y ∈ before, y.2 = .activate call.generation ∧
        (∀ d ∈ call.desired, d.2 ≠ [] → requiredWritersForDc y.1.shared d.2.length ≤
          freshWriterCount x.1.shared call.generation d.2) ∧
        ∀ v ∈ x.1.shared.pool.writers, v.id = w → x.1.shared.generationOf v.id < call.generation

/-- The invariant of a cycle from its first step on: what was covered at its start is covered. -/
structure Zero (i : ℕ) (call : ReinitCall) (p₀ : MePool) (steps : List (ReinitConfig × ReinitOp))
    (cfg : ReinitConfig) : Prop where
  ids : IdsOnce cfg.shared.pool (pending cfg.frames)
  covered : ∀ d ∈ call.desired, Covered p₀ d.2 → Covered cfg.shared.pool d.2
  cycle : CycleAt i call steps cfg
  drained : DrainedSafely call steps

section
variable {i : ℕ} {call : ReinitCall} {p₀ : MePool} {steps : List (ReinitConfig × ReinitOp)}
  {cfg cfg' : ReinitConfig} {l : ℕ × Answer} {e : ReinitOp}

theorem drainedSafely_nil : DrainedSafely call [] := by
  intro _ before x hprefix
  cases List.append_eq_nil_iff.mp (List.prefix_nil.mp hprefix) |>.2

/-- A step of the cycle after steps that were safe. -/
theorem DrainedSafely.own {t : ℕ} {pc : ReinitPc} {R : Multiset Frame} {gs : List Frame}
    (h : DrainedSafely call steps) (hok : CycleOk steps cfg.shared (.reinit t call pc ::ₘ R) call pc)
    (hspec : OpSpec cfg.shared (.reinit t call pc) gs e) :
    DrainedSafely call (steps ++ [(cfg, e)]) := by
  intro hswap before x hprefix t' w he
  rcases List.prefix_concat_iff.mp hprefix with hlast | hprefix
  · obtain ⟨rfl, hx⟩ := List.append_inj' hlast rfl
    cases hx
    obtain rfl : e = .update t' (.markDraining w) := he
    rcases hspec with ⟨call', todo, hf, -⟩ | ⟨hf, -⟩
    · cases hf
      obtain ⟨s₀, hsurveyed, hready, hdoomed⟩ := hok (w :: todo) rfl
      obtain ⟨y, hy, hop, rfl⟩ := hsurveyed hswap
      refine ⟨y, hy, hop, fun d hd hne => ?_, fun v hv hid => ?_⟩
      · have henough := hready d hd hne
        rwa [hswap, if_pos rfl] at henough
      · have hstale := (hdoomed w List.mem_cons_self).2 v hv hid
        rwa [Stale, hswap, if_pos rfl] at hstale
    · cases hf
  · exact h hswap before x hprefix t' w he

theorem Zero.own (h : Zero i call p₀ steps cfg) (hstep : reinitProgram.step cfg l = some cfg')
    (hop : reinitProgram.op cfg l = some e) (hi : l.1 = i) :
    Zero i call p₀ (steps ++ [(cfg, e)]) cfg' := by
  subst hi
  obtain ⟨f, fs, R, e', gs, sp, htask, hexec, hop', htask', hframes, hframes', hshared⟩ :=
    Program.step_task hstep
  obtain rfl := Option.some.inj (hop.symm.trans hop')
  cases h.cycle with
  | ended hended => cases htask.symm.trans hended
  | running t pc hrunning hok =>
    cases htask.symm.trans hrunning
    have hspec : OpSpec cfg.shared (.reinit t call pc) (gs ++ sp.flatten) e := exec_opSpec hexec
    obtain ⟨rfl, hgs⟩ := reinitStep_frames (hexec : reinitStep _ t call pc l.2 = _)
    have hids := h.ids
    rw [hframes] at hids hok
    rw [List.flatten_nil, List.append_nil] at hspec hframes'
    rw [List.append_nil] at htask'
    refine ⟨idsOnce_step h.ids hstep, fun d hd hcovered => ?_, ?_,
      h.drained.own hok hspec⟩
    · rw [hshared]
      refine covered_step hids hspec hd (h.covered d hd hcovered) ?_
      exact (hok.harmless hspec).imp_left fun htarget => by simp [sparesLive, spared, htarget]
    · rcases hgs with rfl | ⟨pc', rfl⟩
      · exact .ended htask'
      · refine .running t pc' htask' ?_
        rw [hshared, hframes']
        exact hok.step hids hspec List.mem_cons_self

theorem Zero.other (h : Zero i call p₀ steps cfg)
    (hspares : ∀ e ∈ reinitProgram.op cfg l, sparesLive cfg.shared e = true)
    (hstep : reinitProgram.step cfg l = some cfg') (hi : l.1 ≠ i) : Zero i call p₀ steps cfg' := by
  obtain ⟨f, fs, R, e, gs, sp, htask, hexec, hop, htask', hframes, hframes', hshared⟩ :=
    Program.step_task hstep
  have hspec : OpSpec cfg.shared f (gs ++ sp.flatten) e := exec_opSpec hexec
  have hids := h.ids
  rw [hframes] at hids
  refine ⟨idsOnce_step h.ids hstep, fun d hd hcovered => ?_, ?_, h.drained⟩
  · rw [hshared]
    exact covered_step hids hspec hd (h.covered d hd hcovered) (.inl (hspares e hop))
  · cases h.cycle with
    | ended hended => exact .ended (Program.step_other hstep hi hended)
    | running t pc hrunning hok =>
      refine .running t pc (Program.step_other hstep hi hrunning) ?_
      rw [hframes] at hok
      rw [hshared, hframes']
      exact hok.other hids hspec (hspares e hop)

/-- The first step of a cycle reads the map and the generations. -/
theorem zero_start {t : ℕ} {m : EndpointMap} {hash now : ℕ}
    (hids : IdsOnce cfg.shared.pool (pending cfg.frames))
    (htask : cfg.tasks[i]? = some [.reinitStart t])
    (hstep : reinitProgram.step cfg (i, .desired m hash now) = some cfg') :
    Zero i ⟨m, cfg.shared.hardswap, (chooseGeneration cfg.shared hash now).1⟩ cfg.shared.pool [] cfg' := by
  have hids' := idsOnce_step hids hstep
  obtain ⟨f, fs, R, e, gs, sp, htask', hexec, -, hnext, -, -, hshared⟩ := Program.step_task hstep
  cases htask'.symm.trans htask
  rw [List.append_nil] at hnext
  have hstart : exec cfg.shared (.reinitStart t) (.desired m hash now) = some (e, gs, sp) := hexec
  rw [exec] at hstart
  split at hstart
  · cases hstart
    exact ⟨hids', fun d hd h => hshared ▸ h, .ended hnext, drainedSafely_nil⟩
  · cases hstart
    refine ⟨hids', fun d hd h => ?_, .running t _ hnext ?_, drainedSafely_nil⟩
    · have hpool : cfg'.shared.pool = cfg.shared.pool := hshared ▸ (poolStep_begin hash now).1
      rwa [hpool]
    · intro ids hpc
      cases hswap : cfg.shared.hardswap <;> rw [hswap] at hpc <;> cases hpc

/-- A reinit cycle of task `i`, from the step that reads its map on: its groups keep a live writer, and
    its drains are safe. -/
theorem reinit_zero {start shadow passes families : ℕ} {hardswap multipath : Bool}
    {before during : List (ℕ × Answer)} {cfg₁ : ReinitConfig} {t : ℕ} {m : EndpointMap} {hash now : ℕ}
    (hbefore : run reinitProgram.step
      (initial (.new start hardswap multipath shadow passes families)) before = some cfg)
    (htask : cfg.tasks[i]? = some [.reinitStart t])
    (hstart : reinitProgram.step cfg (i, .desired m hash now) = some cfg₁)
    (hduring : reinitProgram.OthersMeet i (fun c e => sparesLive c.shared e) cfg₁ during)
    (hrun : run reinitProgram.step cfg₁ during = some cfg') :
    Zero i ⟨m, cfg.shared.hardswap, (chooseGeneration cfg.shared hash now).1⟩ cfg.shared.pool
      (reinitProgram.taskSteps i cfg₁ during) cfg' := by
  have hids : IdsOnce cfg.shared.pool (pending cfg.frames) :=
    run_invariant (I := fun c => IdsOnce c.shared.pool (pending c.frames))
      (fun _ _ _ => idsOnce_step) before (idsOnce_new start) hbefore
  refine Program.task_invariant (I := fun tr c => Zero i
    ⟨m, cfg.shared.hardswap, (chooseGeneration cfg.shared hash now).1⟩ cfg.shared.pool tr c) ?_ ?_
    during (zero_start hids htask hstart) hduring hrun
  · intro tr c l c' e h _ hstep hop hi
    exact h.own hstep hop hi
  · intro tr c l c' h hspares hstep hi
    exact h.other (hspares hi) hstep hi

end

/-- Nothing live is lost, as long as no other task removes or drains a live writer. A reinit cycle keeps
    every DC group of its map covered, and with a hardswap it drains writers of older generations only,
    while every group has enough of the new one. A `reconnect_all` or a shadow rotation keeps covered
    whatever was covered. -/
theorem zero_downtime_drain :
    (∀ {start shadow passes families : ℕ} {hardswap multipath : Bool}
      {before during : List (ℕ × Answer)} {cfg cfg₁ cfg' : ReinitConfig} {i t : ℕ} {m : EndpointMap}
      {hash now : ℕ},
      run reinitProgram.step (initial (.new start hardswap multipath shadow passes families)) before =
        some cfg →
      cfg.tasks[i]? = some [.reinitStart t] →
      reinitProgram.step cfg (i, .desired m hash now) = some cfg₁ →
      reinitProgram.OthersMeet i (fun c e => sparesLive c.shared e) cfg₁ during →
      run reinitProgram.step cfg₁ during = some cfg' →
      (∀ d ∈ m, Covered cfg.shared.pool d.2 → Covered cfg'.shared.pool d.2) ∧
      DrainedSafely ⟨m, cfg.shared.hardswap, (chooseGeneration cfg.shared hash now).1⟩
        (reinitProgram.taskSteps i cfg₁ during)) ∧
    (∀ {start : ℕ} {before during : List (ℕ × Replacement.Answer)}
      {cfg cfg' : Replacement.PassConfig} {i : ℕ} {f : Replacement.Frame},
      run Replacement.passProgram.step (Replacement.initial start) before = some cfg →
      cfg.tasks[i]? = some [f] → Replacement.startsPass f = true →
      Replacement.passProgram.OthersMeet i (fun c e => Replacement.sparesLive c.shared e) cfg during →
      run Replacement.passProgram.step cfg during = some cfg' →
      ∀ eps, Covered cfg.shared eps → Covered cfg'.shared eps) := by
  constructor
  · intro start shadow passes families hardswap multipath before during cfg cfg₁ cfg' i t m hash now
      hbefore htask hstart hduring hrun
    have hzero := reinit_zero hbefore htask hstart hduring hrun
    exact ⟨hzero.covered, hzero.drained⟩
  · intro start before during cfg cfg' i f hbefore htask hf hduring hrun eps hcovered
    exact Replacement.pass_keeps_covered hbefore htask hf hduring hrun hcovered

/-- A writer of generation 1, and then a hardswap cycle in task 2 that drains it. -/
def connectRun (addr : SocketAddr) : List (ℕ × Answer) :=
  [(0, .startConnect addr), (1, .go), (1, .established), (1, .go), (1, .go), (0, .startReinit)]

def drainRun (addr : SocketAddr) : List (ℕ × Answer) :=
  (((hardswapRun addr).drop 2).map fun l => (2, l.2)) ++ List.replicate 7 (2, .go)

/-- A writer, and then a `reconnect_all` in task 2 that replaces it. -/
def replacedRun (addr : SocketAddr) : List (ℕ × Replacement.Answer) :=
  [(0, .startConnect addr), (1, .established), (1, .go), (0, .startReconnectAll)]

def reconnectRun : List (ℕ × Replacement.Answer) :=
  [(2, .go), (2, .go), (2, .established), (2, .go), (2, .go), (2, .go), (2, .go)]

/-- The only writer of a DC is drained, by a hardswap and by `reconnect_all`. -/
theorem zero_downtime_drain_last_writer :
    let addr : SocketAddr := ⟨.v4 ⟨[127, 0, 0, 1], rfl⟩, 443⟩
    (∃ cfg cfg₁ cfg',
      run reinitProgram.step (initial (.new 1 true false 0 0 1)) (connectRun addr) = some cfg ∧
      reinitProgram.step cfg (2, .desired [(2, [addr])] 7 0) = some cfg₁ ∧
      run reinitProgram.step cfg₁ (drainRun addr) = some cfg' ∧
      cfg'.shared.pool.draining 1 = true ∧ Covered cfg'.shared.pool [addr]) ∧
    ∃ cfg cfg', run Replacement.passProgram.step (Replacement.initial 1) (replacedRun addr) = some cfg ∧
      run Replacement.passProgram.step cfg reconnectRun = some cfg' ∧
      cfg'.shared.draining 1 = true ∧ Covered cfg'.shared [addr] := by
  intro addr
  constructor
  · have heval : (run reinitProgram.step (initial (.new 1 true false 0 0 1)) (connectRun addr)).bind
        (fun cfg => (reinitProgram.step cfg (2, .desired [(2, [addr])] 7 0)).bind fun cfg₁ =>
          (run reinitProgram.step cfg₁ (drainRun addr)).map fun cfg' =>
            decide (cfg.tasks[2]? = some [.reinitStart 1] ∧ ⟨1, addr⟩ ∈ cfg.shared.pool.live ∧
              reinitProgram.OthersMeet 2 (fun c e => sparesLive c.shared e) cfg₁ (drainRun addr) ∧
              cfg'.shared.pool.draining 1 = true)) = some true := by decide +kernel
    simp only [Option.bind_eq_some_iff, Option.map_eq_some_iff, decide_eq_true_eq] at heval
    obtain ⟨cfg, hbefore, cfg₁, hstart, cfg', hrun, htask, hlive, hduring, hdrained⟩ := heval
    refine ⟨cfg, cfg₁, cfg', hbefore, hstart, hrun, hdrained, ?_⟩
    exact (zero_downtime_drain.1 hbefore htask hstart hduring hrun).1 _ List.mem_cons_self
      ⟨_, hlive, List.mem_cons_self⟩
  · have heval : (run Replacement.passProgram.step (Replacement.initial 1) (replacedRun addr)).bind
        (fun cfg => (run Replacement.passProgram.step cfg reconnectRun).map fun cfg' =>
          decide (cfg.tasks[2]? = some [.reconnectAll] ∧ ⟨1, addr⟩ ∈ cfg.shared.live ∧
            Replacement.passProgram.OthersMeet 2 (fun c e => Replacement.sparesLive c.shared e) cfg
              reconnectRun ∧ cfg'.shared.draining 1 = true)) = some true := by decide +kernel
    simp only [Option.bind_eq_some_iff, Option.map_eq_some_iff, decide_eq_true_eq] at heval
    obtain ⟨cfg, hbefore, cfg', hrun, htask, hlive, hduring, hdrained⟩ := heval
    refine ⟨cfg, cfg', hbefore, hrun, hdrained, ?_⟩
    exact zero_downtime_drain.2 hbefore htask rfl hduring hrun _ ⟨_, hlive, List.mem_cons_self⟩

end MtProxy.MiddleProxy.Reinit
