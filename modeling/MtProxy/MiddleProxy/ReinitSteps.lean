import MtProxy.MiddleProxy.Reinit
import MtProxy.MiddleProxy.WriterIds

/-! What a step of the reinit cycles and of the tasks next to them can be. `pushIds` are the ids a frame
    is about to push a writer under, and `doomed` the writers a cycle is about to drain, once it has
    decided to drain at all.

        … survey ──covered──▶ promote, stale ──▶ drain
          doomed = none       some []            some [w₁, w₂, …]

    `exec_opSpec` reads off the program which frame performs an operation; the invariants of the cycles
    are proved from it. -/

namespace MtProxy.MiddleProxy.Reinit
open Schemes

/-- The writers a cycle is going to drain, if it has decided to. -/
def doomed : ReinitPc → Option (List ℕ)
  | .promoteAsk | .promote | .stale => some []
  | .drain todo => some todo
  | .ask (.drain w todo) | .guarded (.drain w todo) => some (w :: todo)
  | _ => none

/-- The ids a frame is about to push a writer under. -/
def pushIds : Frame → Multiset ℕ
  | .reinit _ _ (.ask (.warmupPush w ..)) | .reinit _ _ (.guarded (.warmupPush w ..)) => {w.id}
  | .reinit _ _ (.ask (.reconcilePush w ..)) | .reinit _ _ (.guarded (.reconcilePush w ..)) => {w.id}
  | .other _ (some (.push w ..)) | .otherGuarded _ (some (.push w ..)) => {w.id}
  | _ => 0

/-- A frame of a cycle comes from one of the same cycle. It decides to drain without a hardswap if no
    DC group is missing, and what it drains are the stale writers. -/
def CycleNext (s : ReinitPool) (f g : Frame) : Prop :=
  ∀ t call pc', g = .reinit t call pc' → ∃ pc, f = .reinit t call pc ∧
    (doomed pc' = none → doomed pc = none) ∧
    ∀ ids', doomed pc' = some ids' →
      (∃ ids, doomed pc = some ids ∧ ids' ⊆ ids) ∨
      (pc = .stale ∧ ids' = staleWriterIds s call) ∨
      (doomed pc = none ∧ call.hardswap = false ∧ missingDc s call.desired = [] ∧ ids' = [])

/-- A step that does nothing to the list and to the generations. -/
structure KeepSpec (s : ReinitPool) (f : Frame) (gs : List Frame) : Prop where
  pushes : (gs.map pushIds).sum = pushIds f
  cycle : ∀ g ∈ gs, CycleNext s f g

/-- The step that performs an operation: its frame, and the frames that follow. -/
def OpSpec (s : ReinitPool) (f : Frame) (gs : List Frame) : ReinitOp → Prop
  | .begin hash now => ∃ t m pc, m ≠ [] ∧ f = .reinitStart t ∧ doomed pc = none ∧
      pushIds (.reinit t ⟨m, s.hardswap, (chooseGeneration s hash now).1⟩ pc) = 0 ∧
      gs = [.reinit t ⟨m, s.hardswap, (chooseGeneration s hash now).1⟩ pc]
  | .allocId => pushIds f = 0 ∧ ∃ g, gs = [g] ∧ pushIds g = {s.pool.nextWriterId} ∧ CycleNext s f g
  | .update _ (.push w _ _) => pushIds f = {w.id} ∧
      ∀ g ∈ gs, pushIds g = 0 ∧ CycleNext s f g
  | .update t (.markDraining w) =>
      (∃ call todo, f = .reinit t call (.guarded (.drain w todo)) ∧
        gs = [.reinit t call (.drain todo)]) ∨
      f = .otherGuarded t (some (.markDraining w)) ∧ gs = []
  | .update t u => f = .otherGuarded t (some u) ∧ gs = []
  | .activate g => ∃ t call, f = .reinit t call .survey ∧ call.hardswap = true ∧
      g = call.generation ∧ freshMissingDc s call = [] ∧ gs = [.reinit t call .promoteAsk]
  | _ => KeepSpec s f gs

section
variable {s : ReinitPool} {f : Frame} {a : Answer} {e : ReinitOp} {fs : List Frame}
  {sp : List (List Frame)}

/-- A frame of a cycle that has not decided to drain, before and after a step. -/
theorem cycleNext_undecided {t : ℕ} {call : ReinitCall} {pc pc' : ReinitPc} (hpc : doomed pc = none)
    (hpc' : doomed pc' = none) : CycleNext s (.reinit t call pc) (.reinit t call pc') := by
  intro t' call' pc'' hg
  cases hg
  refine ⟨pc, rfl, fun _ => hpc, fun ids hids => ?_⟩
  cases hpc'.symm.trans hids

theorem cycleNext_decided {t : ℕ} {call : ReinitCall} {pc pc' : ReinitPc} {ids ids' : List ℕ}
    (hpc : doomed pc = some ids) (hpc' : doomed pc' = some ids') (hsub : ids' ⊆ ids) :
    CycleNext s (.reinit t call pc) (.reinit t call pc') := by
  intro t' call' pc'' hg
  cases hg
  refine ⟨pc, rfl, fun hnone => ?_, fun ids'' hids => .inl ⟨ids, hpc, ?_⟩⟩
  · cases hpc'.symm.trans hnone
  · cases hpc'.symm.trans hids
    exact hsub

theorem keepSpec_single {g : Frame} (hpush : pushIds g = pushIds f) (hcycle : CycleNext s f g) :
    KeepSpec s f [g] := by
  refine ⟨?_, List.forall_mem_singleton.mpr hcycle⟩
  rw [List.map_singleton, List.sum_singleton, hpush]

theorem keepSpec_ended (hpush : pushIds f = 0) : KeepSpec s f [] := ⟨hpush.symm, nofun⟩

theorem runSection_opSpec {t : ℕ} {call : ReinitCall} {what : Section}
    (h : runSection s t call what = some (e, fs, sp)) :
    OpSpec s (.reinit t call (.guarded what)) (fs ++ sp.flatten) e := by
  cases what <;> cases h
  case warmupPush | reconcilePush =>
    exact ⟨rfl, List.forall_mem_singleton.mpr ⟨rfl, cycleNext_undecided rfl rfl⟩⟩
  case drain w todo => exact .inl ⟨call, todo, rfl, rfl⟩
  all_goals exact keepSpec_single rfl (cycleNext_undecided rfl rfl)

theorem ask_opSpec (t : ℕ) (call : ReinitCall) (what : Section) :
    KeepSpec s (.reinit t call (.ask what)) [.reinit t call (.guarded what)] := by
  cases what with
  | drain w todo => exact keepSpec_single rfl (cycleNext_decided rfl rfl (List.Subset.refl _))
  | _ => exact keepSpec_single rfl (cycleNext_undecided rfl rfl)

theorem reinitStep_opSpec {t : ℕ} {call : ReinitCall} {pc : ReinitPc}
    (h : reinitStep s t call pc a = some (e, fs, sp)) :
    OpSpec s (.reinit t call pc) (fs ++ sp.flatten) e := by
  revert h
  fun_cases reinitStep s t call pc a <;> intro h
  all_goals first
    | exact runSection_opSpec h
    | cases h
  all_goals first
    | exact ask_opSpec t call _
    | exact keepSpec_single rfl (cycleNext_undecided rfl rfl)
    | exact keepSpec_single rfl (cycleNext_decided rfl rfl (List.Subset.refl _))
    | exact keepSpec_ended rfl
    | exact ⟨rfl, _, rfl, rfl, cycleNext_undecided rfl rfl⟩
    | skip
  -- left: the decisions of the survey, the choice of the stale writers, and the end
  case case24.refl hswap hfresh => exact ⟨t, call, rfl, hswap, rfl, hfresh, rfl⟩
  case case27.refl below hswap hkeep =>
    refine keepSpec_single rfl ?_
    rintro t' call' pc' ⟨⟩
    refine ⟨_, rfl, nofun, fun ids hids => .inr (.inr ⟨rfl, ?_, ?_, (Option.some.inj hids).symm⟩)⟩
    · exact Bool.eq_false_iff.mpr hswap
    · exact not_not.mp fun hmissing => hkeep (.inr hmissing)
  case case31.refl =>
    refine keepSpec_single rfl ?_
    rintro t' call' pc' ⟨⟩
    exact ⟨_, rfl, nofun, fun ids hids => .inr (.inl ⟨rfl, (Option.some.inj hids).symm⟩)⟩
  case case32.refl => cases call.hardswap <;> exact keepSpec_ended rfl

theorem pushIds_other (t : ℕ) (u : Option ListUpdate) :
    pushIds (.otherGuarded t u) = pushIds (.other t u) := by
  rcases u with _ | u
  · rfl
  · cases u <;> rfl

theorem pushIds_other_eq_zero (t : ℕ) {u : Option ListUpdate} (h : addsWriter u = false) :
    pushIds (.other t u) = 0 := by
  rcases u with _ | u
  · rfl
  · cases u with
    | push w generation contour => cases h
    | _ => rfl

/-- Every step of every task, by its operation. -/
theorem exec_opSpec (h : exec s f a = some (e, fs, sp)) : OpSpec s f (fs ++ sp.flatten) e := by
  revert h
  fun_cases exec s f a <;> intro h
  all_goals first
    | exact reinitStep_opSpec h
    | cases h
  case case4 u hu =>
    have hids := pushIds_other_eq_zero s.nextTask (Bool.not_eq_true _ ▸ hu)
    have hproxy : pushIds .proxy = 0 := rfl
    constructor <;> simp [hids, hproxy, CycleNext]
  case case7 t m hash now hm call =>
    refine ⟨t, m, _, hm, rfl, ?_, ?_, rfl⟩ <;> cases s.hardswap <;> rfl
  case case12 t u =>
    constructor <;> simp [pushIds_other, CycleNext]
  case case15 t u hheld =>
    cases u <;> simp [OpSpec, pushIds]
  all_goals constructor <;> simp_all [pushIds, CycleNext]

end

/-! ### What a step does to a cycle -/

/-- How a cycle at `pc` comes to be about to drain `ids`. -/
inductive Decides (s : ReinitPool) (call : ReinitCall) (pc : ReinitPc) (e : ReinitOp)
    (ids : List ℕ) : Prop
  | still (before : List ℕ) (hpc : doomed pc = some before) (hsub : ids ⊆ before)
  | stale (hpc : pc = .stale) (hids : ids = staleWriterIds s call)
  | hardswap (hop : e = .activate call.generation) (hids : ids = []) (hswap : call.hardswap = true)
    (hfresh : freshMissingDc s call = [])
  | covered (hpc : doomed pc = none) (hids : ids = []) (hswap : call.hardswap = false)
    (hmissing : missingDc s call.desired = [])

/-- A frame of a cycle is its first one, or follows one of the same cycle. -/
inductive CycleStep (s : ReinitPool) (f : Frame) (t : ℕ) (call : ReinitCall) (pc' : ReinitPc)
    (e : ReinitOp) : Prop
  | start (hash now : ℕ) (hf : f = .reinitStart t) (hop : e = .begin hash now)
    (hswap : call.hardswap = s.hardswap) (hgen : call.generation = (chooseGeneration s hash now).1)
    (hpc' : doomed pc' = none)
  | next (pc : ReinitPc) (hf : f = .reinit t call pc) (hnone : doomed pc' = none → doomed pc = none)
    (hsome : ∀ ids, doomed pc' = some ids → Decides s call pc e ids)

section
variable {s : ReinitPool} {f g : Frame} {e : ReinitOp} {gs : List Frame} {t : ℕ} {call : ReinitCall}
  {pc' : ReinitPc}

theorem CycleNext.cycleStep (h : CycleNext s f (.reinit t call pc')) :
    CycleStep s f t call pc' e := by
  obtain ⟨pc, hf, hnone, hsome⟩ := h t call pc' rfl
  refine .next pc hf hnone fun ids' hids' => ?_
  rcases hsome ids' hids' with ⟨ids, hids, hsub⟩ | ⟨hpc, hids⟩ | ⟨hpc, hswap, hmissing, hids⟩
  · exact .still ids hids hsub
  · exact .stale hpc hids
  · exact .covered hpc hids hswap hmissing

theorem cycleStep_of_opSpec (hspec : OpSpec s f gs e) (hg : .reinit t call pc' ∈ gs) :
    CycleStep s f t call pc' e := by
  cases e with
  | begin hash now =>
    obtain ⟨t, m, pc, -, rfl, hpc, -, rfl⟩ := hspec
    cases List.mem_singleton.mp hg
    exact .start hash now rfl rfl rfl rfl hpc
  | allocId =>
    obtain ⟨-, g, rfl, -, hcycle⟩ := hspec
    cases List.mem_singleton.mp hg
    exact hcycle.cycleStep
  | activate g =>
    obtain ⟨t, call, rfl, hswap, rfl, hfresh, rfl⟩ := hspec
    cases List.mem_singleton.mp hg
    refine .next .survey rfl (fun _ => rfl) fun ids hids => ?_
    cases hids
    exact .hardswap rfl rfl hswap hfresh
  | update t u =>
    cases u with
    | push w generation contour => exact (hspec.2 _ hg).2.cycleStep
    | markDraining w =>
      rcases hspec with ⟨call, todo, rfl, rfl⟩ | ⟨rfl, rfl⟩
      · cases List.mem_singleton.mp hg
        refine .next _ rfl nofun fun ids hids => ?_
        cases hids
        exact .still _ rfl (List.subset_cons_self w todo)
      · cases hg
    | remove w =>
      obtain ⟨rfl, rfl⟩ := hspec
      cases hg
    | retain w =>
      obtain ⟨rfl, rfl⟩ := hspec
      cases hg
  | _ => exact (hspec.cycle _ hg).cycleStep

end

/-! ### What a step does to the pool -/

section
variable {s : ReinitPool} {f : Frame} {e : ReinitOp} {gs : List Frame} {R : Multiset Frame}

/-- An update that adds no writer shrinks the list, and only writers in it begin to drain. -/
theorem shrinks_update {u : ListUpdate} (hu : ∀ w generation contour, u ≠ .push w generation contour) :
    Shrinks s.pool (u.effect s).pool := by
  cases u with
  | push w generation contour => exact absurd rfl (hu w generation contour)
  | remove w =>
    rw [ListUpdate.effect]
    split
    · exact ⟨List.eraseP_sublist, rfl, fun _ h => .inl h⟩
    · exact shrinks_refl _
  | retain w => exact ⟨List.filter_sublist, rfl, fun _ h => .inl h⟩
  | markDraining w =>
    rw [ListUpdate.effect]
    split
    · next hw =>
      refine ⟨.refl _, rfl, fun v hv => ?_⟩
      by_cases hvw : v = w
      · exact .inr (hvw ▸ hw)
      · exact .inl (by simpa [PoolOp.effect, Function.update_of_ne hvw] using hv)
    · exact shrinks_refl _

theorem generationOf_update {u : ListUpdate}
    (hu : ∀ w generation contour, u ≠ .push w generation contour) :
    (u.effect s).generationOf = s.generationOf := by
  cases u with
  | push w generation contour => exact absurd rfl (hu w generation contour)
  | retain w => rfl
  | remove w =>
    rw [ListUpdate.effect]
    split <;> rfl
  | markDraining w =>
    rw [ListUpdate.effect]
    split <;> rfl

/-- What a step does to the writers: to their ids, and to the generation of the ids its frame was not to
    push. -/
structure PoolStep (s : ReinitPool) (f : Frame) (gs : List Frame) (s' : ReinitPool) : Prop where
  ids : IdStep s.pool (pushIds f) (gs.map pushIds).sum s'.pool
  generation : ∀ w, w ∉ pushIds f → s'.generationOf w = s.generationOf w

theorem poolStep_shrink {s' : ReinitPool} (hgs : (gs.map pushIds).sum = pushIds f)
    (hpool : Shrinks s.pool s'.pool) (hgen : s'.generationOf = s.generationOf) :
    PoolStep s f gs s' := ⟨.shrink hgs.le hpool, fun w _ => congrFun hgen w⟩

theorem poolStep_begin (hash now : ℕ) :
    ((ReinitOp.begin hash now).effect s).pool = s.pool ∧
      ((ReinitOp.begin hash now).effect s).generationOf = s.generationOf := by
  simp only [ReinitOp.effect, chooseGeneration, clearPendingHardswapState]
  split_ifs <;> exact ⟨rfl, rfl⟩

theorem poolStep_of_opSpec (hspec : OpSpec s f gs e) : PoolStep s f gs (e.effect s) := by
  cases e with
  | allocId =>
    obtain ⟨hf, g, rfl, hg, -⟩ := hspec
    exact ⟨.alloc hf (by simp [hg]) rfl, fun _ _ => rfl⟩
  | begin hash now =>
    obtain ⟨t, m, pc, -, rfl, -, hids, rfl⟩ := hspec
    obtain ⟨hpool, hgen⟩ := poolStep_begin hash now (s := s)
    refine poolStep_shrink ?_ (hpool ▸ shrinks_refl _) hgen
    rw [List.map_singleton, List.sum_singleton, hids]
    rfl
  | activate g =>
    obtain ⟨t, call, rfl, -, -, -, rfl⟩ := hspec
    exact poolStep_shrink rfl (shrinks_refl _) rfl
  | update t u =>
    cases u with
    | push w generation contour =>
      obtain ⟨hf, hgs⟩ := hspec
      refine ⟨.push w hf (List.sum_eq_zero fun x hx => ?_) rfl, fun v hv => ?_⟩
      · obtain ⟨g, hg, rfl⟩ := List.mem_map.mp hx
        exact (hgs g hg).1
      · rw [hf, Multiset.mem_singleton] at hv
        exact Function.update_of_ne hv ..
    | markDraining w =>
      have hids : (gs.map pushIds).sum = pushIds f := by
        rcases hspec with ⟨call, todo, rfl, rfl⟩ | ⟨rfl, rfl⟩ <;> rfl
      exact poolStep_shrink hids (shrinks_update nofun) (generationOf_update nofun)
    | remove w =>
      obtain ⟨rfl, rfl⟩ := hspec
      exact poolStep_shrink rfl (shrinks_update nofun) (generationOf_update nofun)
    | retain w =>
      obtain ⟨rfl, rfl⟩ := hspec
      exact poolStep_shrink rfl (shrinks_update nofun) (generationOf_update nofun)
  | _ => exact poolStep_shrink hspec.pushes (shrinks_refl _) rfl

/-- The ids that are about to be pushed. -/
def pending (M : Multiset Frame) : Multiset ℕ := holdings pushIds M

theorem pending_cons : pending (f ::ₘ R) = pushIds f + pending R := holdings_cons

theorem pending_add : pending ((gs : Multiset Frame) + R) = (gs.map pushIds).sum + pending R :=
  holdings_add gs

variable {s' : ReinitPool}

theorem PoolStep.idsOnce (hstep : PoolStep s f gs s') (h : IdsOnce s.pool (pending (f ::ₘ R))) :
    IdsOnce s'.pool (pending ((gs : Multiset Frame) + R)) := by
  rw [pending_cons] at h
  rw [pending_add]
  exact hstep.ids.idsOnce h

/-- What is settled stays settled, with its generation. -/
theorem PoolStep.settled (hstep : PoolStep s f gs s') {w : ℕ}
    (h : Settled s.pool (pending (f ::ₘ R)) w) :
    Settled s'.pool (pending ((gs : Multiset Frame) + R)) w ∧
      s'.generationOf w = s.generationOf w := by
  rw [pending_cons] at h
  rw [pending_add]
  refine ⟨hstep.ids.settled h, hstep.generation w fun hmem => ?_⟩
  exact h.2 (Multiset.mem_add.mpr (.inl hmem))

theorem PoolStep.mem_writers (hstep : PoolStep s f gs s') {v : MeWriter}
    (hsettled : Settled s.pool (pending (f ::ₘ R)) v.id) (hv : v ∈ s'.pool.writers) :
    v ∈ s.pool.writers := by
  rw [pending_cons] at hsettled
  exact hstep.ids.mem_writers hsettled hv

end

theorem idsOnce_step {cfg cfg' : ReinitConfig} {l : ℕ × Answer}
    (h : IdsOnce cfg.shared.pool (pending cfg.frames))
    (hstep : reinitProgram.step cfg l = some cfg') :
    IdsOnce cfg'.shared.pool (pending cfg'.frames) := by
  obtain ⟨f, R, e, fs, sp, hx, -, hframes, hframes', hshared, -⟩ := Program.step_frames hstep
  rw [hframes] at h
  rw [hframes', hshared]
  exact (poolStep_of_opSpec (exec_opSpec hx)).idsOnce h

end MtProxy.MiddleProxy.Reinit
