import MtProxy.MiddleProxy.WritersLock

/-! The generations of the pool. `generation` counts up, `active_generation` is the one new writers get,
    and a hardswap cycle stores the generation it has chosen at its start when it promotes it, after a
    warm-up that may take long.

        A   generation 2 ──────── warm-up ────────────────────▶ active := 2
        B        generation 3 ── warm-up ──▶ active := 3

    The choice looks at the active generation, the promotion does not: a cycle that was overtaken by a
    younger one sets the active generation back. It never goes backwards in the runs where no cycle
    promotes while an older one is still before its promotion. That the active generation is one that was
    counted, and that a hardswap drains older writers only, holds in every run. -/

namespace MtProxy.MiddleProxy.Reinit
open Schemes

/-- The generation of a hardswap cycle that is still before its promotion. -/
def warming : Frame → Option ℕ
  | .reinit _ call pc => if call.hardswap ∧ doomed pc = none then some call.generation else none
  | _ => none

/-- A hardswap cycle with a generation below `g` is before its promotion. -/
def older (g : ℕ) (f : Frame) : Bool := (warming f).any (· < g)

/-- No cycle promotes its generation while an older one is still before its promotion. -/
def noOvertaking (cfg : ReinitConfig) : ReinitOp → Bool
  | .activate g => !cfg.tasks.flatten.any (older g)
  | _ => true

/-- A hardswap cycle is about to drain older writers only. -/
def DrainsOlder (cfg : ReinitConfig) : Prop :=
  ∀ t call w todo, call.hardswap = true → .reinit t call (.guarded (.drain w todo)) ∈ cfg.frames →
    cfg.shared.generationOf w < call.generation

/-- Every generation in use was counted, and the writers a hardswap is to drain are older. -/
structure Counted (s : ReinitPool) (M : Multiset Frame) : Prop where
  ids : IdsOnce s.pool (pending M)
  active : s.activeGeneration ≤ s.generation
  pendingGen : s.pendingGeneration ≤ s.generation
  call : ∀ t call pc, .reinit t call pc ∈ M → call.generation ≤ s.generation
  drains : ∀ t call pc ids, .reinit t call pc ∈ M → call.hardswap = true → doomed pc = some ids →
    ∀ w ∈ ids, Settled s.pool (pending M) w ∧ s.generationOf w < call.generation

/-- Nobody before its promotion has been overtaken. -/
def NotOvertaken (s : ReinitPool) (M : Multiset Frame) : Prop :=
  ∀ f ∈ M, ∀ g, warming f = some g → s.activeGeneration ≤ g

section
variable {s : ReinitPool} {f : Frame} {e : ReinitOp} {gs : List Frame} {R : Multiset Frame}

/-! ### What a step does to the counters -/

/-- The choice of a generation counts it. -/
theorem chooseGeneration_spec (hactive : s.activeGeneration ≤ s.generation)
    (hpending : s.pendingGeneration ≤ s.generation) (hash now : ℕ) :
    let r := chooseGeneration s hash now
    r.2.activeGeneration = s.activeGeneration ∧ s.generation ≤ r.2.generation ∧
      r.2.pendingGeneration ≤ r.2.generation ∧ s.activeGeneration ≤ r.1 ∧ r.1 ≤ r.2.generation := by
  intro r
  simp only [r, chooseGeneration]
  split
  · split
    · next hreuse =>
      simp only [reusesPending, decide_eq_true_eq] at hreuse
      exact ⟨rfl, le_refl _, hpending, hreuse.2.1, hpending⟩
    · exact ⟨rfl, Nat.le_succ _, le_refl _, hactive.trans (Nat.le_succ _), le_refl _⟩
  · exact ⟨rfl, Nat.le_succ _, Nat.zero_le _, hactive.trans (Nat.le_succ _), le_refl _⟩

/-- What a step can do to the counters. -/
inductive CounterStep (s : ReinitPool) (e : ReinitOp) (s' : ReinitPool) : Prop
  | chosen (hash now : ℕ) (hop : e = .begin hash now) (hs' : s' = (chooseGeneration s hash now).2)
  | activated (g : ℕ) (hop : e = .activate g) (hactive : s'.activeGeneration = g)
    (hgen : s'.generation = s.generation) (hpending : s'.pendingGeneration = s.pendingGeneration)
  | kept (hactive : s'.activeGeneration = s.activeGeneration) (hgen : s'.generation = s.generation)
    (hpending : s'.pendingGeneration ≤ s.pendingGeneration)

theorem counterStep (e : ReinitOp) (s : ReinitPool) : CounterStep s e (e.effect s) := by
  cases e with
  | begin hash now => exact .chosen hash now rfl rfl
  | activate g => exact .activated g rfl rfl rfl rfl
  | clearPending => exact .kept rfl rfl (Nat.zero_le _)
  | update t u =>
    cases u with
    | push w generation contour => exact .kept rfl rfl (le_refl _)
    | retain w => exact .kept rfl rfl (le_refl _)
    | remove w =>
      rw [ReinitOp.effect, ListUpdate.effect]
      split <;> exact .kept rfl rfl (le_refl _)
    | markDraining w =>
      rw [ReinitOp.effect, ListUpdate.effect]
      split <;> exact .kept rfl rfl (le_refl _)
  | _ => exact .kept rfl rfl (le_refl _)

theorem Counted.generation_le (h : Counted s (f ::ₘ R)) (e : ReinitOp) :
    s.generation ≤ (e.effect s).generation := by
  cases counterStep e s with
  | chosen hash now hop hs' =>
    rw [hs']
    exact (chooseGeneration_spec h.active h.pendingGen hash now).2.1
  | activated g hop hactive hgen hpending => rw [hgen]
  | kept hactive hgen hpending => rw [hgen]

/-! ### The steps -/

theorem mem_staleWriterIds {call : ReinitCall} {w : ℕ} (h : w ∈ staleWriterIds s call)
    (hswap : call.hardswap = true) : w ∈ s.pool.writerIds ∧ s.generationOf w < call.generation := by
  obtain ⟨v, hv, rfl⟩ := List.mem_map.mp h
  obtain ⟨hlive, hstale⟩ := List.mem_filter.mp hv
  refine ⟨mem_writerIds (List.mem_filter.mp hlive).1, ?_⟩
  simpa [hswap] using hstale

theorem Counted.call_step (h : Counted s (f ::ₘ R)) (hspec : OpSpec s f gs e) {t : ℕ}
    {call : ReinitCall} {pc' : ReinitPc} (hg : .reinit t call pc' ∈ (gs : Multiset Frame) + R) :
    call.generation ≤ (e.effect s).generation := by
  rcases Multiset.mem_add.mp hg with hg | hg
  · cases cycleStep_of_opSpec hspec hg with
    | start hash now hf hop hswap hgen hpc' =>
      rw [hop, hgen]
      exact (chooseGeneration_spec h.active h.pendingGen hash now).2.2.2.2
    | next pc hf hnone hsome =>
      exact (h.call t call pc (hf ▸ Multiset.mem_cons_self _ _)).trans (h.generation_le e)
  · exact (h.call t call pc' (Multiset.mem_cons_of_mem hg)).trans (h.generation_le e)

theorem Counted.drains_step (h : Counted s (f ::ₘ R)) (hspec : OpSpec s f gs e) {t : ℕ}
    {call : ReinitCall} {pc' : ReinitPc} {ids : List ℕ}
    (hg : .reinit t call pc' ∈ (gs : Multiset Frame) + R) (hswap : call.hardswap = true)
    (hpc' : doomed pc' = some ids) {w : ℕ} (hw : w ∈ ids) :
    Settled (e.effect s).pool (pending ((gs : Multiset Frame) + R)) w ∧
      (e.effect s).generationOf w < call.generation := by
  have hpool := poolStep_of_opSpec hspec
  -- what was known before the step is still known
  have hkeep : Settled s.pool (pending (f ::ₘ R)) w ∧ s.generationOf w < call.generation →
      Settled (e.effect s).pool (pending ((gs : Multiset Frame) + R)) w ∧
        (e.effect s).generationOf w < call.generation := by
    rintro ⟨hsettled, hlt⟩
    obtain ⟨hsettled', hgen⟩ := hpool.settled hsettled
    exact ⟨hsettled', hgen ▸ hlt⟩
  rcases Multiset.mem_add.mp hg with hg | hg
  · cases cycleStep_of_opSpec hspec hg with
    | start hash now hf hop hswap hgen hnone => cases hnone.symm.trans hpc'
    | next pc hf hnone hsome =>
      subst hf
      cases hsome ids hpc' with
      | still before hpc hsub =>
        exact hkeep (h.drains t call pc before (Multiset.mem_cons_self _ _) hswap hpc w (hsub hw))
      | stale hpc hids =>
        obtain ⟨hmem, hlt⟩ := mem_staleWriterIds (hids ▸ hw) hswap
        exact hkeep ⟨h.ids.settled hmem, hlt⟩
      | hardswap hop hids hswap hfresh =>
        rw [hids] at hw
        cases hw
      | covered hpc hids hswap hmissing =>
        rw [hids] at hw
        cases hw
  · exact hkeep (h.drains t call pc' ids (Multiset.mem_cons_of_mem hg) hswap hpc' w hw)

theorem Counted.step (h : Counted s (f ::ₘ R)) (hspec : OpSpec s f gs e) :
    Counted (e.effect s) ((gs : Multiset Frame) + R) := by
  refine ⟨(poolStep_of_opSpec hspec).idsOnce h.ids, ?_, ?_, fun t call pc hg => h.call_step hspec hg,
    fun t call pc ids hg hswap hpc w hw => h.drains_step hspec hg hswap hpc hw⟩
  · cases counterStep e s with
    | chosen hash now hop hs' =>
      obtain ⟨hactive, hgen, -⟩ := chooseGeneration_spec h.active h.pendingGen hash now
      rw [hs', hactive]
      exact h.active.trans hgen
    | activated g hop hactive hgen hpending =>
      rw [hop] at hspec
      obtain ⟨t, call, rfl, -, rfl, -, -⟩ := hspec
      rw [hactive, hgen]
      exact h.call t call .survey (Multiset.mem_cons_self _ _)
    | kept hactive hgen hpending =>
      rw [hactive, hgen]
      exact h.active
  · cases counterStep e s with
    | chosen hash now hop hs' =>
      rw [hs']
      exact (chooseGeneration_spec h.active h.pendingGen hash now).2.2.1
    | activated g hop hactive hgen hpending =>
      rw [hpending, hgen]
      exact h.pendingGen
    | kept hactive hgen hpending =>
      rw [hgen]
      exact hpending.trans h.pendingGen

theorem warming_reinit {t g : ℕ} {call : ReinitCall} {pc : ReinitPc} :
    warming (.reinit t call pc) = some g ↔
      call.hardswap = true ∧ doomed pc = none ∧ call.generation = g := by
  simp [warming, and_assoc]

theorem warming_some {g : ℕ} (h : warming f = some g) :
    ∃ t call pc, f = .reinit t call pc ∧ doomed pc = none ∧ call.generation = g := by
  cases f with
  | reinit t call pc =>
    obtain ⟨-, hpc, hgen⟩ := warming_reinit.mp h
    exact ⟨t, call, pc, rfl, hpc, hgen⟩
  | _ => cases h

/-- A cycle before its promotion has just chosen its generation, or was before its promotion. -/
theorem warming_step (hspec : OpSpec s f gs e) {g' : Frame} (hg' : g' ∈ gs) {g : ℕ}
    (hwarm : warming g' = some g) :
    (∃ hash now, e = .begin hash now ∧ g = (chooseGeneration s hash now).1) ∨
      warming f = some g := by
  obtain ⟨t, call, pc', rfl, hpc', rfl⟩ := warming_some hwarm
  cases cycleStep_of_opSpec hspec hg' with
  | start hash now hf hop hswap hgen hpc' => exact .inl ⟨hash, now, hop, hgen⟩
  | next pc hf hnone hsome =>
    rw [hf, warming_reinit]
    exact .inr ⟨(warming_reinit.mp hwarm).1, hnone hpc', rfl⟩

/-- The promotion of the active generation is that of a cycle before its promotion. -/
theorem warming_of_activate {g : ℕ} (hspec : OpSpec s f gs (.activate g)) : warming f = some g := by
  obtain ⟨t, call, rfl, hswap, rfl, -, -⟩ := hspec
  exact warming_reinit.mpr ⟨hswap, rfl, rfl⟩

theorem active_le_step (h : Counted s (f ::ₘ R)) (hwarm : NotOvertaken s (f ::ₘ R))
    (hspec : OpSpec s f gs e) : s.activeGeneration ≤ (e.effect s).activeGeneration := by
  cases counterStep e s with
  | chosen hash now hop hs' =>
    rw [hs', (chooseGeneration_spec h.active h.pendingGen hash now).1]
  | activated g hop hactive hgen hpending =>
    subst hop
    rw [hactive]
    exact hwarm f (Multiset.mem_cons_self _ _) g (warming_of_activate hspec)
  | kept hactive hgen hpending => rw [hactive]

theorem notOvertaken_step (h : Counted s (f ::ₘ R)) (hwarm : NotOvertaken s (f ::ₘ R))
    (hspec : OpSpec s f gs e)
    (hno : ∀ g, e = .activate g → ∀ f' ∈ f ::ₘ R, ∀ g', warming f' = some g' → g ≤ g') :
    NotOvertaken (e.effect s) ((gs : Multiset Frame) + R) := by
  intro g' hg' g hg
  -- the frame was there, or follows one that was, unless its cycle begins
  have hbefore : (∃ hash now, e = .begin hash now ∧ g = (chooseGeneration s hash now).1) ∨
      ∃ f' ∈ f ::ₘ R, warming f' = some g := by
    rcases Multiset.mem_add.mp hg' with hg' | hg'
    · exact (warming_step hspec hg' hg).imp_right fun hf => ⟨f, Multiset.mem_cons_self _ _, hf⟩
    · exact .inr ⟨g', Multiset.mem_cons_of_mem hg', hg⟩
  cases counterStep e s with
  | chosen hash now hop hs' =>
    obtain ⟨hactive, -, -, hle, -⟩ := chooseGeneration_spec h.active h.pendingGen hash now
    rw [hs', hactive]
    rcases hbefore with ⟨hash', now', hop', rfl⟩ | ⟨f', hf', hwarm'⟩
    · cases hop.symm.trans hop'
      exact hle
    · exact hwarm f' hf' g hwarm'
  | activated a hop hactive hgen hpending =>
    rw [hactive]
    rcases hbefore with ⟨hash', now', hop', -⟩ | ⟨f', hf', hwarm'⟩
    · cases hop.symm.trans hop'
    · exact hno a hop f' hf' g hwarm'
  | kept hactive hgen hpending =>
    rw [hactive]
    rcases hbefore with ⟨hash', now', rfl, rfl⟩ | ⟨f', hf', hwarm'⟩
    · exact (chooseGeneration_spec h.active h.pendingGen hash' now').2.2.2.1
    · exact hwarm f' hf' g hwarm'

end

/-! ### Runs -/

theorem counted_step {cfg cfg' : ReinitConfig} {l : ℕ × Answer} (h : Counted cfg.shared cfg.frames)
    (hstep : reinitProgram.step cfg l = some cfg') : Counted cfg'.shared cfg'.frames := by
  obtain ⟨f, R, e, fs, sp, hx, -, hframes, hframes', hshared, -⟩ := Program.step_frames hstep
  rw [hframes] at h
  rw [hframes', hshared]
  exact h.step (exec_opSpec hx)

theorem counted_initial (start shadow passes families : ℕ) (hardswap multipath : Bool) :
    let cfg := initial (.new start hardswap multipath shadow passes families)
    Counted cfg.shared cfg.frames := by
  refine ⟨?_, le_refl _, Nat.zero_le _, ?_, ?_⟩
  · exact idsOnce_new start
  · intro t call pc hmem
    cases Multiset.mem_singleton.mp hmem
  · intro t call pc ids hmem
    cases Multiset.mem_singleton.mp hmem

theorem le_of_noOvertaking {cfg : ReinitConfig} {g : ℕ} (h : noOvertaking cfg (.activate g) = true)
    {f : Frame} (hf : f ∈ cfg.frames) {g' : ℕ} (hg' : warming f = some g') : g ≤ g' := by
  simp only [noOvertaking, Bool.not_eq_true', List.any_eq_false] at h
  have holder := h f hf
  simpa [older, hg'] using holder

/-- In a run of any number of reinit cycles, whatever the interleaving: the active generation never goes
    backwards if no cycle promotes while an older one is still before its promotion. It never exceeds
    the generation counter, and a cycle that promotes a generation drains only writers of older ones. -/
theorem generations_never_go_backwards (start shadow passes families : ℕ) (hardswap multipath : Bool)
    (ls : List (ℕ × Answer)) :
    let start := initial (.new start hardswap multipath shadow passes families)
    (reinitProgram.Meets noOvertaking start ls → RunMeets reinitProgram.step (fun cfg l =>
      ∀ cfg', reinitProgram.step cfg l = some cfg' →
        cfg.shared.activeGeneration ≤ cfg'.shared.activeGeneration) start ls) ∧
    ∀ cfg, run reinitProgram.step start ls = some cfg →
      cfg.shared.activeGeneration ≤ cfg.shared.generation ∧ DrainsOlder cfg := by
  intro start
  have hstart : Counted start.shared start.frames :=
    counted_initial _ shadow passes families hardswap multipath
  constructor
  · intro hmeets
    refine runMeets_imp (I := fun cfg => Counted cfg.shared cfg.frames ∧
      NotOvertaken cfg.shared cfg.frames) ?_ ?_ ls ⟨hstart, ?_⟩ hmeets
    · rintro cfg l cfg' ⟨hcounted, hwarm⟩ hG hstep
      refine ⟨counted_step hcounted hstep, ?_⟩
      obtain ⟨f, R, e, fs, sp, hx, hop, hframes, hframes', hshared, -⟩ := Program.step_frames hstep
      rw [hframes] at hcounted hwarm
      rw [hframes', hshared]
      refine notOvertaken_step hcounted hwarm (exec_opSpec hx) ?_
      rintro g rfl f' hf' g' hg'
      exact le_of_noOvertaking (hG _ hop) (hframes ▸ hf') hg'
    · rintro cfg l ⟨hcounted, hwarm⟩ - cfg' hstep
      obtain ⟨f, R, e, fs, sp, hx, hop, hframes, hframes', hshared, -⟩ := Program.step_frames hstep
      rw [hframes] at hcounted hwarm
      rw [hshared]
      exact active_le_step hcounted hwarm (exec_opSpec hx)
    · intro f hf g hg
      cases Multiset.mem_singleton.mp hf
      cases hg
  · intro cfg hrun
    have hcounted : Counted cfg.shared cfg.frames :=
      run_invariant (I := fun cfg => Counted cfg.shared cfg.frames) (fun _ _ _ => counted_step) ls
        hstart hrun
    refine ⟨hcounted.active, fun t call w todo hswap hmem => ?_⟩
    exact (hcounted.drains t call _ (w :: todo) hmem hswap rfl w List.mem_cons_self).2

/-- Cycle A starts generation 2; the map changes, and cycle B starts generation 3. -/
def twoCycles (addr addr' : SocketAddr) : List (ℕ × Answer) :=
  [(0, .startReinit), (1, .desired [(2, [addr])] 7 0), (0, .startReinit),
    (2, .desired [(2, [addr'])] 8 0)]

/-- The warm-up of the cycle in task `i`, up to its promotion, and the rest of the cycle. -/
def promoteRun (i : ℕ) (addr : SocketAddr) : List (ℕ × Answer) :=
  ((hardswapRun addr).drop 2).map fun l => (i, l.2)

def finishRun (i : ℕ) : List (ℕ × Answer) := List.replicate 4 (i, .go)

/-- Both cycles run at once, and the older one promotes first. -/
theorem generations_never_go_backwards_in_order :
    let addr : SocketAddr := ⟨.v4 ⟨[127, 0, 0, 1], rfl⟩, 443⟩
    let addr' : SocketAddr := ⟨.v4 ⟨[127, 0, 0, 1], rfl⟩, 444⟩
    let start := initial (.new 1 true false 0 0 1)
    let ls := twoCycles addr addr' ++ promoteRun 1 addr ++ finishRun 1 ++ promoteRun 2 addr'
    (run reinitProgram.step start ls).map (·.shared.activeGeneration) = some 3 ∧
      RunMeets reinitProgram.step (fun cfg l => ∀ cfg', reinitProgram.step cfg l = some cfg' →
        cfg.shared.activeGeneration ≤ cfg'.shared.activeGeneration) start ls :=
  ⟨by decide +kernel, (generations_never_go_backwards 1 0 0 1 true false _).1 (by decide +kernel)⟩

/-- The younger cycle promotes first, and then the older one. -/
theorem active_generation_goes_backwards :
    let addr : SocketAddr := ⟨.v4 ⟨[127, 0, 0, 1], rfl⟩, 443⟩
    let addr' : SocketAddr := ⟨.v4 ⟨[127, 0, 0, 1], rfl⟩, 444⟩
    let ls := twoCycles addr addr' ++ promoteRun 2 addr' ++ finishRun 2 ++ promoteRun 1 addr
    ∃ cfg cfg', run reinitProgram.step (initial (.new 1 true false 0 0 1)) ls.dropLast = some cfg ∧
      reinitProgram.step cfg (1, .ratio false) = some cfg' ∧
      cfg.shared.activeGeneration = 3 ∧ cfg'.shared.activeGeneration = 2 := by
  intro addr addr' ls
  have heval : (run reinitProgram.step (initial (.new 1 true false 0 0 1)) ls.dropLast).map (fun cfg =>
      (cfg.shared.activeGeneration, (reinitProgram.step cfg (1, .ratio false)).map
        (·.shared.activeGeneration))) = some (3, some 2) := by decide +kernel
  obtain ⟨cfg, hrun, hcfg⟩ := Option.map_eq_some_iff.mp heval
  obtain ⟨hactive, hnext⟩ := Prod.mk.inj hcfg
  obtain ⟨cfg', hstep, hactive'⟩ := Option.map_eq_some_iff.mp hnext
  exact ⟨cfg, cfg', hrun, hstep, hactive, hactive'⟩

end MtProxy.MiddleProxy.Reinit
