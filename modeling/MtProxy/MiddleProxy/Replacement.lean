import MtProxy.MiddleProxy.WriterIds
import MtProxy.Schemes.Task

/-! `reconnect_all` and `maybe_rotate_single_endpoint_shadow`: writers that are replaced one by one.

        connect_one(addr) ──Ok──▶ mark_writer_draining(old)
                          └─Err─▶ old stays

    The old writer is known by the id and the endpoint it had in a list that was read before, and the new
    one is on the same endpoint under a new id. A connect that has returned has its writer in the list, so
    the endpoint is not left without a live writer, whatever the other tasks add in between. Those are
    `others`: they perform any operations at any time, and writers are added by connects only. -/

namespace MtProxy.MiddleProxy.Replacement
open Schemes

inductive Frame where
  /-- All other tasks. -/
  | others
  | connect (addr : SocketAddr)
  | connectPush (w : MeWriter)
  | connectCount
  | reconnectAll
  | reconnectNext (todo : List MeWriter)
  /-- The health check of a DC, before and after it has read the list. -/
  | checkDc (endpoints : List SocketAddr) (required : ℕ)
  | rotate (endpoints : List SocketAddr) (alive required : ℕ) (live : List MeWriter)
  | candidates (endpoint : SocketAddr) (writerIds : List ℕ)
  /-- A `connect_one` for the writer `old`; the one of the rotation is under a timeout. -/
  | replace (timed : Bool) (addr : SocketAddr) (old : ℕ)
  | replacePush (timed : Bool) (w : MeWriter) (old : ℕ)
  | replaceCount (addr : SocketAddr) (old : ℕ)
  | drain (addr : SocketAddr) (old : ℕ)
  deriving DecidableEq

/-- What is decided outside: the outcome of a connect, and for a rotation whether one is configured and
    due, and whether the endpoint is quarantined. -/
inductive Answer where
  | go
  | perform (e : PoolOp)
  | startConnect (addr : SocketAddr) | startReconnectAll
  | startCheckDc (endpoints : List SocketAddr) (required : ℕ)
  | notDue | due (quarantined : Bool)
  | established | failed

abbrev Next := PoolOp × List Frame × List (List Frame)

/-- Writers are added by a connect, and drained in the list only. -/
def ordinary (p : MePool) : PoolOp → Bool
  | .allocId | .pushWriter _ => false
  | .markDraining w => w ∈ p.writerIds
  | _ => true

/-- The live writers on the endpoints, as the health check counts them. -/
def aliveCount (p : MePool) (endpoints : List SocketAddr) : ℕ :=
  (endpoints.map fun addr => (p.live.filter (·.addr = addr)).length).sum

section
variable (p : MePool)

def exec : Frame → Answer → Option Next
  | .others, .perform e => if ordinary p e then some (e, [.others], []) else none
  | .others, .startConnect addr => some (.skip, [.others], [[.connect addr]])
  | .others, .startReconnectAll => some (.skip, [.others], [[.reconnectAll]])
  | .others, .startCheckDc eps required => some (.skip, [.others], [[.checkDc eps required]])
  | .connect addr, .established => some (.allocId, [.connectPush ⟨p.nextWriterId, addr⟩], [])
  | .connect _, .failed => some (.skip, [], [])
  | .connectPush w, .go => some (.pushWriter w, [.connectCount], [])
  | .connectPush _, .failed => some (.skip, [], [])
  | .connectCount, .go => some (.countUp, [], [])
  -- `reconnect_all`
  | .reconnectAll, .go => some (.skip, [.reconnectNext p.writers], [])
  | .reconnectNext [], .go => some (.skip, [], [])
  | .reconnectNext (w :: todo), .go =>
    some (.skip, [.replace false w.addr w.id, .reconnectNext todo], [])
  -- `maybe_rotate_single_endpoint_shadow`
  | .checkDc eps required, .go => some (.skip, [.rotate eps (aliveCount p eps) required p.live], [])
  | .rotate _ _ _ _, .notDue => some (.skip, [], [])
  | .rotate eps alive required live, .due quarantined =>
    match eps with
    | [endpoint] =>
      if alive < required ∨ quarantined then some (.skip, [], [])
      else some (.skip, [.candidates endpoint ((live.filter (·.addr = endpoint)).map (·.id))], [])
    | _ => some (.skip, [], [])
  | .candidates _ [], .go => some (.skip, [], [])
  | .candidates endpoint (w :: ids), .go =>
    if p.registry.isWriterEmpty w then some (.skip, [.replace true endpoint w], [])
    else some (.skip, [.candidates endpoint ids], [])
  -- a connect, and the draining of the old writer after it
  | .replace _ _ _, .failed => some (.skip, [], [])
  | .replace timed addr old, .established =>
    some (.allocId, [.replacePush timed ⟨p.nextWriterId, addr⟩ old], [])
  | .replacePush timed _ _, .failed => if timed then some (.skip, [], []) else none
  | .replacePush _ w old, .go => some (.pushWriter w, [.replaceCount w.addr old], [])
  | .replaceCount addr old, .go => some (.countUp, [.drain addr old], [])
  | .drain _ old, .go =>
    if old ∈ p.writerIds then some (.markDraining old, [], []) else some (.skip, [], [])
  | _, _ => none

end

def passProgram : Program MePool Frame PoolOp Answer := ⟨exec, PoolOp.effect⟩

abbrev PassConfig := Config MePool Frame PoolOp

def initial (start : ℕ) : PassConfig := ⟨.new start, [[.others]], []⟩

/-- The operation removes and drains no live writer. -/
def sparesLive (p : MePool) (e : PoolOp) : Bool := p.live.all (spared e.target)

/-! ### The ids -/

/-- The ids a frame is about to push a writer under. -/
def pushIds : Frame → Multiset ℕ
  | .connectPush w | .replacePush _ w _ => {w.id}
  | _ => 0

def pending (M : Multiset Frame) : Multiset ℕ := holdings pushIds M

section
variable {p : MePool} {f : Frame} {a : Answer} {e : PoolOp} {fs : List Frame} {sp : List (List Frame)}
  {R : Multiset Frame}

theorem shrinks_ordinary (h : ordinary p e = true) : Shrinks p (e.effect p) := by
  cases e with
  | allocId => cases h
  | pushWriter w => cases h
  | removeWriter v => exact ⟨List.eraseP_sublist, rfl, fun _ h => .inl h⟩
  | retain w => exact ⟨List.filter_sublist, rfl, fun _ h => .inl h⟩
  | markDraining w =>
    refine ⟨.refl _, rfl, fun v hv => ?_⟩
    by_cases hvw : v = w
    · exact .inr (hvw ▸ of_decide_eq_true h)
    · exact .inl (by simpa [PoolOp.effect, Function.update_of_ne hvw] using hv)
  | _ => exact ⟨.refl _, rfl, fun _ h => .inl h⟩

/-- What a step of any task does to the ids. -/
theorem exec_idStep (h : exec p f a = some (e, fs, sp)) :
    IdStep p (pushIds f) ((fs ++ sp.flatten).map pushIds).sum (e.effect p) := by
  revert h
  fun_cases exec p f a <;> intro h <;> cases h
  all_goals first
    | exact .alloc rfl rfl rfl
    | exact .push _ rfl rfl rfl
    | exact .shrink (Multiset.zero_le _) (shrinks_ordinary ‹_›)
    | exact .shrink (Multiset.zero_le _) (shrinks_ordinary (decide_eq_true ‹_›))
    | exact .shrink (Multiset.zero_le _) (shrinks_ordinary rfl)

theorem pending_cons : pending (f ::ₘ R) = pushIds f + pending R := holdings_cons

theorem pending_add (gs : List Frame) :
    pending ((gs : Multiset Frame) + R) = (gs.map pushIds).sum + pending R := holdings_add gs

/-! ### What a step does to the live writers -/

theorem exec_push {w : MeWriter} (h : exec p f a = some (.pushWriter w, fs, sp)) :
    pushIds f = {w.id} := by
  revert h
  fun_cases exec p f a <;> intro h <;> cases h
  case case1 hordinary => cases hordinary
  all_goals rfl

/-- The live writers a step does not target stay live. -/
theorem live_step (hids : IdsOnce p (pending (f ::ₘ R))) (h : exec p f a = some (e, fs, sp)) :
    (p.live.filter (spared e.target)).Sublist (e.effect p).live := by
  cases e with
  | pushWriter w =>
    rw [pending_cons, exec_push h] at hids
    rw [live_push hids]
    exact List.filter_sublist.trans (List.sublist_append_left _ _)
  | removeWriter v => exact live_removeWriter v p
  | retain w => exact live_retain w p
  | markDraining w => exact live_markDraining w p
  | _ => exact List.filter_sublist

/-! ### What the tasks know -/

/-- Nobody but a writer on `addr` is in the list under the id `w`, now and later. -/
def KnownAt (p : MePool) (M : Multiset Frame) (addr : SocketAddr) (w : ℕ) : Prop :=
  Settled p (pending M) w ∧ ∀ v ∈ p.writers, v.id = w → v.addr = addr

/-- A writer on record: its endpoint and its id. -/
def record (w : MeWriter) : SocketAddr × ℕ := (w.addr, w.id)

def recorded : Frame → List (SocketAddr × ℕ)
  | .reconnectNext writers | .rotate _ _ _ writers => writers.map record
  | .candidates endpoint ids => ids.map (endpoint, ·)
  | .replace _ addr old | .replaceCount addr old | .drain addr old => [(addr, old)]
  | .replacePush _ w old => [(w.addr, old)]
  | _ => []

/-- The invariant of all tasks: what is on record is so. -/
structure Informed (p : MePool) (M : Multiset Frame) : Prop where
  ids : IdsOnce p (pending M)
  known : ∀ f ∈ M, ∀ k ∈ recorded f, KnownAt p M k.1 k.2

theorem recorded_candidates (writers : List MeWriter) (endpoint : SocketAddr) :
    recorded (.candidates endpoint ((writers.filter (·.addr = endpoint)).map (·.id))) =
      (writers.filter (·.addr = endpoint)).map record := by
  rw [recorded, List.map_map]
  refine List.map_congr_left fun w hw => ?_
  have haddr : w.addr = endpoint := of_decide_eq_true (List.mem_filter.mp hw).2
  exact congrArg (·, w.id) haddr.symm

/-- What is recorded is in the list, or was on record. -/
theorem recorded_step (h : exec p f a = some (e, fs, sp)) :
    (fs ++ sp.flatten).flatMap recorded ⊆ p.writers.map record ++ recorded f := by
  revert h
  fun_cases exec p f a <;> intro h <;> cases h
  case case14.refl =>
    have hlive : p.live.map record ⊆ p.writers.map record :=
      (List.filter_sublist.map record).subset
    simpa [recorded] using hlive
  case case17.refl endpoint _ =>
    rw [List.flatten_nil, List.append_nil, List.flatMap_singleton, recorded_candidates]
    refine List.subset_append_of_subset_right _ ?_
    exact (List.filter_sublist.map record).subset
  all_goals simp [recorded, record]

theorem KnownAt.step {addr : SocketAddr} {w : ℕ} (h : KnownAt p (f ::ₘ R) addr w)
    (hexec : exec p f a = some (e, fs, sp)) :
    KnownAt (e.effect p) ((fs ++ sp.flatten : List Frame) + R) addr w := by
  obtain ⟨hsettled, haddr⟩ := h
  have hid := exec_idStep hexec
  rw [pending_cons] at hsettled
  rw [KnownAt, pending_add]
  refine ⟨hid.settled hsettled, ?_⟩
  rintro v hv rfl
  exact haddr v (hid.mem_writers hsettled hv) rfl

theorem knownAt_of_mem (hids : IdsOnce p (pending R)) {u : MeWriter} (hu : u ∈ p.writers) :
    KnownAt p R u.addr u.id :=
  ⟨hids.settled (mem_writerIds hu), fun _ hv hid => congrArg MeWriter.addr (hids.unique hv hu hid)⟩

theorem Informed.step (h : Informed p (f ::ₘ R)) (hexec : exec p f a = some (e, fs, sp)) :
    Informed (e.effect p) ((fs ++ sp.flatten : List Frame) + R) := by
  refine ⟨?_, fun g hg k hk => KnownAt.step ?_ hexec⟩
  · have hids := h.ids
    rw [pending_cons] at hids
    rw [pending_add]
    exact (exec_idStep hexec).idsOnce hids
  · rcases Multiset.mem_add.mp hg with hg | hg
    · have hbefore := recorded_step hexec (List.mem_flatMap.mpr ⟨g, hg, hk⟩)
      rcases List.mem_append.mp hbefore with hlisted | hknown
      · obtain ⟨u, hu, rfl⟩ := List.mem_map.mp hlisted
        exact knownAt_of_mem h.ids hu
      · exact h.known f (Multiset.mem_cons_self _ _) k hknown
    · exact h.known g (Multiset.mem_cons_of_mem hg) k hk

/-! ### The steps of a pass -/

/-- The frames a pass consists of. -/
def ofPass : Frame → Bool
  | .others | .connect _ | .connectPush _ | .connectCount => false
  | _ => true

/-- A live writer other than `w` is on `addr`. -/
def Backed (p : MePool) (addr : SocketAddr) (w : ℕ) : Prop :=
  ∃ v ∈ p.live, v.addr = addr ∧ v.id ≠ w

/-- A pass that is about to drain a writer has connected another one to the endpoint. -/
def BackedUp (p : MePool) : Frame → Prop
  | .replaceCount addr old | .drain addr old => Backed p addr old
  | _ => True

/-- No task is started, and below the top there is only the loop. -/
theorem own_frames (hpass : ofPass f = true) (h : exec p f a = some (e, fs, sp)) :
    sp = [] ∧ (∀ g ∈ fs, ofPass g = true) ∧ ∀ g ∈ fs.tail, ∃ todo, g = .reconnectNext todo := by
  revert hpass h
  fun_cases exec p f a <;> intro hpass h <;> cases h
  all_goals simp_all [ofPass]

/-- A pass takes away a writer only when another live one is on its endpoint. -/
theorem own_target (hinf : Informed p (f ::ₘ R)) (hpass : ofPass f = true) (hbacked : BackedUp p f)
    (h : exec p f a = some (e, fs, sp)) {v : MeWriter} (hv : v ∈ p.writers)
    (htarget : e.target = some v.id) : Backed p v.addr v.id := by
  have hknown := hinf.known f (Multiset.mem_cons_self _ _)
  revert h
  fun_cases exec p f a <;> intro h <;> cases h
  case case1.refl => cases hpass
  case case28.refl addr old hlisted =>
    obtain rfl : old = v.id := Option.some.inj htarget
    have haddr : v.addr = addr := (hknown _ (List.mem_singleton_self _)).2 v hv rfl
    exact haddr ▸ hbacked
  all_goals cases htarget

/-- The writer of a connect that has returned is live, and is not the one it replaces. -/
theorem backed_of_push {timed : Bool} {w : MeWriter} {old : ℕ}
    (hinf : Informed p (.replacePush timed w old ::ₘ R)) :
    Backed ((PoolOp.pushWriter w).effect p) w.addr old := by
  have hids := hinf.ids
  have hnot := (hinf.known _ (Multiset.mem_cons_self _ _) _ (List.mem_singleton_self _)).1.2
  rw [pending_cons] at hids hnot
  refine ⟨w, ?_, rfl, ?_⟩
  · rw [live_push hids]
    exact List.mem_append_right _ (List.mem_singleton_self w)
  · rintro rfl
    exact hnot (Multiset.mem_add.mpr (.inl (Multiset.mem_singleton_self _)))

theorem own_backedUp (hinf : Informed p (f ::ₘ R)) (hpass : ofPass f = true) (hbacked : BackedUp p f)
    (h : exec p f a = some (e, fs, sp)) : ∀ g ∈ fs, BackedUp (e.effect p) g := by
  revert h
  fun_cases exec p f a <;> intro h <;> cases h
  case case26.refl => exact List.forall_mem_singleton.mpr (backed_of_push hinf)
  case case27.refl => exact List.forall_mem_singleton.mpr hbacked
  all_goals simp [BackedUp]

theorem Backed.step {addr : SocketAddr} {w : ℕ} (h : Backed p addr w)
    (hids : IdsOnce p (pending (f ::ₘ R))) (hexec : exec p f a = some (e, fs, sp))
    (hspares : sparesLive p e = true) : Backed (e.effect p) addr w := by
  obtain ⟨v, hv, haddr, hne⟩ := h
  have hkept := List.mem_filter.mpr ⟨hv, List.all_eq_true.mp hspares v hv⟩
  exact ⟨v, (live_step hids hexec).subset hkept, haddr, hne⟩

theorem BackedUp.other {g : Frame} (h : BackedUp p g) (hids : IdsOnce p (pending (f ::ₘ R)))
    (hexec : exec p f a = some (e, fs, sp)) (hspares : sparesLive p e = true) :
    BackedUp (e.effect p) g := by
  cases g with
  | replaceCount addr old => exact Backed.step h hids hexec hspares
  | drain addr old => exact Backed.step h hids hexec hspares
  | _ => trivial

theorem covered_other {eps : List SocketAddr} (h : Covered p eps)
    (hids : IdsOnce p (pending (f ::ₘ R))) (hexec : exec p f a = some (e, fs, sp))
    (hspares : sparesLive p e = true) : Covered (e.effect p) eps := by
  obtain ⟨v, hv, hmem⟩ := h
  have hkept := spared_iff.mp (List.all_eq_true.mp hspares v hv)
  exact Covered.of_spared ⟨v, hv, hmem, hkept⟩ (live_step hids hexec)

/-- The endpoint of a writer that a pass takes away keeps another one. -/
theorem covered_own {eps : List SocketAddr} (h : Covered p eps) (hinf : Informed p (f ::ₘ R))
    (hpass : ofPass f = true) (hbacked : BackedUp p f) (hexec : exec p f a = some (e, fs, sp)) :
    Covered (e.effect p) eps := by
  obtain ⟨v, hv, hmem⟩ := h
  refine Covered.of_spared ?_ (live_step hinf.ids hexec)
  by_cases htarget : e.target = some v.id
  · obtain ⟨u, hu, haddr, hne⟩ := own_target hinf hpass hbacked hexec (mem_live.mp hv).1 htarget
    exact ⟨u, hu, haddr ▸ hmem, fun hid => hne (Option.some.inj (hid.symm.trans htarget))⟩
  · exact ⟨v, hv, hmem, htarget⟩

end

/-! ### A pass among other tasks -/

/-- The stack of a pass: the loop of `reconnect_all` is under the rest. -/
structure PassStack (p : MePool) (stack : List Frame) : Prop where
  pass : ∀ f ∈ stack, ofPass f = true
  loop : ∀ f ∈ stack.tail, ∃ todo, f = .reconnectNext todo
  backed : ∀ f ∈ stack, BackedUp p f

/-- The invariant while task `i` is a pass: what was covered at its start is covered. -/
structure PassOk (i : ℕ) (p₀ : MePool) (cfg : PassConfig) : Prop where
  informed : Informed cfg.shared cfg.frames
  covered : ∀ eps, Covered p₀ eps → Covered cfg.shared eps
  stack : ∃ stack, cfg.tasks[i]? = some stack ∧ PassStack cfg.shared stack

section
variable {i : ℕ} {p₀ : MePool} {cfg cfg' : PassConfig} {l : ℕ × Answer}

theorem informed_step (h : Informed cfg.shared cfg.frames)
    (hstep : passProgram.step cfg l = some cfg') : Informed cfg'.shared cfg'.frames := by
  obtain ⟨f, R, e, fs, sp, hexec, -, hframes, hframes', hshared, -⟩ := Program.step_frames hstep
  rw [hframes] at h
  rw [hframes', hshared]
  exact h.step hexec

theorem PassOk.own (h : PassOk i p₀ cfg) (hstep : passProgram.step cfg l = some cfg')
    (hi : l.1 = i) : PassOk i p₀ cfg' := by
  subst hi
  obtain ⟨f, fs, R, e, gs, sp, htask, hexec, -, htask', hframes, hframes', hshared⟩ :=
    Program.step_task hstep
  obtain ⟨stack, hstack, hpass, hloop, hbacked⟩ := h.stack
  obtain rfl := Option.some.inj (hstack.symm.trans htask)
  have hinf := h.informed
  rw [hframes] at hinf
  obtain ⟨hf, hfs⟩ := List.forall_mem_cons.mp hpass
  obtain ⟨hfb, -⟩ := List.forall_mem_cons.mp hbacked
  obtain ⟨-, hgs, hgs'⟩ := own_frames hf hexec
  refine ⟨informed_step h.informed hstep, fun eps hcovered => ?_, gs ++ fs, htask', ?_, ?_, ?_⟩
  · rw [hshared]
    exact covered_own (h.covered eps hcovered) hinf hf hfb hexec
  · exact List.forall_mem_append.mpr ⟨hgs, hfs⟩
  · intro g hg
    cases gs with
    | nil => exact hloop g (List.mem_of_mem_tail hg)
    | cons g' gs' =>
      rcases List.mem_append.mp hg with hg | hg
      · exact hgs' g hg
      · exact hloop g hg
  · rw [hshared]
    refine List.forall_mem_append.mpr ⟨own_backedUp hinf hf hfb hexec, fun g hg => ?_⟩
    obtain ⟨todo, rfl⟩ := hloop g hg
    trivial

theorem PassOk.other (h : PassOk i p₀ cfg)
    (hspares : ∀ e ∈ passProgram.op cfg l, sparesLive cfg.shared e = true)
    (hstep : passProgram.step cfg l = some cfg') (hi : l.1 ≠ i) : PassOk i p₀ cfg' := by
  obtain ⟨f, fs, R, e, gs, sp, -, hexec, hop, -, hframes, -, hshared⟩ := Program.step_task hstep
  obtain ⟨stack, hstack, hpass, hloop, hbacked⟩ := h.stack
  have hids := h.informed.ids
  rw [hframes] at hids
  refine ⟨informed_step h.informed hstep, fun eps hcovered => ?_, stack,
    Program.step_other hstep hi hstack, hpass, hloop, fun g hg => ?_⟩
  · rw [hshared]
    exact covered_other (h.covered eps hcovered) hids hexec (hspares e hop)
  · rw [hshared]
    exact (hbacked g hg).other hids hexec (hspares e hop)

/-- A task at the start of `reconnect_all` or of a rotation. -/
def startsPass : Frame → Bool
  | .reconnectAll | .checkDc _ _ | .rotate _ _ _ _ => true
  | _ => false

theorem passStack_singleton {p : MePool} {f : Frame} (hpass : ofPass f = true)
    (hbacked : BackedUp p f) : PassStack p [f] :=
  ⟨List.forall_mem_singleton.mpr hpass, nofun, List.forall_mem_singleton.mpr hbacked⟩

theorem passOk_start {f : Frame} (hinf : Informed cfg.shared cfg.frames)
    (htask : cfg.tasks[i]? = some [f]) (hf : startsPass f = true) : PassOk i cfg.shared cfg := by
  refine ⟨hinf, fun _ h => h, [f], htask, ?_⟩
  cases f with
  | reconnectAll => exact passStack_singleton rfl trivial
  | checkDc eps required => exact passStack_singleton rfl trivial
  | rotate eps alive required live => exact passStack_singleton rfl trivial
  | _ => cases hf

/-- From the start of a pass of task `i` on, whatever is covered stays covered. -/
theorem pass_keeps_covered {start : ℕ} {before during : List (ℕ × Answer)} {f : Frame}
    (hbefore : run passProgram.step (initial start) before = some cfg)
    (htask : cfg.tasks[i]? = some [f]) (hf : startsPass f = true)
    (hduring : passProgram.OthersMeet i (fun c e => sparesLive c.shared e) cfg during)
    (hrun : run passProgram.step cfg during = some cfg') {eps : List SocketAddr}
    (hcovered : Covered cfg.shared eps) : Covered cfg'.shared eps := by
  have hinitial : Informed (initial start).shared (initial start).frames := by
    refine ⟨idsOnce_new start, fun f hf k hk => ?_⟩
    cases Multiset.mem_singleton.mp hf
    cases hk
  have hinf : Informed cfg.shared cfg.frames :=
    run_invariant (I := fun c => Informed c.shared c.frames) (fun _ _ _ => informed_step) before
      hinitial hbefore
  refine (runMeets_invariant (I := PassOk i cfg.shared) ?_ during (passOk_start hinf htask hf)
    hduring hrun).covered eps hcovered
  intro c l c' h hspares hstep
  by_cases hi : l.1 = i
  · exact h.own hstep hi
  · exact h.other (hspares hi) hstep hi

end

end MtProxy.MiddleProxy.Replacement
