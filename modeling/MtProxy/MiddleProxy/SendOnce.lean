import MtProxy.MiddleProxy.PoolBinding
import MtProxy.Schemes.Task

/-! A `send_proxy_req` from its first lookup to its return. It places its payload in one channel at
    most, at one of four places, and each of them leads straight to the return.

        lookup ──▶ current ──sent──────────────────────▶ Ok
          ▲          │ full ──▶ wait ──sent────────────▶ Ok
          │          └ closed ─┐
          ├────────────────────┘
          └─ scan, fallback ──sent──▶ bind_writer ─────▶ Ok
             └ no writer ──────────────────────────────▶ Err

    While it runs, its task may be inside a connect or the removal of a dead writer; all other tasks
    interleave as they like. -/

namespace MtProxy.MiddleProxy
open Schemes

/-- The call over the frames `rest` is still running. -/
def inCall (rest : List Frame) : List Frame → Bool
  | [] => false
  | .send _ _ :: fs => fs = rest || inCall rest fs
  | _ :: fs => inCall rest fs

/-- Task `i` is in its call. -/
def calling (i : ℕ) (rest : List Frame) (cfg : PoolConfig) : Bool :=
  (cfg.tasks[i]?.map (inCall rest)).getD false

/-- The channel an operation places a payload in, and for which client. -/
def placed : PoolOp → Option (ℕ × ℕ)
  | .enqueue c w => some (c, w)
  | _ => none

/-- The payloads placed in some steps. -/
def enqueued (steps : List (PoolConfig × PoolOp)) : List (ℕ × ℕ) := steps.filterMap (placed ·.2)

/-- Among some steps of task `i` is a lookup of the call that found this writer for the client. -/
def Chose (i : ℕ) (rest : List Frame) (c : ℕ) (w : ConnWriter ℕ)
    (steps : List (PoolConfig × PoolOp)) : Prop :=
  ∃ s ∈ steps, (∃ call, s.1.tasks[i]? = some (.send call .lookup :: rest)) ∧
    s.1.shared.registry.getWriter c = some w

/-! ### The steps of a call -/

/-- The frames that run on behalf of a call: connects, and the removal of a writer. -/
def serves : Frame → Bool
  | .connect _ | .connectPush _ | .connectCount _ => true
  | .removeList _ _ | .removeClose _ | .removeRefill _ | .removeLost _ _ => true
  | .closeClients _ | .unregister _ => true
  | _ => false

/-- The writer the client was found bound to. -/
def current : SendPc → Option (ConnWriter ℕ)
  | .current w | .currentWait w => some w
  | _ => none

/-- The writer that has the payload. -/
def binding : SendPc → Option ℕ
  | .bind w => some w
  | _ => none

section
variable {p : MePool} {f : Frame} {a : Answer} {e : PoolOp} {gs : List Frame}
  {sp : List (List Frame)} {call : SendCall} {pc : SendPc}

theorem serves_exec (hf : serves f = true) (h : exec p f a = some (e, gs, sp)) :
    (∀ g ∈ gs, serves g = true) ∧ placed e = none := by
  revert h
  fun_cases exec p f a <;> intro h
  all_goals first
    | exact absurd hf Bool.false_ne_true
    | cases h
  all_goals simp [serves, placed]
  -- left: the removal of a writer that is in the list
  rintro g (⟨-, rfl⟩ | rfl) <;> rfl

/-- What a step of the call itself can be. -/
inductive CallStep (p : MePool) (call : SendCall) (pc : SendPc) : PoolOp → List Frame → Prop
  /-- Another round, or the next place in this one. -/
  | next (gs : List Frame) (call' : SendCall) (pc' : SendPc) (hserves : ∀ g ∈ gs, serves g = true)
    (hconn : call'.connId = call.connId) (hmeta : call'.connMeta = call.connMeta)
    (hpc : binding pc = none) (hpc' : binding pc' = none)
    (hcurrent : ∀ w, current pc' = some w →
      current pc = some w ∨ pc = .lookup ∧ p.registry.getWriter call.connId = some w) :
    CallStep p call pc .skip (gs ++ [.send call' pc'])
  | resent (w : ConnWriter ℕ) (hpc : binding pc = none) (hw : current pc = some w) :
    CallStep p call pc (.enqueue call.connId w.tx) [.relay call.connId]
  | sent (w : ℕ) (hpc : binding pc = none) :
    CallStep p call pc (.enqueue call.connId w) [.send call (.bind w)]
  | bound (w : ℕ) (hpc : pc = .bind w) :
    CallStep p call pc (.bindWriter call.connId w call.connMeta) [.relay call.connId]
  | failed (hpc : binding pc = none) : CallStep p call pc .skip [.unregister call.connId]

theorem callStep_goto {call' : SendCall} {pc' : SendPc} (hconn : call'.connId = call.connId)
    (hmeta : call'.connMeta = call.connMeta) (hpc : binding pc = none) (hpc' : binding pc' = none)
    (hcurrent : ∀ w, current pc' = some w →
      current pc = some w ∨ pc = .lookup ∧ p.registry.getWriter call.connId = some w) :
    CallStep p call pc .skip [.send call' pc'] :=
  .next [] call' pc' (by simp) hconn hmeta hpc hpc' hcurrent

theorem callStep_serve {g : Frame} {call' : SendCall} {pc' : SendPc} (hg : serves g = true)
    (hconn : call'.connId = call.connId) (hmeta : call'.connMeta = call.connMeta)
    (hpc : binding pc = none) (hpc' : binding pc' = none) (hcurrent : current pc' = none) :
    CallStep p call pc .skip [g, .send call' pc'] :=
  .next [g] call' pc' (by simpa using hg) hconn hmeta hpc hpc' (by simp [hcurrent])

theorem sendProxyReq_callStep (h : sendProxyReq p call pc a = some (e, gs, sp)) :
    CallStep p call pc e gs := by
  revert h
  fun_cases sendProxyReq p call pc a <;> intro h <;> cases h
  all_goals first
    | exact .resent _ rfl rfl
    | exact .sent _ rfl
    | exact .bound _ rfl
    | exact .failed rfl
    | exact callStep_serve rfl rfl rfl rfl rfl rfl
    | exact callStep_goto rfl rfl rfl rfl (by simp_all [current])

end

/-! ### The task of a call -/

theorem length_lt_of_inCall {rest : List Frame} :
    ∀ {fs : List Frame}, inCall rest fs = true → rest.length < fs.length
  | [], h => absurd h Bool.false_ne_true
  | f :: fs, h => by
    by_cases hrest : fs = rest
    · rw [hrest, List.length_cons]
      exact Nat.lt_succ_self _
    · have hfs : inCall rest fs = true := by
        cases f with
        | send call pc => simpa [inCall, hrest] using h
        | _ => exact h
      exact (length_lt_of_inCall hfs).trans (Nat.lt_succ_self _)

theorem inCall_self (rest : List Frame) : inCall rest rest = false :=
  Bool.eq_false_iff.mpr fun h => (length_lt_of_inCall h).ne rfl

theorem inCall_append (gs : List Frame) (call : SendCall) (pc : SendPc) (rest : List Frame) :
    inCall rest (gs ++ .send call pc :: rest) = true := by
  induction gs with
  | nil => simp [inCall]
  | cons g gs ih =>
    cases g with
    | send call pc => rw [List.cons_append, inCall, ih, Bool.or_true]
    | _ => exact ih

/-- Every channel in the registry is that of its writer. -/
def OwnChannels (r : ConnRegistry Unit ℕ) : Prop := ∀ w tx, r.writers w = some tx → tx = w

section
variable {p : MePool} {c w : ℕ}

theorem OwnChannels.getWriter {r : ConnRegistry Unit ℕ} (h : OwnChannels r) {v : ConnWriter ℕ}
    (hv : r.getWriter c = some v) : v = ⟨v.tx, v.tx⟩ := by
  simp only [ConnRegistry.getWriter, Option.bind_eq_bind, Option.bind_eq_some_iff] at hv
  obtain ⟨u, -, tx, htx, hv⟩ := hv
  cases hv
  rw [h u tx htx]

theorem ownChannels_effect (h : OwnChannels p.registry) (e : PoolOp) :
    OwnChannels (e.effect p).registry := by
  cases e with
  | unregister d =>
    have hwriters : (p.registry.unregister d).2.writers = p.registry.writers := by
      rw [ConnRegistry.unregister]
      split <;> rfl
    intro u tx htx
    rw [PoolOp.effect, hwriters] at htx
    exact h u tx htx
  | bindWriter d v m =>
    intro u tx htx
    by_cases huv : u = v
    · subst huv
      simp only [PoolOp.effect, ConnRegistry.bindWriter, Function.update_self, Option.some.injEq] at htx
      cases hu : p.registry.writers u with
      | none => rw [← htx, hu, Option.getD_none]
      | some old => rw [← htx, hu, Option.getD_some, h u old hu]
    · simp only [PoolOp.effect, ConnRegistry.bindWriter, Function.update_of_ne huv] at htx
      exact h u tx htx
  | writerLost v discard conns =>
    intro u tx htx
    by_cases huv : u = v
    · subst huv
      simp [PoolOp.effect, ConnRegistry.writerLost] at htx
    · simp only [PoolOp.effect, ConnRegistry.writerLost, Function.update_of_ne huv] at htx
      exact h u tx htx
  | _ => exact h

theorem getWriter_bindWriter (h : OwnChannels p.registry) (m : ConnMeta) :
    (PoolOp.effect (.bindWriter c w m) p).registry.getWriter c = some ⟨w, w⟩ := by
  have hown := ownChannels_effect h (.bindWriter c w m) w _
    (show (p.registry.bindWriter c w w m).writers w = some _ from Function.update_self ..)
  simp only [PoolOp.effect, ConnRegistry.getWriter, ConnRegistry.bindWriter, Function.update_self,
    Option.bind_eq_bind, Option.bind_some, Option.pure_def]
  rw [hown]

end

/-! ### The call as a whole -/

/-- The writer has the payload of the call: the client was bound to it when the call looked, or the
    call has bound it. -/
def Received (i : ℕ) (rest : List Frame) (call : SendCall) (w : ℕ)
    (steps : List (PoolConfig × PoolOp)) (cfg : PoolConfig) : Prop :=
  Chose i rest call.connId ⟨w, w⟩ steps ∨
    (∃ s, (s, .bindWriter call.connId w call.connMeta) ∈ steps) ∧
      cfg.shared.registry.getWriter call.connId = some ⟨w, w⟩

/-- Where a call can be, with what its task has done so far. -/
inductive CallState (i : ℕ) (rest : List Frame) (call : SendCall)
    (steps : List (PoolConfig × PoolOp)) (cfg : PoolConfig) : Prop
  | running (gs : List Frame) (call' : SendCall) (pc : SendPc)
    (htask : cfg.tasks[i]? = some (gs ++ .send call' pc :: rest))
    (hserves : ∀ g ∈ gs, serves g = true) (hconn : call'.connId = call.connId)
    (hmeta : call'.connMeta = call.connMeta) (hpc : binding pc = none)
    (hnone : enqueued steps = [])
    (hcurrent : ∀ w, current pc = some w → w = ⟨w.tx, w.tx⟩ ∧ Chose i rest call.connId w steps)
  | placing (call' : SendCall) (w : ℕ) (htask : cfg.tasks[i]? = some (.send call' (.bind w) :: rest))
    (hconn : call'.connId = call.connId) (hmeta : call'.connMeta = call.connMeta)
    (hone : enqueued steps = [(call.connId, w)])
  | ok (w : ℕ) (htask : cfg.tasks[i]? = some (.relay call.connId :: rest))
    (hone : enqueued steps = [(call.connId, w)]) (hreceived : Received i rest call w steps cfg)
  | err (htask : cfg.tasks[i]? = some (.unregister call.connId :: rest)) (hnone : enqueued steps = [])

section
variable {i : ℕ} {rest : List Frame} {call : SendCall} {steps : List (PoolConfig × PoolOp)}
  {cfg cfg' : PoolConfig} {l : ℕ × Answer} {e : PoolOp}

theorem Chose.append {c : ℕ} {w : ConnWriter ℕ} (h : Chose i rest c w steps)
    (steps' : List (PoolConfig × PoolOp)) : Chose i rest c w (steps ++ steps') := by
  obtain ⟨s, hs, hchose⟩ := h
  exact ⟨s, List.mem_append_left _ hs, hchose⟩

theorem enqueued_none (h : placed e = none) : enqueued (steps ++ [(cfg, e)]) = enqueued steps := by
  simp [enqueued, h]

theorem enqueued_enqueue (c w : ℕ) (h : enqueued steps = []) :
    enqueued (steps ++ [(cfg, .enqueue c w)]) = [(c, w)] := by
  rw [enqueued, List.filterMap_append]
  exact (congrArg (· ++ [(c, w)]) h).trans rfl

theorem calling_eq {fs : List Frame} (h : cfg.tasks[i]? = some fs) : calling i rest cfg = inCall rest fs := by
  rw [calling, h]
  rfl

theorem not_calling_ok {c : ℕ} (h : cfg.tasks[i]? = some (.relay c :: rest)) :
    ¬ calling i rest cfg = true := by
  rw [calling_eq h]
  exact Bool.eq_false_iff.mp (inCall_self rest)

theorem not_calling_err {c : ℕ} (h : cfg.tasks[i]? = some (.unregister c :: rest)) :
    ¬ calling i rest cfg = true := by
  rw [calling_eq h]
  exact Bool.eq_false_iff.mp (inCall_self rest)

theorem calling_send {gs : List Frame} {call' : SendCall} {pc : SendPc}
    (h : cfg.tasks[i]? = some (gs ++ .send call' pc :: rest)) : ¬ calling i rest cfg = false := by
  rw [calling_eq h, inCall_append]
  exact nofun

/-- A step of a frame above the call, or of the call itself. -/
theorem callState_running (hown : OwnChannels cfg.shared.registry) {gs : List Frame}
    {call' : SendCall} {pc : SendPc} (htask : cfg.tasks[i]? = some (gs ++ .send call' pc :: rest))
    (hserves : ∀ g ∈ gs, serves g = true) (hconn : call'.connId = call.connId)
    (hmeta : call'.connMeta = call.connMeta) (hpc : binding pc = none) (hnone : enqueued steps = [])
    (hcurrent : ∀ w, current pc = some w → w = ⟨w.tx, w.tx⟩ ∧ Chose i rest call.connId w steps)
    (hstep : poolProgram.step cfg l = some cfg') (hop : poolProgram.op cfg l = some e)
    (hi : l.1 = i) : CallState i rest call (steps ++ [(cfg, e)]) cfg' := by
  subst hi
  obtain ⟨f, fs, e', hs, spawned, hstack, hexec, hop', htask', -⟩ := Program.step_own hstep htask
  obtain rfl := Option.some.inj (hop.symm.trans hop')
  cases gs with
  | cons g gs =>
    obtain ⟨rfl, rfl⟩ : g = f ∧ gs ++ .send call' pc :: rest = fs := by simpa using hstack
    obtain ⟨hhs, hplaced⟩ := serves_exec (hserves g List.mem_cons_self) hexec
    refine .running (hs ++ gs) call' pc (by rw [htask', List.append_assoc]) ?_ hconn hmeta hpc
      ((enqueued_none hplaced).trans hnone) fun w hw =>
        ⟨(hcurrent w hw).1, (hcurrent w hw).2.append _⟩
    intro g' hg'
    rcases List.mem_append.mp hg' with hg' | hg'
    · exact hhs g' hg'
    · exact hserves g' (List.mem_cons_of_mem g hg')
  | nil =>
    obtain ⟨rfl, rfl⟩ : .send call' pc = f ∧ rest = fs := by simpa using hstack
    cases sendProxyReq_callStep (hexec : sendProxyReq _ call' pc l.2 = _) with
    | next gs call'' pc' hserves' hconn' hmeta' hpc hpc' hcurrent' =>
      refine .running gs call'' pc' (by rw [htask', List.append_assoc]; rfl) hserves'
        (hconn'.trans hconn) (hmeta'.trans hmeta) hpc' ((enqueued_none rfl).trans hnone) ?_
      intro w hw
      rcases hcurrent' w hw with hw | ⟨rfl, hw⟩
      · exact ⟨(hcurrent w hw).1, (hcurrent w hw).2.append _⟩
      · exact ⟨hown.getWriter hw, (cfg, .skip), by simp, ⟨call', htask⟩, hconn ▸ hw⟩
    | resent w hpc hw =>
      obtain ⟨hw, hchose⟩ := hcurrent w hw
      rw [hw] at hchose
      exact .ok w.tx (hconn ▸ htask') (hconn ▸ enqueued_enqueue _ w.tx hnone)
        (.inl (hchose.append _))
    | sent w hpc => exact .placing call' w htask' hconn hmeta (hconn ▸ enqueued_enqueue _ w hnone)
    | bound w hw =>
      rw [hw] at hpc
      cases hpc
    | failed hpc => exact .err (hconn ▸ htask') ((enqueued_none rfl).trans hnone)

/-- The step that binds the client. -/
theorem callState_placing (hown : OwnChannels cfg.shared.registry) {call' : SendCall} {w : ℕ}
    (htask : cfg.tasks[i]? = some (.send call' (.bind w) :: rest))
    (hconn : call'.connId = call.connId) (hmeta : call'.connMeta = call.connMeta)
    (hone : enqueued steps = [(call.connId, w)]) (hstep : poolProgram.step cfg l = some cfg')
    (hop : poolProgram.op cfg l = some e) (hi : l.1 = i) :
    CallState i rest call (steps ++ [(cfg, e)]) cfg' := by
  subst hi
  obtain ⟨f, fs, e', hs, spawned, hstack, hexec, hop', htask', hshared⟩ :=
    Program.step_own hstep htask
  obtain rfl := Option.some.inj (hop.symm.trans hop')
  obtain ⟨rfl, rfl⟩ : .send call' (.bind w) = f ∧ rest = fs := by simpa using hstack
  cases sendProxyReq_callStep (hexec : sendProxyReq _ call' (.bind w) l.2 = _) with
  | next gs call'' pc' hserves' hconn' hmeta' hpc hpc' hcurrent' => cases hpc
  | resent w hpc hw => cases hpc
  | sent w hpc => cases hpc
  | failed hpc => cases hpc
  | bound v hv =>
    cases hv
    refine .ok w (hconn ▸ htask') ((enqueued_none rfl).trans hone) (.inr ⟨⟨cfg, ?_⟩, ?_⟩)
    · rw [hconn, hmeta]
      exact List.mem_append_right _ List.mem_cons_self
    · rw [hshared, hconn]
      exact getWriter_bindWriter hown _

theorem callState_own (hown : OwnChannels cfg.shared.registry)
    (h : CallState i rest call steps cfg) (hcalling : calling i rest cfg = true)
    (hstep : poolProgram.step cfg l = some cfg') (hop : poolProgram.op cfg l = some e)
    (hi : l.1 = i) : CallState i rest call (steps ++ [(cfg, e)]) cfg' := by
  cases h with
  | running gs call' pc htask hserves hconn hmeta hpc hnone hcurrent =>
    exact callState_running hown htask hserves hconn hmeta hpc hnone hcurrent hstep hop hi
  | placing call' w htask hconn hmeta hone =>
    exact callState_placing hown htask hconn hmeta hone hstep hop hi
  | ok w htask hone hreceived => exact absurd hcalling (not_calling_ok htask)
  | err htask hnone => exact absurd hcalling (not_calling_err htask)

theorem callState_other (h : CallState i rest call steps cfg) (hcalling : calling i rest cfg = true)
    (hstep : poolProgram.step cfg l = some cfg') (hi : l.1 ≠ i) :
    CallState i rest call steps cfg' := by
  cases h with
  | running gs call' pc htask hserves hconn hmeta hpc hnone hcurrent =>
    exact .running gs call' pc (Program.step_other hstep hi htask) hserves hconn hmeta hpc hnone
      hcurrent
  | placing call' w htask hconn hmeta hone =>
    exact .placing call' w (Program.step_other hstep hi htask) hconn hmeta hone
  | ok w htask hone hreceived => exact absurd hcalling (not_calling_ok htask)
  | err htask hnone => exact absurd hcalling (not_calling_err htask)

theorem ownChannels_step (h : OwnChannels cfg.shared.registry)
    (hstep : poolProgram.step cfg l = some cfg') : OwnChannels cfg'.shared.registry := by
  obtain ⟨f, fs, sp, e, -, -, hshared, -⟩ := step_op hstep
  rw [hshared]
  exact ownChannels_effect h e

end

/-- A `send_proxy_req` of task `i`, over the frames `rest`, in any run of the pool: while it runs it has
    placed at most one payload. When it has returned, it returned `Ok` with exactly one placed, for the
    writer its client was bound to or is bound to now, or an error with none placed. -/
theorem send_proxy_req_enqueues_once (start : ℕ) (before during : List (ℕ × Answer))
    (cfg cfg' : PoolConfig) (i : ℕ) (call : SendCall) (rest : List Frame)
    (hbefore : run poolProgram.step (initial start) before = some cfg)
    (hcall : cfg.tasks[i]? = some (.send call .lookup :: rest))
    (hduring : RunMeets poolProgram.step (fun c _ => calling i rest c = true) cfg during)
    (hrun : run poolProgram.step cfg during = some cfg') :
    let steps := poolProgram.taskSteps i cfg during
    (enqueued steps).length ≤ 1 ∧
    (calling i rest cfg' = false →
      (cfg'.tasks[i]? = some (.relay call.connId :: rest) ∧
        ∃ w, enqueued steps = [(call.connId, w)] ∧ Received i rest call w steps cfg') ∨
      (cfg'.tasks[i]? = some (.unregister call.connId :: rest) ∧ enqueued steps = [])) := by
  intro steps
  have hown : OwnChannels cfg.shared.registry :=
    run_invariant (I := fun c => OwnChannels c.shared.registry) (fun _ _ _ => ownChannels_step) before
      (fun _ _ h => by cases h) hbefore
  have hlookup : CallState i rest call [] cfg :=
    .running [] call .lookup hcall (by simp) rfl rfl rfl rfl (by simp [current])
  have hstate : OwnChannels cfg'.shared.registry ∧ CallState i rest call ([] ++ steps) cfg' := by
    refine Program.task_invariant
      (I := fun tr c => OwnChannels c.shared.registry ∧ CallState i rest call tr c) ?_ ?_ during
      ⟨hown, hlookup⟩ hduring hrun
    · rintro tr c l c' e ⟨hown, hstate⟩ hcalling hstep hop hi
      exact ⟨ownChannels_step hown hstep, callState_own hown hstate hcalling hstep hop hi⟩
    · rintro tr c l c' ⟨hown, hstate⟩ hcalling hstep hi
      exact ⟨ownChannels_step hown hstep, callState_other hstate hcalling hstep hi⟩
  rw [List.nil_append] at hstate
  cases hstate.2 with
  | running gs call' pc htask hserves hconn hmeta hpc hnone hcurrent =>
    exact ⟨by simp [hnone], fun hreturned => absurd hreturned (calling_send htask)⟩
  | placing call' w htask hconn hmeta hone =>
    have hsend : cfg'.tasks[i]? = some ([] ++ .send call' (.bind w) :: rest) := htask
    exact ⟨by simp [hone], fun hreturned => absurd hreturned (calling_send hsend)⟩
  | ok w htask hone hreceived => exact ⟨by simp [hone], fun _ => .inl ⟨htask, w, hone, hreceived⟩⟩
  | err htask hnone => exact ⟨by simp [hnone], fun _ => .inr ⟨htask, hnone⟩⟩

/-- The second payload of a client whose writer is dead: the call removes the writer, which closes and
    unregisters the client, and places the payload in the channel of another one. -/
theorem send_proxy_req_enqueues_once_second_writer :
    let addr : SocketAddr := ⟨.v4 ⟨[127, 0, 0, 1], rfl⟩, 443⟩
    let during := (rebindRun addr).drop 18
    ∃ cfg cfg', run poolProgram.step (initial 1) ((rebindRun addr).take 18) = some cfg ∧
      run poolProgram.step cfg during = some cfg' ∧ calling 1 [] cfg' = false ∧
      enqueued (poolProgram.taskSteps 1 cfg during) = [(1, 2)] ∧
      Received 1 [] ⟨1, ⟨2, addr, addr, 0⟩, 0⟩ 2 (poolProgram.taskSteps 1 cfg during) cfg' := by
  intro addr during
  have heval : (run poolProgram.step (initial 1) ((rebindRun addr).take 18)).map (fun cfg =>
      (cfg.tasks[1]?, decide (RunMeets poolProgram.step (fun c _ => calling 1 [] c = true) cfg during),
        enqueued (poolProgram.taskSteps 1 cfg during),
        (run poolProgram.step cfg during).map (calling 1 []))) =
      some (some [.send ⟨1, ⟨2, addr, addr, 0⟩, 0⟩ .lookup], true, [(1, 2)], some false) := by
    decide +kernel
  obtain ⟨cfg, hbefore, hcfg⟩ := Option.map_eq_some_iff.mp heval
  simp only [Prod.mk.injEq, decide_eq_true_eq] at hcfg
  obtain ⟨hcall, hduring, hsent, hreturned⟩ := hcfg
  obtain ⟨cfg', hrun, hcalling⟩ := Option.map_eq_some_iff.mp hreturned
  refine ⟨cfg, cfg', hbefore, hrun, hcalling, hsent, ?_⟩
  rcases (send_proxy_req_enqueues_once 1 _ during cfg cfg' 1 _ [] hbefore hcall hduring hrun).2
    hcalling with ⟨-, w, hone, hreceived⟩ | ⟨-, hnone⟩
  · obtain rfl : 2 = w := by simpa using hsent.symm.trans hone
    exact hreceived
  · cases hsent.symm.trans hnone

end MtProxy.MiddleProxy
