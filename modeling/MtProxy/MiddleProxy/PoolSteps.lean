import MtProxy.MiddleProxy.Pool

/-! What a step of the pool can be. For each operation `OpSpec` says which frame performs it, in which
    state, and what the task goes on with; `SkipSpec` says what the steps that only read the pool may
    do to the frames. `exec_spec` reads this off the program once, and the invariants of the pool are
    proved from it without looking at the program again. -/

namespace MtProxy.MiddleProxy
open Schemes

/-- The client a frame works for as its only sender. -/
def owner : Frame → Option ℕ
  | .relay c | .closeLookup c | .closeSend c _ => some c
  | .send call _ => some call.connId
  | _ => none

/-- The client a frame is about to find a writer for. -/
def seeks : Frame → Option ℕ
  | .send _ .lookup | .send _ (.current _) | .send _ (.currentWait _) => none
  | .send call _ => some call.connId
  | _ => none

/-- The client whose payload a frame sends to the writer it is bound to. -/
def resends : Frame → Option ℕ
  | .send call (.current _) | .send call (.currentWait _) => some call.connId
  | _ => none

/-- The client a frame is about to bind. -/
def binds : Frame → Option ℕ
  | .send call (.bind _) => some call.connId
  | _ => none

/-- The writers a frame may bind its client to. -/
def tries : Frame → List ℕ
  | .send _ (.candidates snapshot) => snapshot
  | .send _ (.scan todo fallback) => todo ++ fallback.toList
  | .send _ (.attempt w todo fallback) => w :: todo ++ fallback.toList
  | .send _ (.fallback w) => w.toList
  | .send _ (.wait w) | .send _ (.bind w) => [w]
  | _ => []

/-- The writer a frame is going to purge from the registry. -/
def purges : Frame → Option ℕ
  | .removeList w _ | .removeLost w _ => some w
  | _ => none

/-- The clients a frame is going to unregister. -/
def closes : Frame → List ℕ
  | .closeClients cs => cs
  | .unregister c => [c]
  | _ => []

/-- The writer a frame is about to add to the list. -/
def pushes : Frame → Option ℕ
  | .connectPush v => some v.id
  | _ => none

/-- The frame is between an update of the list and the bookkeeping that goes with it. -/
def books : Frame → Bool
  | .connectCount _ | .removeRefill _ => true
  | _ => false

theorem owner_of_seeks {g : Frame} {c : ℕ} (h : seeks g = some c) : owner g = some c := by
  cases g with
  | send call pc => cases pc <;> first | exact h | cases h
  | _ => cases h

theorem owner_of_resends {g : Frame} {c : ℕ} (h : resends g = some c) : owner g = some c := by
  cases g with
  | send call pc => cases pc <;> first | exact h | cases h
  | _ => cases h

/-- The sender of a client has nothing else to do. -/
theorem owner_spec {g : Frame} {c : ℕ} (h : owner g = some c) :
    purges g = none ∧ closes g = [] ∧ books g = false := by
  cases g with
  | _ => first | exact ⟨rfl, rfl, rfl⟩ | cases h

/-- A step that only reads the pool, from `f` to the frames `gs`. -/
structure SkipSpec (p : MePool) (f : Frame) (gs : List Frame) : Prop where
  owner : ∀ c, gs.countP (fun g => owner g = some c) ≤ [f].countP (fun g => owner g = some c)
  seeks : ∀ g ∈ gs, ∀ c, seeks g = some c → seeks f = some c ∨ p.registry.getWriter c = none
  resends : ∀ g ∈ gs, ∀ c, resends g = some c →
    resends f = some c ∨ (p.registry.getWriter c).isSome = true
  binds : binds f = none ∧ ∀ g ∈ gs, binds g = none
  tries : ∀ g ∈ gs, ∀ w ∈ tries g, w ∈ tries f ∨ w ∈ p.writerIds
  purges : ∀ w, purges f = some w → ∃ g ∈ gs, purges g = some w
  closes : closes f = []
  pushes : ∀ g ∈ gs, pushes g = none
  books : books f = false ∧ ∀ g ∈ gs, books g = false
  retains : ∀ w, .readerRetain w ∈ gs → p.cleanupDone w = true

/-- The step that performs an operation: its frame, and the frames and tasks that follow. -/
def OpSpec (p : MePool) (f : Frame) (fs : List Frame) (sp : List (List Frame)) : PoolOp → Prop
  | .skip => SkipSpec p f (fs ++ sp.flatten)
  | .register c => c = p.registry.nextId ∧ f = .proxy ∧ fs = [.proxy] ∧ sp = [[.relay c]]
  | .unregister c => f = .unregister c ∧ fs = [] ∧ sp = []
  | .bindWriter c w m => ∃ call, f = .send call (.bind w) ∧ c = call.connId ∧ m = call.connMeta ∧
      fs = [.relay c] ∧ sp = []
  | .writerLost w discard conns => f = .removeLost w discard ∧
      conns = (p.registry.writerLost w).1.map (·.connId) ∧
      fs = (if discard then [] else [.closeClients conns]) ∧ sp = []
  | .enqueue c w => resends f = some c ∧ fs = [.relay c] ∧ sp = [] ∨
      ∃ call, c = call.connId ∧ seeks f = some c ∧ w ∈ tries f ∧ binds f = none ∧ owner f = some c ∧
        fs = [.send call (.bind w)] ∧ sp = []
  | .routeClose c => (∃ cs, c ∈ cs ∧ f = .closeClients cs ∧
      fs = [.unregister c, .closeClients (cs.erase c)] ∧ sp = []) ∨
      ∃ w, f = .reader w ∧ fs = [.unregister c, .reader w] ∧ sp = []
  | .allocId => ∃ addr, f = .connect addr ∧ fs = [.connectPush ⟨p.nextWriterId, addr⟩] ∧
      sp = [[.writerTask p.nextWriterId]]
  | .pushWriter v => f = .connectPush v ∧ fs = [.connectCount v.id] ∧ sp = []
  | .countUp => ∃ w, f = .connectCount w ∧ fs = [] ∧ sp = [[.reader w], [.ping w]]
  | .removeWriter v => ∃ discard, v ∈ p.writers ∧ f = .removeList v.id discard ∧
      fs = .removeClose v.id :: (if p.draining v.id then [] else [.removeRefill v]) ++
        [.removeLost v.id discard] ∧ sp = []
  | .retain w => f = .readerRetain w ∧ fs = [] ∧ sp = []
  | .triggerRefill v => f = .removeRefill v ∧ fs = [] ∧ sp = []
  | .markDraining w => f = .markDraining w ∧ w ∈ p.writerIds ∧ fs = [] ∧ sp = [[.drainLoop w]]
  | .closeChannel w => f = .writerTask w ∧ fs = [] ∧ sp = []
  | .claimCleanup w => ∃ rest, (f = .readerExit w ∧ rest = [.readerRetain w] ∨
      f = .pingExit w ∧ rest = []) ∧ fs = .removeList w false :: rest ∧ sp = []

section
variable {p : MePool} {f : Frame} {a : Answer} {e : PoolOp} {fs : List Frame}
  {sp : List (List Frame)}

theorem opSpec_skip (h : SkipSpec p f fs) : OpSpec p f fs [] .skip := by
  simpa only [OpSpec, List.flatten_nil, List.append_nil] using h

/-- A step from this frame loses nothing that was left to do. -/
def Passive (f : Frame) : Prop := binds f = none ∧ purges f = none ∧ closes f = [] ∧ books f = false

/-- A frame that neither sends nor updates anything. -/
def Silent (g : Frame) : Prop :=
  seeks g = none ∧ resends g = none ∧ binds g = none ∧ tries g = [] ∧ pushes g = none ∧ books g = false

/-- Frames that may appear anywhere. -/
def idle : Frame → Bool
  | .relay _ | .closeLookup _ | .closeSend _ _ | .send _ _ | .connectPush _ | .connectCount _
  | .removeRefill _ | .readerRetain _ => false
  | _ => true

theorem idle_spec {g : Frame} (hg : idle g = true) : owner g = none ∧ Silent g := by
  cases g with
  | _ => first | exact ⟨rfl, rfl, rfl, rfl, rfl, rfl, rfl⟩ | cases hg

theorem skipSpec_nil (hf : Passive f) : SkipSpec p f [] := by
  obtain ⟨hbinds, hpurges, hcloses, hbooks⟩ := hf
  refine ⟨fun c => Nat.zero_le _, List.forall_mem_nil _, List.forall_mem_nil _,
    ⟨hbinds, List.forall_mem_nil _⟩, List.forall_mem_nil _, fun w hw => ?_, hcloses,
    List.forall_mem_nil _, ⟨hbooks, List.forall_mem_nil _⟩, fun w hw => absurd hw List.not_mem_nil⟩
  cases hpurges.symm.trans hw

/-- An idle frame may be put in front. -/
theorem skipSpec_cons {g : Frame} (h : SkipSpec p f fs) (hg : idle g = true) :
    SkipSpec p f (g :: fs) := by
  obtain ⟨howner, hseeks, hresends, hbinds, htries, hpushes, hbooks⟩ := idle_spec hg
  refine ⟨fun c => ?_, List.forall_mem_cons.mpr ⟨fun c hc => ?_, h.seeks⟩,
    List.forall_mem_cons.mpr ⟨fun c hc => ?_, h.resends⟩,
    ⟨h.binds.1, List.forall_mem_cons.mpr ⟨hbinds, h.binds.2⟩⟩,
    List.forall_mem_cons.mpr ⟨fun w hw => ?_, h.tries⟩, fun w hw => ?_, h.closes,
    List.forall_mem_cons.mpr ⟨hpushes, h.pushes⟩,
    ⟨h.books.1, List.forall_mem_cons.mpr ⟨hbooks, h.books.2⟩⟩, fun w hw => ?_⟩
  · rw [List.countP_cons_of_neg (by simp [howner])]
    exact h.owner c
  · cases hseeks.symm.trans hc
  · cases hresends.symm.trans hc
  · rw [htries] at hw
    cases hw
  · obtain ⟨g', hg', hpurges⟩ := h.purges w hw
    exact ⟨g', List.mem_cons_of_mem _ hg', hpurges⟩
  · rcases List.mem_cons.mp hw with rfl | hw
    · cases hg
    · exact h.retains w hw

theorem skipSpec_one (hf : Passive f) {g : Frame} (hg : idle g = true) : SkipSpec p f [g] :=
  skipSpec_cons (skipSpec_nil hf) hg

theorem skipSpec_two (hf : Passive f) {g g' : Frame} (hg : idle g = true) (hg' : idle g' = true) :
    SkipSpec p f [g, g'] := skipSpec_cons (skipSpec_one hf hg') hg

/-- A frame goes on as another one of the same client, or of the same writer. -/
theorem skipSpec_single {g : Frame} (hg : Silent g) (howner : owner g = owner f)
    (hpurges : purges g = purges f) (hf : binds f = none ∧ closes f = [] ∧ books f = false)
    (hretains : ∀ w, g = .readerRetain w → p.cleanupDone w = true) : SkipSpec p f [g] := by
  obtain ⟨hseeks, hresends, hbinds, htries, hpushes, hbooks⟩ := hg
  refine ⟨fun c => ?_, List.forall_mem_singleton.mpr fun c hc => ?_,
    List.forall_mem_singleton.mpr fun c hc => ?_, ⟨hf.1, List.forall_mem_singleton.mpr hbinds⟩,
    List.forall_mem_singleton.mpr fun w hw => ?_, fun w hw => ?_, hf.2.1,
    List.forall_mem_singleton.mpr hpushes, ⟨hf.2.2, List.forall_mem_singleton.mpr hbooks⟩,
    fun w hw => hretains w (List.mem_singleton.mp hw).symm⟩
  · rw [List.countP_singleton, List.countP_singleton, howner]
  · cases hseeks.symm.trans hc
  · cases hresends.symm.trans hc
  · rw [htries] at hw
    cases hw
  · exact ⟨g, List.mem_singleton_self g, hpurges.trans hw⟩

/-- A send that goes on to another of its steps. -/
theorem skipSpec_send {call call' : SendCall} {pc pc' : SendPc} (hconn : call'.connId = call.connId)
    (hseeks : seeks (.send call' pc') = none ∨ seeks (.send call pc) = some call.connId ∨
      p.registry.getWriter call.connId = none)
    (hresends : ∀ c, resends (.send call' pc') = some c →
      resends (.send call pc) = some c ∨ (p.registry.getWriter c).isSome = true)
    (hbinds : binds (.send call pc) = none) (hbinds' : binds (.send call' pc') = none)
    (htries : ∀ w ∈ tries (.send call' pc'), w ∈ tries (.send call pc) ∨ w ∈ p.writerIds) :
    SkipSpec p (.send call pc) [.send call' pc'] := by
  refine ⟨fun c => ?_, List.forall_mem_singleton.mpr fun c hc => ?_,
    List.forall_mem_singleton.mpr hresends, ⟨hbinds, List.forall_mem_singleton.mpr hbinds'⟩,
    List.forall_mem_singleton.mpr htries, nofun, rfl,
    List.forall_mem_singleton.mpr rfl, ⟨rfl, List.forall_mem_singleton.mpr rfl⟩, fun w hw => ?_⟩
  · have howner : owner (.send call' pc') = owner (.send call pc) := congrArg some hconn
    rw [List.countP_singleton, List.countP_singleton, howner]
  · obtain rfl : c = call.connId := (Option.some.inj (owner_of_seeks hc)).symm.trans hconn
    rcases hseeks with hnone | hseeks
    · cases hnone.symm.trans hc
    · exact hseeks
  · cases List.mem_singleton.mp hw

/-- A send that starts over. -/
theorem skipSpec_lookup {call : SendCall} {pc : SendPc} (hbinds : binds (.send call pc) = none) :
    SkipSpec p (.send call pc) [.send call .lookup] :=
  skipSpec_send rfl (.inl rfl) nofun hbinds rfl nofun

/-- A send that goes on looking for a writer. -/
theorem skipSpec_seek {call call' : SendCall} {pc pc' : SendPc} (hconn : call'.connId = call.connId)
    (hseeks : seeks (.send call pc) = some call.connId) (hresends : resends (.send call' pc') = none)
    (hbinds : binds (.send call pc) = none) (hbinds' : binds (.send call' pc') = none)
    (htries : ∀ w ∈ tries (.send call' pc'), w ∈ tries (.send call pc) ∨ w ∈ p.writerIds) :
    SkipSpec p (.send call pc) [.send call' pc'] := by
  refine skipSpec_send hconn (.inr (.inl hseeks)) (fun c hc => ?_) hbinds hbinds' htries
  cases hresends.symm.trans hc

theorem sendProxyReq_spec {call : SendCall} {pc : SendPc}
    (h : sendProxyReq p call pc a = some (e, fs, sp)) : OpSpec p (.send call pc) fs sp e := by
  revert h
  fun_cases sendProxyReq p call pc a <;> intro h <;> cases h
  all_goals first
    | exact opSpec_skip (skipSpec_one ⟨rfl, rfl, rfl, rfl⟩ rfl)
    | exact opSpec_skip (skipSpec_lookup rfl)
    | exact opSpec_skip (skipSpec_cons (skipSpec_lookup rfl) rfl)
    | refine opSpec_skip (skipSpec_seek rfl rfl rfl rfl rfl ?_)
    | refine opSpec_skip (skipSpec_cons (skipSpec_seek rfl rfl rfl rfl rfl ?_) rfl)
    | exact .inl ⟨rfl, rfl, rfl⟩
    | exact .inr ⟨call, rfl, rfl, List.mem_cons_self, rfl, rfl, rfl, rfl⟩
    | skip
  case case1.refl w hw =>
    refine opSpec_skip (skipSpec_send rfl (.inl rfl) ?_ rfl rfl nofun)
    rintro c ⟨⟩
    exact .inr (Option.isSome_iff_exists.mpr ⟨w, hw⟩)
  case case2.refl hnone =>
    exact opSpec_skip (skipSpec_send rfl (.inr (.inr hnone)) nofun rfl rfl nofun)
  case case6.refl =>
    exact opSpec_skip (skipSpec_send rfl (.inl rfl) (fun _ h => .inl h) rfl rfl nofun)
  case case43.refl => exact ⟨call, rfl, rfl, rfl, rfl, rfl⟩
  -- left: the writers that may be tried
  case case21.refl cs hsub _ => exact fun w hw => .inl (hsub (by simpa [tries] using hw))
  case case25.refl cs hsub _ => exact fun w hw => .inr (hsub (by simpa [tries] using hw))
  case case33.refl w todo fallback _ => cases fallback <;> grind [tries]
  all_goals first
    | exact fun w hw => .inl hw
    | exact fun w hw => .inr hw
    | exact fun w hw => .inl (List.mem_cons_of_mem _ hw)
    | exact nofun

theorem claimCleanup_spec {w : ℕ} {rest : List Frame}
    (hrest : f = .readerExit w ∧ rest = [.readerRetain w] ∨ f = .pingExit w ∧ rest = [])
    (h : claimCleanup p w rest = some (e, fs, sp)) : OpSpec p f fs sp e := by
  revert h
  fun_cases claimCleanup p w rest <;> intro h <;> cases h
  case case1.refl hdone =>
    refine opSpec_skip ?_
    rcases hrest with ⟨rfl, rfl⟩ | ⟨rfl, rfl⟩
    · refine skipSpec_single ⟨rfl, rfl, rfl, rfl, rfl, rfl⟩ rfl rfl ⟨rfl, rfl, rfl⟩ ?_
      rintro w' ⟨⟩
      exact hdone
    · exact skipSpec_nil ⟨rfl, rfl, rfl, rfl⟩
  case case2.refl => exact ⟨rest, hrest, rfl, rfl⟩

/-- Every step of every task, by its operation. -/
theorem exec_spec (h : exec p f a = some (e, fs, sp)) : OpSpec p f fs sp e := by
  revert h
  fun_cases exec p f a <;> intro h
  all_goals first
    | exact sendProxyReq_spec h
    | exact claimCleanup_spec (by simp) h
    | cases h
  all_goals first
    | exact opSpec_skip (skipSpec_nil ⟨rfl, rfl, rfl, rfl⟩)
    | exact opSpec_skip (skipSpec_one ⟨rfl, rfl, rfl, rfl⟩ rfl)
    | exact opSpec_skip (skipSpec_two ⟨rfl, rfl, rfl, rfl⟩ rfl rfl)
    | exact opSpec_skip (skipSpec_single ⟨rfl, rfl, rfl, rfl, rfl, rfl⟩ rfl rfl ⟨rfl, rfl, rfl⟩ nofun)
    | exact (show SkipSpec p .proxy [.proxy, _] from skipSpec_two ⟨rfl, rfl, rfl, rfl⟩ rfl rfl)
    | skip
  case case13.refl =>
    exact opSpec_skip (skipSpec_cons (skipSpec_two ⟨rfl, rfl, rfl, rfl⟩ rfl rfl) rfl)
  -- the writer that `remove_writer_only` found
  case case16.refl w discard v hfind =>
    obtain rfl : v.id = w := by simpa using List.find?_some hfind
    exact ⟨discard, List.mem_of_find?_eq_some hfind, rfl, rfl, rfl⟩
  case case20.refl => exact ⟨rfl, rfl, rfl, rfl⟩
  all_goals simp_all [OpSpec]

/-- A step of the pool as one operation on the shared state. -/
theorem step_op {cfg cfg' : PoolConfig} {l : ℕ × Answer}
    (h : poolProgram.step cfg l = some cfg') :
    ∃ f fs sp e, OpSpec cfg.shared f fs sp e ∧ poolProgram.op cfg l = some e ∧
      cfg'.shared = e.effect cfg.shared ∧ cfg'.history = cfg.history ++ [e] := by
  obtain ⟨f, -, e, fs, sp, hx, hop, -, -, hshared, hhist⟩ := Program.step_frames h
  exact ⟨f, fs, sp, e, exec_spec hx, hop, hshared, hhist⟩

end

end MtProxy.MiddleProxy
