import MtProxy.Proxy.ClientEnd
import MtProxy.Proxy.RelaySender
import MtProxy.Schemes.Run

/-! What the relay leaves behind when it returns: is the Middle-End told that the conn is closed? To the
    invariant of the sender comes that of the read loop, which says whether a `Close` has been or will be
    served:

        reading ──▶ end of file ──▶ Close queued ──▶ join ──▶ told
           └──────▶ error ─────────────────────────▶ join ──▶ not told

    and which of the two ways a run takes is decided by the client's stream alone. -/

namespace MtProxy.Proxy.RelayTeardown
open Schemes MtProxy.Stream MiddleProxy

/-! ### The read loop -/

/-- A `Close` is served. -/
def SenderPc.closing : SenderPc → Bool
  | .closeLookup => true
  | pc => pc.looked

/-- No `Close` has been queued. -/
structure Serving (sender : SenderPc) (c2me : List C2MeCommand) : Prop where
  queue : .close ∉ c2me
  waits : sender.closing = false
  going : sender ≠ .drained

/-- The read loop is left: for an error of the sender, with a `Close`, or without one. -/
inductive Left (p : RelayParams) (stream : ClientStream) (sender : SenderPc)
    (c2me : List C2MeCommand) : Prop where
  | failed (e) (hsender : sender = .failed e)
  | told (hclean : EndsAtFrame p.protoTag p.maxFrame stream) (hgoing : sender ≠ .drained)
      (hclose : .close ∈ c2me ∨ sender.closing = true)
  | untold (hclean : ¬ EndsAtFrame p.protoTag p.maxFrame stream) (hqueue : .close ∉ c2me)
      (hsender : sender.closing = false)

section
variable (p : RelayParams) (stream : ClientStream)

def MainPc.Inv (sender : SenderPc) (c2me : List C2MeCommand) : MainPc → Prop
  | .reading r | .enqueueData _ _ r => Serving sender c2me ∧
      (EndsAtFrame p.protoTag p.maxFrame r.stream ↔ EndsAtFrame p.protoTag p.maxFrame stream)
  | .enqueueClose => Serving sender c2me ∧ EndsAtFrame p.protoTag p.maxFrame stream
  | .joinSender | .joinWriter | .unregister | .decrement | .returned _ => Left p stream sender c2me

def MainPc.unregistered : MainPc → Bool
  | .decrement | .returned _ => true
  | _ => false

def MainPc.decrements : MainPc → ℕ
  | .returned _ => 1
  | _ => 0

structure RelayInv (s : RelayState) : Prop where
  sender : s.sender.Inv s
  last : BoundLast s
  main : s.main.Inv p stream s.sender s.c2me
  joined : s.main.stopSent = true → s.sender.terminal = true
  unregistered : s.main.unregistered = true → s.registered = false ∧ s.bound = none
  decrements : s.decrements = s.main.decrements

end

section
variable {p : RelayParams} {stream : ClientStream} {s s' : RelayState}

theorem RelayInv.start (p : RelayParams) (stream : ClientStream) :
    RelayInv p stream (.start stream) where
  sender := ⟨fun _ => List.not_mem_nil, nofun⟩
  last := nofun
  main := ⟨⟨List.not_mem_nil, rfl, nofun⟩, Iff.rfl⟩
  joined := nofun
  unregistered := nofun
  decrements := rfl

/-- A sender that is gone while no `Close` was served has failed. -/
theorem Serving.failed {c2me : List C2MeCommand} {sender : SenderPc} (h : Serving sender c2me)
    (hterminal : sender.terminal = true) : ∃ e, sender = .failed e := by
  cases sender with
  | drained => exact absurd rfl h.going
  | closed => exact nomatch h.waits
  | failed e => exact ⟨e, rfl⟩
  | _ => exact nomatch hterminal

/-- A step of the read loop or of the clean-up that leaves the registry alone. -/
theorem RelayInv.advance (h : RelayInv p stream s) {main : MainPc} {c2me : List C2MeCommand}
    {clientClosed : Bool} {mainResult : Except ProxyError Unit} {decrements : ℕ}
    (hmain : main.Inv p stream s.sender c2me)
    (hjoined : main.stopSent = true → s.sender.terminal = true)
    (hunregistered : main.unregistered = true → s.registered = false ∧ s.bound = none)
    (hdecrements : decrements = main.decrements) :
    RelayInv p stream { s with
      main := main
      c2me := c2me
      clientClosed := clientClosed
      mainResult := mainResult
      decrements := decrements } := by
  have hd : Disturbs s { s with
      main := main
      c2me := c2me
      clientClosed := clientClosed
      mainResult := mainResult
      decrements := decrements } :=
    .of_bound (fun _ h => h) (fun _ h => h) (Disturbs.nothing_sent s) rfl rfl
  exact ⟨h.sender.disturb hd rfl, h.last.disturb hd, hmain, hjoined, hunregistered, hdecrements⟩

/-- Once the sender is gone, its conn may be unregistered. -/
theorem SenderPc.Inv.unregister {pc : SenderPc} (h : pc.Inv s) (hterminal : pc.terminal = true) :
    pc.Inv { s with main := .decrement, registered := false, bound := none } := by
  cases pc with
  | drained => exact h
  | closed =>
    have htold : Told s := h
    exact ⟨htold.once, htold.told⟩
  | failed e => exact h
  | _ => exact nomatch hterminal

theorem mainStep_inv (h : RelayInv p stream s) (hstep : mainStep p s = some s') :
    RelayInv p stream s' := by
  have hmain := h.main
  have hdecrements := h.decrements
  revert hstep
  fun_cases mainStep p s with
  | case1 r hpc f hread flags r' =>
    rintro ⟨⟩
    rw [hpc] at hmain hdecrements
    refine h.advance ⟨hmain.1, ?_⟩ nofun nofun hdecrements
    exact (endsAtFrame_some hread).symm.trans hmain.2
  | case2 r hpc hread =>
    rintro ⟨⟩
    rw [hpc] at hmain hdecrements
    exact h.advance ⟨hmain.1, hmain.2.mp (endsAtFrame_none hread)⟩ nofun nofun hdecrements
  | case3 r hpc e hread =>
    rintro ⟨⟩
    rw [hpc] at hmain hdecrements
    have hends := mt hmain.2.mpr (not_endsAtFrame hread)
    exact h.advance (Left.untold hends hmain.1.queue hmain.1.waits) nofun nofun hdecrements
  | case4 payload flags r hpc hterminal =>
    rintro ⟨⟩
    rw [hpc] at hmain hdecrements
    obtain ⟨e, he⟩ := hmain.1.failed hterminal
    exact h.advance (Left.failed e he) nofun nofun hdecrements
  | case5 payload flags r hpc hterminal hroom =>
    rintro ⟨⟩
    rw [hpc] at hmain hdecrements
    refine h.advance ⟨⟨?_, hmain.1.waits, hmain.1.going⟩, hmain.2⟩ nofun nofun hdecrements
    intro hmem
    rcases List.mem_append.mp hmem with hmem | hmem
    · exact hmain.1.queue hmem
    · cases List.mem_singleton.mp hmem
  | case6 payload flags r hpc hterminal hroom => exact nofun
  | case7 hpc hterminal =>
    rintro ⟨⟩
    rw [hpc] at hmain hdecrements
    obtain ⟨e, he⟩ := hmain.1.failed hterminal
    exact h.advance (Left.failed e he) nofun nofun hdecrements
  | case8 hpc hterminal hroom =>
    rintro ⟨⟩
    rw [hpc] at hmain hdecrements
    refine h.advance (Left.told hmain.2 hmain.1.going (Or.inl ?_)) nofun nofun hdecrements
    exact List.mem_append_right _ (List.mem_singleton_self _)
  | case9 hpc hterminal hroom => exact nofun
  | case10 hpc hterminal =>
    rintro ⟨⟩
    rw [hpc] at hmain hdecrements
    exact h.advance hmain (fun _ => hterminal) nofun hdecrements
  | case11 hpc hterminal => exact nofun
  | case12 hpc result hfinished =>
    rintro ⟨⟩
    have hjoined := h.joined
    rw [hpc] at hmain hdecrements hjoined
    exact h.advance hmain hjoined nofun hdecrements
  | case13 hpc hwaiting => exact nofun
  | case14 hpc hdraining => exact nofun
  | case15 hpc =>
    rintro ⟨⟩
    have hterminal : s.sender.terminal = true := h.joined (by rw [hpc]; rfl)
    rw [hpc] at hmain hdecrements
    exact ⟨h.sender.unregister hterminal, nofun, hmain, fun _ => hterminal, fun _ => ⟨rfl, rfl⟩,
      hdecrements⟩
  | case16 hpc =>
    rintro ⟨⟩
    have hjoined := h.joined
    have hunregistered := h.unregistered
    rw [hpc] at hmain hdecrements hjoined hunregistered
    exact h.advance hmain hjoined hunregistered (congrArg (· + 1) hdecrements)
  | case17 result hpc => exact nofun

/-! The others and the sender leave the read loop's invariant alone. -/

theorem RelayInv.beside (h : RelayInv p stream s) (hb : Beside s s') : RelayInv p stream s' where
  sender := hb.sender ▸ h.sender.disturb hb.toDisturbs rfl
  last := h.last.disturb hb.toDisturbs
  main := by
    rw [hb.main, hb.sender, hb.c2me]
    exact h.main
  joined := by
    rw [hb.main, hb.sender]
    exact h.joined
  unregistered := by
    rw [hb.main]
    intro hmain
    obtain ⟨hregistered, hbound⟩ := h.unregistered hmain
    refine ⟨hb.registered hregistered, ?_⟩
    rw [Option.eq_none_iff_forall_ne_some]
    intro w hw
    cases hbound.symm.trans (hb.bound w hw).1
  decrements := by
    rw [hb.main, hb.decrements]
    exact h.decrements

theorem AfterRemoval.closing_pc (next : AfterRemoval) : next.pc.closing = next.looked := by
  cases next <;> rfl

theorem AfterRemoval.pc_ne_drained (next : AfterRemoval) : next.pc ≠ .drained := by
  cases next <;> exact nofun

/-- What a move of the sender does to the queue. -/
inductive QueueMove (s s' : RelayState) : Prop where
  | none (hqueue : s'.c2me = s.c2me) (hclosing : s'.sender.closing = s.sender.closing)
      (hgoing : s'.sender ≠ .drained)
  | data (payload flags) (hqueue : s.c2me = .data payload flags :: s'.c2me)
      (hclosing : s.sender.closing = false) (hclosing' : s'.sender.closing = false)
      (hgoing : s'.sender ≠ .drained)
  | close (hqueue : s.c2me = .close :: s'.c2me) (hclosing' : s'.sender.closing = true)
      (hgoing : s'.sender ≠ .drained)
  | ended (hqueue : s.c2me = []) (hqueue' : s'.c2me = []) (hjoining : s.main.joining = true)
      (hclosing : s.sender.closing = false) (hclosing' : s'.sender.closing = false)

theorem SenderMove.queue (h : SenderMove s s') : QueueMove s s' := by
  cases h with
  | data payload flags rest hpc hqueue =>
    exact .data payload flags hqueue (by rw [hpc]; rfl) rfl nofun
  | close rest hpc hqueue => exact .close hqueue rfl nofun
  | drained hpc hqueue hjoining => exact .ended hqueue hqueue hjoining (by rw [hpc]; rfl) rfl
  | lose w next hpc =>
    refine .none rfl ?_ ?_
    · rw [hpc]
      show SenderPc.closing (if _ then _ else _) = _
      split_ifs
      · rfl
      · exact next.closing_pc
    · show (if _ then _ else _) ≠ _
      split_ifs
      · exact nofun
      · exact next.pc_ne_drained
  | closeClient next hpc =>
    refine .none rfl ?_ ?_
    · rw [hpc]
      show SenderPc.closing (if _ then _ else _) = _
      split_ifs <;> rfl
    · show (if _ then _ else _) ≠ _
      split_ifs <;> exact nofun
  | routeClose next hpc =>
    obtain ⟨responses, hdeliver⟩ := deliver_eq s .close
    refine .none ?_ (by rw [hpc]; rfl) nofun
    rw [hdeliver]
  | dropClient next hpc =>
    exact .none rfl (by rw [hpc]; exact next.closing_pc) next.pc_ne_drained
  | _ => exact .none rfl (by simp only [*]; rfl) nofun

theorem SenderMove.not_terminal (h : SenderMove s s') : s.sender.terminal = false := by
  cases h with
  | _ => simp only [*]; rfl

/-- Without a `Close` in the queue, none begins to be served. -/
theorem QueueMove.untold (h : QueueMove s s') (hnone : .close ∉ s.c2me)
    (hsender : s.sender.closing = false) : .close ∉ s'.c2me ∧ s'.sender.closing = false := by
  cases h with
  | none hqueue hclosing hgoing => exact ⟨hqueue ▸ hnone, hclosing.trans hsender⟩
  | data payload flags hqueue hclosing hclosing' hgoing =>
    refine ⟨fun hmem => hnone ?_, hclosing'⟩
    rw [hqueue]
    exact List.mem_cons_of_mem _ hmem
  | close hqueue hclosing' hgoing =>
    refine absurd ?_ hnone
    rw [hqueue]
    exact List.mem_cons_self
  | ended hqueue hqueue' hjoining hclosing hclosing' =>
    rw [hqueue']
    exact ⟨List.not_mem_nil, hclosing'⟩

theorem QueueMove.going (h : QueueMove s s') (hjoining : s.main.joining = false) :
    s'.sender ≠ .drained := by
  cases h with
  | none hqueue hclosing hgoing => exact hgoing
  | data payload flags hqueue hclosing hclosing' hgoing => exact hgoing
  | close hqueue hclosing' hgoing => exact hgoing
  | ended hqueue hqueue' hjoin => exact nomatch hjoining.symm.trans hjoin

theorem Serving.move (h : Serving s.sender s.c2me) (hjoining : s.main.joining = false)
    (hmove : SenderMove s s') : Serving s'.sender s'.c2me := by
  obtain ⟨hqueue, hwaits⟩ := hmove.queue.untold h.queue h.waits
  exact ⟨hqueue, hwaits, hmove.queue.going hjoining⟩

theorem Left.move (h : Left p stream s.sender s.c2me) (hmove : SenderMove s s') :
    Left p stream s'.sender s'.c2me := by
  cases h with
  | failed e hsender =>
    have hterminal := hmove.not_terminal
    rw [hsender] at hterminal
    exact nomatch hterminal
  | told hclean hgoing hclose =>
    cases hmove.queue with
    | none hqueue hclosing hgoing' =>
      refine .told hclean hgoing' ?_
      rw [hqueue, hclosing]
      exact hclose
    | data payload flags hqueue hclosing hclosing' hgoing' =>
      refine .told hclean hgoing' (Or.inl ?_)
      rcases hclose with hmem | hclose
      · rw [hqueue] at hmem
        exact (List.mem_cons.mp hmem).resolve_left nofun
      · exact nomatch hclosing.symm.trans hclose
    | close hqueue hclosing' hgoing' => exact .told hclean hgoing' (Or.inr hclosing')
    | ended hqueue hqueue' hjoining hclosing =>
      rcases hclose with hmem | hclose
      · rw [hqueue] at hmem
        exact absurd hmem List.not_mem_nil
      · exact nomatch hclosing.symm.trans hclose
  | untold hclean hnone hsender =>
    obtain ⟨hqueue, hclosing⟩ := hmove.queue.untold hnone hsender
    exact .untold hclean hqueue hclosing

/-- The sender moves no part of the read loop. -/
theorem SenderMove.frame (h : SenderMove s s') :
    s'.main = s.main ∧ s'.decrements = s.decrements := by
  cases h with
  | routeClose next hpc =>
    obtain ⟨responses, hdeliver⟩ := deliver_eq s .close
    rw [hdeliver]
    exact ⟨rfl, rfl⟩
  | _ => exact ⟨rfl, rfl⟩

theorem RelayInv.senderMove (h : RelayInv p stream s) (hmove : SenderMove s s') :
    RelayInv p stream s' := by
  obtain ⟨hmain, hdecrements⟩ := hmove.frame
  have hstopped : s.main.stopSent = false := by
    rw [← Bool.not_eq_true]
    intro hstop
    exact nomatch hmove.not_terminal.symm.trans (h.joined hstop)
  refine ⟨senderMove_inv h.sender h.last hmove, senderMove_boundLast h.last hmove, ?_, ?_, ?_, ?_⟩
  · have hinv := h.main
    rw [hmain]
    revert hinv
    cases hpc : s.main with
    | reading r => exact fun hinv => ⟨hinv.1.move (by rw [hpc]; rfl) hmove, hinv.2⟩
    | enqueueData payload flags r =>
      exact fun hinv => ⟨hinv.1.move (by rw [hpc]; rfl) hmove, hinv.2⟩
    | enqueueClose => exact fun hinv => ⟨hinv.1.move (by rw [hpc]; rfl) hmove, hinv.2⟩
    | joinSender => exact fun hinv => Left.move hinv hmove
    | _ =>
      rw [hpc] at hstopped
      exact nomatch hstopped
  · rw [hmain]
    exact fun hstop => nomatch hstopped.symm.trans hstop
  · rw [hmain]
    intro hunregistered
    revert hstopped hunregistered
    cases s.main <;> exact nofun
  · rw [hmain, hdecrements]
    exact h.decrements

theorem step_inv {e : RelayLabel} (h : RelayInv p stream s) (hstep : step p s e = some s') :
    RelayInv p stream s' := by
  cases e with
  | main => exact mainStep_inv h hstep
  | sender a => exact h.senderMove (senderStep_move hstep)
  | meWriter a => exact h.beside (meWriterStep_beside hstep)
  | other o => exact h.beside (otherStep_beside hstep)

/-! ### What is left behind -/

theorem ToldOnce.mem {sent : List (ℕ × WriterItem)} {w : ℕ} (h : ToldOnce sent w) :
    (w, WriterItem.closeExt) ∈ sent := by
  obtain ⟨before, after, rfl, -, -⟩ := h
  exact List.mem_append_right _ List.mem_cons_self

/-- Nobody is told by a sender that has not served a `Close`. -/
theorem SenderPc.Inv.untold {pc : SenderPc} (h : pc.Inv s) (hclosing : pc.closing = false)
    (hterminal : pc.terminal = true) : Untold s := by
  cases pc with
  | drained => exact h
  | failed e => exact h.1
  | closed => exact nomatch hclosing
  | _ => exact nomatch hterminal

theorem SenderPc.Inv.failed {e : ProxyError} {w : ℕ} {dropped : Bool} {P : Prop}
    (h : (SenderPc.failed e).Inv s) (hlast : s.lastBinding = some ⟨w, false, dropped⟩)
    (hpool : s.gone w = false) : ToldOnce s.sent w ↔ P ∧ dropped = false := by
  refine iff_of_false (fun htold => h.1 w htold.mem) ?_
  rintro ⟨-, rfl⟩
  exact nomatch hpool.symm.trans (h.2 w hlast)

/-- When the relay has returned, the writer of the last binding was told if and only if the client's
    stream ended at a frame and no other task had undone the binding before. -/
theorem RelayInv.told_iff {result : Except ProxyError Unit} (h : RelayInv p stream s)
    (hreturned : s.main = .returned result) {w : ℕ} {dropped : Bool}
    (hlast : s.lastBinding = some ⟨w, false, dropped⟩) (hpool : s.gone w = false)
    (halive : s.dead w = false) :
    ToldOnce s.sent w ↔ EndsAtFrame p.protoTag p.maxFrame stream ∧ dropped = false := by
  have hmain := h.main
  have hterminal : s.sender.terminal = true := h.joined (by rw [hreturned]; rfl)
  have hsender := h.sender
  rw [hreturned] at hmain
  cases hmain with
  | failed e he =>
    rw [he] at hsender
    exact hsender.failed hlast hpool
  | told hclean hgoing hclose =>
    cases hpc : s.sender with
    | drained => exact absurd hpc hgoing
    | failed e =>
      rw [hpc] at hsender
      exact hsender.failed hlast hpool
    | closed =>
      rw [hpc] at hsender
      have htold : Told s := hsender
      constructor
      · intro honce
        obtain ⟨closedByMe, hw⟩ := (htold.once w honce.mem).1
        cases hlast.symm.trans hw
        exact ⟨hclean, rfl⟩
      · rintro ⟨-, rfl⟩
        rcases htold.told w hlast with hgone | hdead | hmem
        · exact nomatch hpool.symm.trans hgone
        · exact nomatch halive.symm.trans hdead
        · exact (htold.once w hmem).2
    | _ =>
      rw [hpc] at hterminal
      exact nomatch hterminal
  | untold hclean hqueue hclosing =>
    refine iff_of_false (fun htold => ?_) (fun h => hclean h.1)
    exact hsender.untold hclosing hterminal w htold.mem

end

/-- In every run that returns, the conn is unregistered and the user's count taken back once, and the
    Middle-End is told exactly if the client's stream ended at a frame and nobody else had unregistered
    the conn. -/
theorem middle_end_told_iff (p : RelayParams) (stream : ClientStream) (es : List RelayLabel)
    {s : RelayState} {result : Except ProxyError Unit}
    (hrun : run (step p) (.start stream) es = some s) (hreturned : s.main = .returned result) :
    (s.registered = false ∧ s.bound = none ∧ s.decrements = 1) ∧
      ∀ w dropped, s.lastBinding = some ⟨w, false, dropped⟩ → s.gone w = false → s.dead w = false →
        (ToldOnce s.sent w ↔ EndsAtFrame p.protoTag p.maxFrame stream ∧ dropped = false) := by
  have h : RelayInv p stream s :=
    run_invariant (fun _ _ _ hI hs => step_inv hI hs) es (.start p stream) hrun
  obtain ⟨hregistered, hbound⟩ := h.unregistered (by rw [hreturned]; rfl)
  refine ⟨⟨hregistered, hbound, ?_⟩, ?_⟩
  · rw [h.decrements, hreturned]
    rfl
  · exact fun w dropped hlast hpool halive => h.told_iff hreturned hlast hpool halive

/-- What can be compared of a state: the count of the returned relay and what became of writer 0. -/
structure RelayView where
  decrements : ℕ
  lastBinding : Option Binding
  gone : Bool
  dead : Bool
  sent : List (ℕ × WriterItem)
  deriving DecidableEq

def RelayState.view (s : RelayState) : RelayView :=
  ⟨s.main.decrements, s.lastBinding, s.gone 0, s.dead 0, s.sent⟩

theorem RelayState.of_view {o : Option RelayState} {sent : List (ℕ × WriterItem)}
    (h : o.map RelayState.view = some ⟨1, some ⟨0, false, false⟩, false, false, sent⟩) :
    ∃ s result, o = some s ∧ s.main = .returned result ∧ s.lastBinding = some ⟨0, false, false⟩ ∧
      s.gone 0 = false ∧ s.dead 0 = false ∧ s.sent = sent := by
  obtain ⟨s, hs, hview⟩ := Option.map_eq_some_iff.mp h
  simp only [RelayState.view, RelayView.mk.injEq] at hview
  obtain ⟨hreturned, hrest⟩ := hview
  cases hmain : s.main with
  | returned result => exact ⟨s, result, hs, hmain, hrest⟩
  | _ =>
    rw [hmain] at hreturned
    exact nomatch hreturned

/-- One frame is forwarded to writer 0, and then the client closes. -/
theorem middle_end_told_at_eof :
    ∃ s, run (step ⟨.intermediate, 16, ⟨0, 7⟩, 0⟩) (.start (closedAfter [4, 0, 0, 0, 1, 2, 3, 4]))
      [.main, .main, .sender .go, .sender .go, .sender (.candidate 0), .sender .go, .main, .main,
        .sender .go, .sender .go, .sender .sent, .sender .go, .main, .meWriter .stopped, .main, .main,
        .main] = some s ∧ ToldOnce s.sent 0 := by
  have hends : EndsAtFrame .intermediate 16 (closedAfter [4, 0, 0, 0, 1, 2, 3, 4]) := by
    let f : WireFrame .intermediate := ⟨[4, 0, 0, 0], false, [1, 2, 3, 4], .word (by decide) rfl⟩
    have hfile : EndsAtFrame .intermediate 16 (closedAfter []) := .eof (by decide) nofun
    exact .frame f (Or.inr (by decide)) hfile
  have hview : (run (step ⟨.intermediate, 16, ⟨0, 7⟩, 0⟩)
      (.start (closedAfter [4, 0, 0, 0, 1, 2, 3, 4]))
      [.main, .main, .sender .go, .sender .go, .sender (.candidate 0), .sender .go, .main, .main,
        .sender .go, .sender .go, .sender .sent, .sender .go, .main, .meWriter .stopped, .main, .main,
        .main]).map RelayState.view = some ⟨1, some ⟨0, false, false⟩, false, false,
          [(0, .proxyReq [1, 2, 3, 4] 0), (0, .closeExt)]⟩ := by decide +kernel
  obtain ⟨s, result, hrun, hreturned, hlast, hgone, hdead, -⟩ := RelayState.of_view hview
  obtain ⟨-, h⟩ := middle_end_told_iff _ _ _ hrun hreturned
  exact ⟨s, hrun, (h 0 false hlast hgone hdead).mpr ⟨hends, rfl⟩⟩

/-- The same client sends a frame of two bytes instead: writer 0 is never told. -/
theorem middle_end_not_told :
    ¬ ∀ (p : RelayParams) (stream : ClientStream) (es : List RelayLabel) (s : RelayState)
        (result : Except ProxyError Unit), run (step p) (.start stream) es = some s →
      s.main = .returned result → ∀ w, s.lastBinding = some ⟨w, false, false⟩ → s.gone w = false →
        s.dead w = false → ToldOnce s.sent w := by
  intro h
  have hview : (run (step ⟨.intermediate, 16, ⟨0, 7⟩, 0⟩)
      (.start (closedAfter [4, 0, 0, 0, 1, 2, 3, 4, 2, 0, 0, 0, 5, 6]))
      [.main, .main, .sender .go, .sender .go, .sender (.candidate 0), .sender .go, .main,
        .sender .go, .main, .meWriter .stopped, .main, .main, .main]).map RelayState.view =
      some ⟨1, some ⟨0, false, false⟩, false, false, [(0, .proxyReq [1, 2, 3, 4] 0)]⟩ := by
    decide +kernel
  obtain ⟨s, result, hrun, hreturned, hlast, hgone, hdead, hsent⟩ := RelayState.of_view hview
  have htold := (h _ _ _ s result hrun hreturned 0 hlast hgone hdead).mem
  rw [hsent] at htold
  exact absurd htold (by decide)

end MtProxy.Proxy.RelayTeardown
