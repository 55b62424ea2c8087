import MtProxy.Proxy.RelayTasks

/-! What the sender of a relay has done for the Middle-End, by where it stands, and what the other tasks
    may do to it meanwhile.

        serving   recv, lookup, current      bound to w, or w is out of the pool
                  select, bind               not bound: w is out of the pool
        closing   closeSend                  w is about to be told
                  closeUnregister, closed    w was told, or is closed, or out of the pool

    where `w` is the writer of a last binding that nobody has undone. -/

namespace MtProxy.Proxy.RelayTeardown
open Schemes MtProxy.Stream MiddleProxy

/-! ### What a step of the sender can do -/

inductive SenderMove (s : RelayState) : RelayState → Prop where
  | data (payload flags rest) (hpc : s.sender = .recv) (hqueue : s.c2me = .data payload flags :: rest) :
      SenderMove s { s with sender := .lookup payload flags, c2me := rest }
  | close (rest) (hpc : s.sender = .recv) (hqueue : s.c2me = .close :: rest) :
      SenderMove s { s with sender := .closeLookup, c2me := rest }
  | drained (hpc : s.sender = .recv) (hqueue : s.c2me = []) (hjoining : s.main.joining = true) :
      SenderMove s { s with sender := .drained }
  | known (payload flags w) (hpc : s.sender = .lookup payload flags) (hbound : s.bound = some w) :
      SenderMove s { s with sender := .current payload flags w }
  | unknown (payload flags) (hpc : s.sender = .lookup payload flags) (hbound : s.bound = none) :
      SenderMove s { s with sender := .select payload flags }
  | sendCurrent (payload flags w) (hpc : s.sender = .current payload flags w) :
      SenderMove s { s with sender := .recv, sent := s.sent ++ [(w, .proxyReq payload flags)] }
  | currentDead (payload flags w) (hpc : s.sender = .current payload flags w) :
      SenderMove s { s with sender := .removeWriter w (.lookup payload flags) }
  | selectDead (payload flags w) (hpc : s.sender = .select payload flags) :
      SenderMove s { s with sender := .removeWriter w (.select payload flags) }
  | send (payload flags w) (hpc : s.sender = .select payload flags) :
      SenderMove s { s with sender := .bind w, sent := s.sent ++ [(w, .proxyReq payload flags)] }
  | retry (payload flags) (hpc : s.sender = .select payload flags) :
      SenderMove s { s with sender := .lookup payload flags }
  | failed (payload flags e) (hpc : s.sender = .select payload flags) :
      SenderMove s { s with sender := .failed e }
  | bind (w) (hpc : s.sender = .bind w) : SenderMove s
      { s with sender := .recv, bound := some w, lastBinding := some ⟨w, false, false⟩ }
  | closeKnown (w) (hpc : s.sender = .closeLookup) (hbound : s.bound = some w) :
      SenderMove s { s with sender := .closeSend w }
  | closeUnknown (hpc : s.sender = .closeLookup) (hbound : s.bound = none) :
      SenderMove s { s with sender := .closeUnregister }
  | sendClose (w) (hpc : s.sender = .closeSend w) :
      SenderMove s { s with sender := .closeUnregister, sent := s.sent ++ [(w, .closeExt)] }
  | closeDead (w) (hpc : s.sender = .closeSend w) (hdead : s.dead w = true) :
      SenderMove s { s with sender := .removeWriter w .unregister }
  | unregister (hpc : s.sender = .closeUnregister) :
      SenderMove s { s with sender := .closed, registered := false, bound := none }
  | remove (w next) (hpc : s.sender = .removeWriter w next) : SenderMove s
      { s with sender := .writerLost w next, gone := Function.update s.gone w true }
  | lose (w next) (hpc : s.sender = .writerLost w next) : SenderMove s
      { s.lose w with sender := if s.bound = some w then .closeClient next else next.pc }
  | closeClient (next) (hpc : s.sender = .closeClient next) : SenderMove s
      { s with sender := if s.registered then .routeClose next else .dropClient next }
  | routeClose (next) (hpc : s.sender = .routeClose next) :
      SenderMove s { s.deliver .close with sender := .dropClient next }
  | dropClient (next) (hpc : s.sender = .dropClient next) :
      SenderMove s { s.drop with sender := next.pc }

theorem senderStep_move {s s' : RelayState} {a : SenderAnswer} (h : senderStep s a = some s') :
    SenderMove s s' := by
  revert h
  fun_cases senderStep s a with
  | case1 hpc payload flags rest hqueue =>
    rintro ⟨⟩
    exact .data payload flags rest hpc hqueue
  | case2 hpc rest hqueue =>
    rintro ⟨⟩
    exact .close rest hpc hqueue
  | case3 hpc hqueue hjoining =>
    rintro ⟨⟩
    exact .drained hpc hqueue hjoining
  | case4 hpc hqueue hjoining => rintro ⟨⟩
  | case5 payload flags hpc w hbound =>
    rintro ⟨⟩
    exact .known payload flags w hpc hbound
  | case6 payload flags hpc hbound =>
    rintro ⟨⟩
    exact .unknown payload flags hpc hbound
  | case7 payload flags w hpc hdead => rintro ⟨⟩
  | case8 payload flags w hpc hdead =>
    rintro ⟨⟩
    exact .sendCurrent payload flags w hpc
  | case9 payload flags w hpc hdead =>
    rintro ⟨⟩
    exact .currentDead payload flags w hpc
  | case10 payload flags w hpc hdead => rintro ⟨⟩
  | case11 payload flags w hpc hdead =>
    rintro ⟨⟩
    exact .selectDead payload flags w hpc
  | case12 payload flags w hpc hdead =>
    rintro ⟨⟩
    exact .send payload flags w hpc
  | case13 payload flags hpc =>
    rintro ⟨⟩
    exact .retry payload flags hpc
  | case14 payload flags e hpc =>
    rintro ⟨⟩
    exact .failed payload flags e hpc
  | case15 w hpc =>
    rintro ⟨⟩
    exact .bind w hpc
  | case16 hpc w hbound =>
    rintro ⟨⟩
    exact .closeKnown w hpc hbound
  | case17 hpc hbound =>
    rintro ⟨⟩
    exact .closeUnknown hpc hbound
  | case18 w hpc hdead => rintro ⟨⟩
  | case19 w hpc hdead =>
    rintro ⟨⟩
    exact .sendClose w hpc
  | case20 w hpc hdead =>
    rintro ⟨⟩
    exact .closeDead w hpc hdead
  | case21 w hpc hdead => rintro ⟨⟩
  | case22 hpc =>
    rintro ⟨⟩
    exact .unregister hpc
  | case23 w next hpc =>
    rintro ⟨⟩
    exact .remove w next hpc
  | case24 w next hpc =>
    rintro ⟨⟩
    exact .lose w next hpc
  | case25 next hpc =>
    rintro ⟨⟩
    exact .closeClient next hpc
  | case26 next hpc =>
    rintro ⟨⟩
    exact .routeClose next hpc
  | case27 next hpc =>
    rintro ⟨⟩
    exact .dropClient next hpc
  | case28 => rintro ⟨⟩

/-! ### The sender -/

/-- The Middle-End behind `w` is told once, and nothing but `closeConn` follows. -/
def ToldOnce (sent : List (ℕ × WriterItem)) (w : ℕ) : Prop :=
  ∃ before after, sent = before ++ (w, .closeExt) :: after ∧ (w, .closeExt) ∉ before ∧
    ∀ item ∈ after, item.2 = .closeConn

section
variable (s : RelayState)

/-- Nobody was told yet. -/
def Untold : Prop := ∀ w, (w, WriterItem.closeExt) ∉ s.sent

/-- A binding that nobody has undone is still there, or its writer is out of the pool. -/
def Kept : Prop :=
  ∀ w, s.lastBinding = some ⟨w, false, false⟩ → s.bound = some w ∨ s.gone w = true

/-- The last binding was undone, or its writer is out of the pool. -/
def Forgotten : Prop := ∀ w, s.lastBinding = some ⟨w, false, false⟩ → s.gone w = true

/-- The writer of the last binding was told, or it is closed or out of the pool. -/
structure Told : Prop where
  once : ∀ w, (w, WriterItem.closeExt) ∈ s.sent →
    (∃ closedByMe, s.lastBinding = some ⟨w, closedByMe, false⟩) ∧ ToldOnce s.sent w
  told : ∀ w, s.lastBinding = some ⟨w, false, false⟩ →
    s.gone w = true ∨ s.dead w = true ∨ (w, WriterItem.closeExt) ∈ s.sent

/-- What holds while a dead writer is removed. -/
def AfterRemoval.Inv : AfterRemoval → Prop
  | .lookup _ _ => Untold s ∧ Kept s
  | .select _ _ => Untold s ∧ Forgotten s
  | .unregister => Told s

def SenderPc.Inv : SenderPc → Prop
  | .recv | .lookup _ _ | .current _ _ _ | .closeLookup => Untold s ∧ Kept s
  | .select _ _ | .bind _ | .failed _ => Untold s ∧ Forgotten s
  | .removeWriter _ next | .closeClient next | .routeClose next | .dropClient next => next.Inv s
  | .writerLost w next => next.Inv s ∧ s.gone w = true
  | .drained => Untold s
  | .closeSend w => Untold s ∧ ∃ closedByMe, s.lastBinding = some ⟨w, closedByMe, false⟩
  | .closeUnregister | .closed => Told s

/-- A bound conn is bound as it was bound last. -/
def BoundLast : Prop := ∀ w, s.bound = some w → s.lastBinding = some ⟨w, false, false⟩

end

/-! ### What the others may do meanwhile -/

/-- A step that puts no command into a channel and binds nothing. -/
structure Disturbs (s s' : RelayState) : Prop where
  gone : ∀ w, s.gone w = true → s'.gone w = true
  dead : ∀ w, s.dead w = true → s'.dead w = true
  sent : ∃ extra, s'.sent = s.sent ++ extra ∧ ∀ item ∈ extra, item.2 = WriterItem.closeConn
  standing : ∀ w, s'.lastBinding = some ⟨w, false, false⟩ → s.lastBinding = some ⟨w, false, false⟩
  kept : s.sender.looked = false → ∀ w, s'.lastBinding = some ⟨w, false, false⟩ →
    s.bound = some w → s'.bound = some w ∨ s'.gone w = true
  bound : ∀ w, s'.bound = some w → s.bound = some w ∧ s'.lastBinding = s.lastBinding
  looked : s.sender.looked = true → ∀ w closedByMe, s.lastBinding = some ⟨w, closedByMe, false⟩ →
    ∃ closedByMe', s'.lastBinding = some ⟨w, closedByMe', false⟩

/-- A step of another task: the read loop, the sender and their queue stay where they are. -/
structure Beside (s s' : RelayState) : Prop extends Disturbs s s' where
  main : s'.main = s.main
  sender : s'.sender = s.sender
  c2me : s'.c2me = s.c2me
  decrements : s'.decrements = s.decrements
  registered : s.registered = false → s'.registered = false

section
variable {s s' : RelayState}

theorem ToldOnce.append {sent extra : List (ℕ × WriterItem)} {w : ℕ} (h : ToldOnce sent w)
    (hextra : ∀ item ∈ extra, item.2 = WriterItem.closeConn) : ToldOnce (sent ++ extra) w := by
  obtain ⟨before, after, rfl, hbefore, hafter⟩ := h
  refine ⟨before, after ++ extra, by rw [List.append_assoc, List.cons_append], hbefore, ?_⟩
  intro item hitem
  rcases List.mem_append.mp hitem with hitem | hitem
  · exact hafter item hitem
  · exact hextra item hitem

theorem Disturbs.mem_closeExt (h : Disturbs s s') {w : ℕ} :
    (w, WriterItem.closeExt) ∈ s'.sent ↔ (w, WriterItem.closeExt) ∈ s.sent := by
  obtain ⟨extra, hsent, hextra⟩ := h.sent
  rw [hsent, List.mem_append]
  refine or_iff_left ?_
  intro hmem
  cases hextra _ hmem

theorem Untold.disturb (h : Untold s) (hd : Disturbs s s') : Untold s' :=
  fun w hmem => h w (hd.mem_closeExt.mp hmem)

theorem Kept.disturb (h : Kept s) (hd : Disturbs s s') (hlooked : s.sender.looked = false) :
    Kept s' := by
  intro w hlast
  rcases h w (hd.standing w hlast) with hbound | hgone
  · exact hd.kept hlooked w hlast hbound
  · exact Or.inr (hd.gone w hgone)

theorem Forgotten.disturb (h : Forgotten s) (hd : Disturbs s s') : Forgotten s' :=
  fun w hlast => hd.gone w (h w (hd.standing w hlast))

theorem Told.disturb (h : Told s) (hd : Disturbs s s') (hlooked : s.sender.looked = true) :
    Told s' where
  once := by
    intro w hmem
    obtain ⟨⟨closedByMe, hlast⟩, honce⟩ := h.once w (hd.mem_closeExt.mp hmem)
    obtain ⟨extra, hsent, hextra⟩ := hd.sent
    refine ⟨hd.looked hlooked w closedByMe hlast, ?_⟩
    rw [hsent]
    exact honce.append hextra
  told := by
    intro w hlast
    rcases h.told w (hd.standing w hlast) with hgone | hdead | hmem
    · exact Or.inl (hd.gone w hgone)
    · exact Or.inr (Or.inl (hd.dead w hdead))
    · exact Or.inr (Or.inr (hd.mem_closeExt.mpr hmem))

theorem AfterRemoval.Inv.disturb {next : AfterRemoval} (h : next.Inv s) (hd : Disturbs s s')
    (hlooked : s.sender.looked = next.looked) : next.Inv s' := by
  cases next with
  | lookup payload flags => exact ⟨h.1.disturb hd, Kept.disturb h.2 hd hlooked⟩
  | select payload flags => exact ⟨h.1.disturb hd, Forgotten.disturb h.2 hd⟩
  | unregister => exact Told.disturb h hd hlooked

/-- The invariant of the sender survives what the others do. -/
theorem SenderPc.Inv.disturb {pc : SenderPc} (h : pc.Inv s) (hd : Disturbs s s')
    (hpc : s.sender = pc) : pc.Inv s' := by
  have hlooked : s.sender.looked = pc.looked := congrArg SenderPc.looked hpc
  cases pc with
  | recv => exact ⟨h.1.disturb hd, Kept.disturb h.2 hd hlooked⟩
  | lookup payload flags => exact ⟨h.1.disturb hd, Kept.disturb h.2 hd hlooked⟩
  | current payload flags w => exact ⟨h.1.disturb hd, Kept.disturb h.2 hd hlooked⟩
  | closeLookup => exact ⟨h.1.disturb hd, Kept.disturb h.2 hd hlooked⟩
  | select payload flags => exact ⟨h.1.disturb hd, Forgotten.disturb h.2 hd⟩
  | bind w => exact ⟨h.1.disturb hd, Forgotten.disturb h.2 hd⟩
  | failed e => exact ⟨h.1.disturb hd, Forgotten.disturb h.2 hd⟩
  | removeWriter w next => exact AfterRemoval.Inv.disturb h hd hlooked
  | writerLost w next => exact ⟨AfterRemoval.Inv.disturb h.1 hd hlooked, hd.gone w h.2⟩
  | closeClient next => exact AfterRemoval.Inv.disturb h hd hlooked
  | routeClose next => exact AfterRemoval.Inv.disturb h hd hlooked
  | dropClient next => exact AfterRemoval.Inv.disturb h hd hlooked
  | drained => exact Untold.disturb h hd
  | closeSend w =>
    obtain ⟨huntold, closedByMe, hlast⟩ := h
    exact ⟨huntold.disturb hd, hd.looked hlooked w closedByMe hlast⟩
  | closeUnregister => exact Told.disturb h hd hlooked
  | closed => exact Told.disturb h hd hlooked

theorem BoundLast.disturb (h : BoundLast s) (hd : Disturbs s s') : BoundLast s' := by
  intro w hw
  obtain ⟨hold, hlast⟩ := hd.bound w hw
  exact hlast.trans (h w hold)

/-! The steps of the others, one by one. -/

theorem deliver_eq (s : RelayState) (r : MeResponse) :
    ∃ responses, s.deliver r = { s with responses := responses } := by
  fun_cases RelayState.deliver s r with
  | case1 result hfinished => exact ⟨s.responses, rfl⟩
  | case2 hrunning hroom => exact ⟨_, rfl⟩
  | case3 hrunning hroom => exact ⟨s.responses, rfl⟩
  | case4 hrunning hroom => exact ⟨_, rfl⟩
  | case5 hrunning hroom => exact ⟨s.responses, rfl⟩

theorem Disturbs.nothing_sent (s : RelayState) : ∃ extra, s.sent = s.sent ++ extra ∧
    ∀ item ∈ extra, item.2 = WriterItem.closeConn :=
  ⟨[], (List.append_nil _).symm, nofun⟩

/-- A step that leaves the binding as it is. -/
theorem Disturbs.of_bound (hgone : ∀ w, s.gone w = true → s'.gone w = true)
    (hdead : ∀ w, s.dead w = true → s'.dead w = true)
    (hsent : ∃ extra, s'.sent = s.sent ++ extra ∧ ∀ item ∈ extra, item.2 = WriterItem.closeConn)
    (hbound : s'.bound = s.bound) (hlast : s'.lastBinding = s.lastBinding) : Disturbs s s' where
  gone := hgone
  dead := hdead
  sent := hsent
  standing := fun _ h => hlast ▸ h
  kept := fun _ _ _ hw => Or.inl (hbound.trans hw)
  bound := fun _ hw => ⟨hbound.symm.trans hw, hlast⟩
  looked := fun _ _ closedByMe h => ⟨closedByMe, hlast.trans h⟩

/-- The response channel has no part in the bindings. -/
theorem beside_channel {responses routing : List MeResponse} {meWriter : MeWriterPc}
    (h : s' = { s with responses := responses, routing := routing, meWriter := meWriter }) :
    Beside s s' := by
  subst h
  exact ⟨.of_bound (fun _ h => h) (fun _ h => h) (Disturbs.nothing_sent s) rfl rfl,
    rfl, rfl, rfl, rfl, id⟩

theorem disturbs_drop (s : RelayState) : Disturbs s s.drop := by
  cases hlooked : s.sender.looked with
  | true =>
    have hlast : s.drop.lastBinding = s.lastBinding := if_pos hlooked
    exact ⟨fun _ h => h, fun _ h => h, Disturbs.nothing_sent s, fun w h => hlast ▸ h,
      fun h => absurd (hlooked.symm.trans h) (by decide), nofun, fun _ w c h => ⟨c, hlast.trans h⟩⟩
  | false =>
    have hlast : s.drop.lastBinding = s.lastBinding.map (fun b => { b with dropped := true }) :=
      if_neg (Bool.eq_false_iff.mp hlooked)
    have hdropped : ∀ w, s.drop.lastBinding ≠ some ⟨w, false, false⟩ := by
      intro w h
      obtain ⟨b, -, hb⟩ := Option.map_eq_some_iff.mp (hlast.symm.trans h)
      exact Bool.noConfusion (congrArg Binding.dropped hb)
    exact ⟨fun _ h => h, fun _ h => h, Disturbs.nothing_sent s, fun w h => absurd h (hdropped w),
      fun _ w h => absurd h (hdropped w), nofun, fun h => absurd (hlooked.symm.trans h) (by decide)⟩

theorem disturbs_lose {w : ℕ} (hgone : s.gone w = true) : Disturbs s (s.lose w) where
  gone := fun _ h => h
  dead := fun _ h => h
  sent := Disturbs.nothing_sent s
  standing := fun _ h => h
  kept := by
    intro _ w' _ hbound
    by_cases hw : w' = w
    · exact Or.inr (hw ▸ hgone)
    · refine Or.inl ((if_neg ?_).trans hbound)
      intro h
      exact hw (Option.some.inj (hbound.symm.trans h))
  bound := by
    intro w' hbound
    refine ⟨?_, rfl⟩
    by_cases hw : s.bound = some w
    · exact absurd ((if_pos hw).symm.trans hbound) (Option.some_ne_none w').symm
    · exact (if_neg hw).symm.trans hbound
  looked := fun _ _ c h => ⟨c, h⟩

theorem disturbs_remove (s : RelayState) (w : ℕ) :
    Disturbs s { s with gone := Function.update s.gone w true } :=
  .of_bound (fun v hv => by simp [Function.update_apply, hv]) (fun _ h => h)
    (Disturbs.nothing_sent s) rfl rfl

theorem disturbs_closedByMe (s : RelayState) : Disturbs s { s with
    registered := false
    bound := none
    lastBinding := s.lastBinding.map (fun b => { b with closedByMe := true }) } := by
  have hclosed : ∀ w, s.lastBinding.map (fun b => { b with closedByMe := true }) ≠
      some ⟨w, false, false⟩ := by
    intro w h
    obtain ⟨b, -, hb⟩ := Option.map_eq_some_iff.mp h
    exact Bool.noConfusion (congrArg Binding.closedByMe hb)
  refine ⟨fun _ h => h, fun _ h => h, Disturbs.nothing_sent s, fun w h => absurd h (hclosed w),
    fun _ w h => absurd h (hclosed w), nofun, fun _ w c h => ⟨true, ?_⟩⟩
  simp only [h, Option.map_some]

theorem otherStep_beside {o : Other} (h : otherStep s o = some s') : Beside s s' := by
  cases o with
  | route r =>
    simp only [otherStep] at h
    split_ifs at h
    exact beside_channel (Option.some.inj h).symm
  | deliver r =>
    simp only [otherStep] at h
    split_ifs at h
    obtain ⟨responses, hdeliver⟩ := deliver_eq { s with routing := s.routing.erase r } r
    rw [hdeliver] at h
    exact beside_channel (Option.some.inj h).symm
  | undelivered =>
    cases h
    exact ⟨disturbs_drop s, rfl, rfl, rfl, rfl, fun _ => rfl⟩
  | cleanUp =>
    cases h
    exact ⟨disturbs_drop s, rfl, rfl, rfl, rfl, fun _ => rfl⟩
  | closedByMe =>
    cases h
    exact ⟨disturbs_closedByMe s, rfl, rfl, rfl, rfl, fun _ => rfl⟩
  | closeConn w =>
    simp only [otherStep] at h
    split_ifs at h
    cases h
    have hd : Disturbs s { s with sent := s.sent ++ [(w, .closeConn)] } :=
      .of_bound (fun _ h => h) (fun _ h => h) ⟨_, rfl, by simp⟩ rfl rfl
    exact ⟨hd, rfl, rfl, rfl, rfl, id⟩
  | removeWriter w =>
    cases h
    exact ⟨disturbs_remove s w, rfl, rfl, rfl, rfl, id⟩
  | writerLost w =>
    simp only [otherStep] at h
    split_ifs at h with hgone
    cases h
    exact ⟨disturbs_lose hgone, rfl, rfl, rfl, rfl, id⟩
  | writerDied w =>
    cases h
    have hd : Disturbs s { s with dead := Function.update s.dead w true } :=
      .of_bound (fun _ h => h) (fun v hv => by simp [Function.update_apply, hv])
        (Disturbs.nothing_sent s) rfl rfl
    exact ⟨hd, rfl, rfl, rfl, rfl, id⟩

theorem meWriterStep_beside {a : MeWriterAnswer} (h : meWriterStep s a = some s') :
    Beside s s' := by
  revert h
  fun_cases meWriterStep s a with
  | case4 | case7 | case8 | case10 | case12 | case19 | case21 | case22 => exact nofun
  | _ =>
    intro h
    exact beside_channel (Option.some.inj h).symm

/-! ### What the sender keeps -/

theorem AfterRemoval.inv_pc {next : AfterRemoval} : next.pc.Inv s ↔ next.Inv s := by
  cases next <;> exact Iff.rfl

/-- Where the sender stands has no part in it. -/
theorem AfterRemoval.Inv.move {next : AfterRemoval} (h : next.Inv s) (pc : SenderPc) :
    next.Inv { s with sender := pc } := by
  cases next with
  | lookup payload flags => exact h
  | select payload flags => exact h
  | unregister =>
    have htold : Told s := h
    exact ⟨htold.once, htold.told⟩

theorem Untold.send {sent : List (ℕ × WriterItem)} {w : ℕ} {payload : List UInt8} {flags : UInt32}
    (h : ∀ v, (v, WriterItem.closeExt) ∉ sent) :
    ∀ v, (v, WriterItem.closeExt) ∉ sent ++ [(w, .proxyReq payload flags)] := by
  intro v hmem
  rcases List.mem_append.mp hmem with hmem | hmem
  · exact h v hmem
  · cases List.mem_singleton.mp hmem

theorem Kept.forget (h : Kept s) (hbound : s.bound = none) : Forgotten s := by
  intro w hlast
  refine (h w hlast).resolve_left ?_
  rw [hbound]
  exact (Option.some_ne_none w).symm

theorem Forgotten.kept (h : Forgotten s) : Kept s := fun w hlast => Or.inr (h w hlast)

/-- There is nobody to tell. -/
theorem Untold.told (h : Untold s) (htold : ∀ w, s.lastBinding = some ⟨w, false, false⟩ →
    s.gone w = true ∨ s.dead w = true) : Told s where
  once := fun w hmem => absurd hmem (h w)
  told := fun w hlast => (htold w hlast).imp_right Or.inl

/-- The close command goes to the writer of the last binding, and to no other. -/
theorem Untold.sendClose (h : Untold s) {w : ℕ} {closedByMe : Bool}
    (hlast : s.lastBinding = some ⟨w, closedByMe, false⟩) :
    Told { s with sender := .closeUnregister, sent := s.sent ++ [(w, .closeExt)] } where
  once := by
    intro v hmem
    rcases List.mem_append.mp hmem with hmem | hmem
    · exact absurd hmem (h v)
    · cases List.mem_singleton.mp hmem
      exact ⟨⟨closedByMe, hlast⟩, s.sent, [], rfl, h w, nofun⟩
  told := by
    intro v hv
    cases hlast.symm.trans hv
    exact Or.inr (Or.inr (List.mem_append_right _ (List.mem_singleton_self _)))

theorem senderMove_inv (h : s.sender.Inv s) (hlast : BoundLast s) (hmove : SenderMove s s') :
    s'.sender.Inv s' := by
  cases hmove with
  | data payload flags rest hpc hqueue =>
    rw [hpc] at h
    exact h
  | close rest hpc hqueue =>
    rw [hpc] at h
    exact h
  | drained hpc hqueue hjoining =>
    rw [hpc] at h
    exact h.1
  | known payload flags w hpc hbound =>
    rw [hpc] at h
    exact h
  | unknown payload flags hpc hbound =>
    rw [hpc] at h
    exact ⟨h.1, Kept.forget h.2 hbound⟩
  | sendCurrent payload flags w hpc =>
    rw [hpc] at h
    exact ⟨Untold.send h.1, h.2⟩
  | currentDead payload flags w hpc =>
    rw [hpc] at h
    exact h
  | selectDead payload flags w hpc =>
    rw [hpc] at h
    exact h
  | send payload flags w hpc =>
    rw [hpc] at h
    exact ⟨Untold.send h.1, h.2⟩
  | retry payload flags hpc =>
    rw [hpc] at h
    exact ⟨h.1, Forgotten.kept h.2⟩
  | failed payload flags e hpc =>
    rw [hpc] at h
    exact h
  | bind w hpc =>
    rw [hpc] at h
    refine ⟨h.1, ?_⟩
    intro v hv
    cases hv
    exact Or.inl rfl
  | closeKnown w hpc hbound =>
    rw [hpc] at h
    exact ⟨h.1, false, hlast w hbound⟩
  | closeUnknown hpc hbound =>
    rw [hpc] at h
    have htold : Told s := Untold.told h.1 (fun w hw => Or.inl (Kept.forget h.2 hbound w hw))
    exact ⟨htold.once, htold.told⟩
  | sendClose w hpc =>
    rw [hpc] at h
    obtain ⟨huntold, closedByMe, hw⟩ := h
    exact Untold.sendClose huntold hw
  | closeDead w hpc hdead =>
    rw [hpc] at h
    obtain ⟨huntold, closedByMe, hw⟩ := h
    have htold : Told s := by
      refine huntold.told ?_
      intro v hv
      cases hw.symm.trans hv
      exact Or.inr hdead
    exact ⟨htold.once, htold.told⟩
  | unregister hpc =>
    rw [hpc] at h
    have htold : Told s := h
    exact ⟨htold.once, htold.told⟩
  | remove w next hpc =>
    have hlooked : s.sender.looked = next.looked := congrArg SenderPc.looked hpc
    rw [hpc] at h
    have hnext := AfterRemoval.Inv.disturb h (disturbs_remove s w) hlooked
    exact ⟨hnext.move _, Function.update_self w true s.gone⟩
  | lose w next hpc =>
    have hlooked : s.sender.looked = next.looked := congrArg SenderPc.looked hpc
    rw [hpc] at h
    have hnext := (AfterRemoval.Inv.disturb h.1 (disturbs_lose h.2) hlooked).move
      (if s.bound = some w then .closeClient next else next.pc)
    split_ifs with hbound
    · rw [if_pos hbound] at hnext
      exact hnext
    · rw [if_neg hbound] at hnext
      exact AfterRemoval.inv_pc.mpr hnext
  | closeClient next hpc =>
    rw [hpc] at h
    have hnext := AfterRemoval.Inv.move h (if s.registered then .routeClose next else .dropClient next)
    split_ifs with hregistered
    · rw [if_pos hregistered] at hnext
      exact hnext
    · rw [if_neg hregistered] at hnext
      exact hnext
  | routeClose next hpc =>
    have hlooked : s.sender.looked = next.looked := congrArg SenderPc.looked hpc
    rw [hpc] at h
    obtain ⟨responses, hdeliver⟩ := deliver_eq s .close
    have hd : Beside s (s.deliver .close) := beside_channel hdeliver
    exact (AfterRemoval.Inv.disturb h hd.toDisturbs hlooked).move _
  | dropClient next hpc =>
    have hlooked : s.sender.looked = next.looked := congrArg SenderPc.looked hpc
    rw [hpc] at h
    exact AfterRemoval.inv_pc.mpr ((AfterRemoval.Inv.disturb h (disturbs_drop s) hlooked).move _)

theorem senderMove_boundLast (h : BoundLast s) (hmove : SenderMove s s') : BoundLast s' := by
  cases hmove with
  | bind w hpc =>
    intro v hv
    cases hv
    rfl
  | unregister hpc => exact nofun
  | lose w next hpc =>
    intro v hv
    by_cases hbound : s.bound = some w
    · exact absurd ((if_pos hbound).symm.trans hv) (Option.some_ne_none v).symm
    · exact h v ((if_neg hbound).symm.trans hv)
  | dropClient next hpc => exact nofun
  | routeClose next hpc =>
    obtain ⟨responses, hdeliver⟩ := deliver_eq s .close
    rw [hdeliver]
    exact h
  | _ => exact h

end

end MtProxy.Proxy.RelayTeardown
