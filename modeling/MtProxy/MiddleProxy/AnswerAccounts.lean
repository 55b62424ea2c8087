import MtProxy.MiddleProxy.Answers

/-! What becomes of the answers. Each one that a reader parses goes into the channel of its client, is
    dropped, or is still on its way; one that is dropped is counted, and its Middle-End told.

        parsed = delivered + dropped + undecided
                                │
                                └──▶ counted, RPC_CLOSE_CONN ──▶ command channel of the reader

    Closes from the Middle-End are neither counted nor told back. Nothing is told any more once the writer
    task has ended. -/

namespace MtProxy.MiddleProxy.Answers
open Schemes
open MtProxy.Proxy.RelayTeardown (MeResponse)

/-- The answers that a reader parses in a run, with their conns. -/
def answersOf (i : ℕ) (es : List Event) : List (ℕ × MeResponse) :=
  es.filterMap fun
    | .answer j conn resp => if j = i then some (conn, resp) else none
    | _ => none

/-- The answers that a reader has dropped. -/
def droppedBy (s : System) (i : ℕ) : List (ℕ × MeResponse) :=
  (s.dropped.filter (fun d => d.reader == i)).map fun d => (d.conn, d.resp)

/-- The answer that is neither delivered nor dropped yet. -/
def ReaderPc.undecided : ReaderPc → List (ℕ × MeResponse)
  | .lookup c r | .trySend c r | .full c r | .waiting c r .. => [(c, r)]
  | .routed c r result _ => if result = .routed then [] else [(c, r)]
  | _ => []

/-- How many answers like this one the reader has delivered, dropped or at hand. -/
def accounted (s : System) (i conn : ℕ) (resp : MeResponse) : ℕ :=
  (delivered s i conn).count resp + (droppedBy s i).count (conn, resp) +
    (s.readers i).undecided.count (conn, resp)

/-- What a reader has to tell its Middle-End. -/
def due (s : System) (i : ℕ) : List WriterCommand := (droppedBy s i).map fun x => closeConnCommand x.1

/-- What it is about to tell. -/
def ReaderPc.telling : ReaderPc → List WriterCommand
  | .command c | .commanding c => if c.isCloseConn then [c] else []
  | _ => []

/-- What is due is told in its order, and all of it as long as the writer task runs. -/
def Tells (c : Commands) (due telling : List WriterCommand) : Prop :=
  c.told <+: due ∧ (c.isOpen = true → c.told ++ telling = due)

def RouteResult.QueueFull : RouteResult → Prop
  | .queueFullBase | .queueFullHigh => True
  | _ => False

/-- There was something to wait for, and the wait was over. -/
def Wait.Over (wait : Wait) : Prop := 1 ≤ wait.timeout ∧ wait.timeout ≤ wait.waited

/-- A reader gives up on a full channel only after its timeout. -/
def ReaderPc.Patient : ReaderPc → Prop
  | .waiting _ _ _ _ timeout => 1 ≤ timeout
  | .routed _ _ result wait => result.QueueFull → wait.Over
  | _ => True

/-- Only what was not routed is dropped, and no close. -/
def Drop.Fair (d : Drop) : Prop :=
  d.resp ≠ .close ∧ d.result ≠ .routed ∧ (d.result.QueueFull → d.wait.Over)

def dropsOf (dropped : List Drop) : RouteDrops :=
  let count (result : RouteResult) := dropped.countP fun d => decide (d.result = result)
  ⟨count .noConn, count .channelClosed, count .queueFullBase + count .queueFullHigh,
    count .queueFullBase, count .queueFullHigh⟩

structure Accounts (s : System) : Prop where
  told : ∀ i, Tells (s.commands i) (due s i) (s.readers i).telling
  counted : s.drops = dropsOf s.dropped
  fair : ∀ d ∈ s.dropped, d.Fair
  patient : ∀ i, (s.readers i).Patient

section
variable {s s' : System} {i j conn d : ℕ} {resp r : MeResponse} {c c' : Commands}
  {dues telling : List WriterCommand} {command : WriterCommand}

/-! ### Telling -/

theorem Tells.congr (h : Tells c dues telling) (htold : c'.told = c.told)
    (hopen : c'.isOpen = true → c.isOpen = true) : Tells c' dues telling := by
  rw [Tells, htold]
  exact ⟨h.1, fun ho => h.2 (hopen ho)⟩

/-- Something more is due, and about to be told. -/
theorem Tells.drop (h : Tells c dues []) : Tells c (dues ++ [command]) [command] := by
  refine ⟨h.1.trans (List.prefix_append _ _), fun hopen => ?_⟩
  rw [← h.2 hopen, List.append_nil]

/-- What is sent to a writer task that has ended is lost. -/
theorem Tells.lose (h : Tells c dues telling) (hclosed : c.isOpen = false) : Tells c dues [] := by
  refine ⟨h.1, fun hopen => ?_⟩
  rw [hclosed] at hopen
  cases hopen

theorem told_send : Commands.told (c.send .reader (.reader, command)) =
    c.told ++ if command.isCloseConn then [command] else [] := by
  unfold Commands.told
  simp only [Channel.send, Channel.push, List.filter_append, List.map_append]
  cases hclose : command.isCloseConn <;> simp [hclose]

theorem Tells.send (h : Tells c dues (if command.isCloseConn then [command] else []))
    (hopen : c.isOpen = true) : Tells (Channel.send c .reader (.reader, command)) dues [] := by
  have hall := h.2 hopen
  rw [Tells, told_send, hall]
  exact ⟨List.prefix_refl _, fun _ => List.append_nil _⟩

/-! ### The accounts of a step -/

theorem profile_pos (p : Backpressure) (permits : ℕ) : 1 ≤ (profile p permits).2 := by
  unfold profile
  dsimp only
  split <;> omega

theorem count_dropsOf (dropped : List Drop) (d : Drop) :
    (dropsOf dropped).count d.result = dropsOf (dropped ++ [d]) := by
  unfold dropsOf
  cases hresult : d.result <;> simp [RouteDrops.count, hresult] <;> omega

theorem accounts_start (firstId : ℕ) : Accounts (start firstId) where
  told _ := ⟨List.prefix_refl _, fun _ => rfl⟩
  counted := rfl
  fair _ h := by cases h
  patient _ := trivial

theorem readers_goto_ne {pc : ReaderPc} (hj : j ≠ i) : (s.goto i pc).readers j = s.readers j :=
  Function.update_of_ne hj _ _

/-- A reader goes on, and nothing is dropped. -/
theorem Accounts.goto {pc : ReaderPc} (h : Accounts s)
    (htold : Tells (s'.commands i) (due s i) pc.telling) (hpc : pc.Patient)
    (hreaders : s'.readers = s.readers) (hcommands : ∀ j, j ≠ i → s'.commands j = s.commands j)
    (hdrops : s'.drops = s.drops) (hdropped : s'.dropped = s.dropped) : Accounts (s'.goto i pc) where
  told j := by
    have hdue : due (s'.goto i pc) j = due s j := by
      simp only [due, droppedBy, System.goto, hdropped]
    rw [hdue]
    by_cases hj : j = i
    · subst hj
      rw [readers_goto]
      exact htold
    · have hsame := h.told j
      rwa [← hcommands j hj, ← congrFun hreaders j, ← readers_goto_ne hj] at hsame
  counted := hdrops.trans (h.counted.trans (congrArg dropsOf hdropped.symm))
  fair d hd := h.fair d (hdropped ▸ hd)
  patient j := by
    by_cases hj : j = i
    · subst hj
      rw [readers_goto]
      exact hpc
    · rw [readers_goto_ne hj, hreaders]
      exact h.patient j

/-- A reader goes on with an answer, or has done with it. -/
theorem Accounts.route {pc : ReaderPc} (h : Accounts s) (hi : (s.readers i).telling = [])
    (hpc : pc.Patient) (hnone : pc.telling = []) (hreaders : s'.readers = s.readers)
    (hcommands : s'.commands = s.commands) (hdrops : s'.drops = s.drops)
    (hdropped : s'.dropped = s.dropped) : Accounts (s'.goto i pc) := by
  refine h.goto ?_ hpc hreaders (fun j _ => congrFun hcommands j) hdrops hdropped
  rw [hnone, ← hi, hcommands]
  exact h.told i

theorem due_drop {dr : Drop} : due (s.drop dr) i =
    due s i ++ if dr.reader = i then [closeConnCommand dr.conn] else [] := by
  by_cases hi : dr.reader = i <;>
    simp [due, droppedBy, System.drop, List.filter_append, hi]

/-- What was not routed is dropped, and there is something to tell. -/
theorem Accounts.dropped {result : RouteResult} {wait : Wait} (h : Accounts s)
    (hpc : s.readers i = .routed conn resp result wait) (hclose : resp ≠ .close)
    (hresult : result ≠ .routed) :
    Accounts (((s.drop ⟨i, conn, resp, result, wait⟩).unregister conn).goto i
      (.command (closeConnCommand conn))) where
  told j := by
    change Tells (s.commands j) (due (s.drop ⟨i, conn, resp, result, wait⟩) j) _
    rw [due_drop]
    have htold := h.told j
    by_cases hj : j = i
    · subst hj
      rw [hpc] at htold
      rw [readers_goto, if_pos rfl, ReaderPc.telling, closeConnCommand_isCloseConn, if_pos rfl]
      exact htold.drop
    · rw [readers_goto_ne hj, if_neg (Ne.symm hj), List.append_nil]
      exact htold
  counted := by
    change s.drops.count result = dropsOf (s.dropped ++ [⟨i, conn, resp, result, wait⟩])
    rw [h.counted, ← count_dropsOf]
  fair d hd := by
    rcases List.mem_append.mp hd with hd | hd
    · exact h.fair d hd
    · obtain rfl := List.mem_singleton.mp hd
      have hpatient := h.patient i
      rw [hpc] at hpatient
      exact ⟨hclose, hresult, hpatient⟩
  patient j := by
    by_cases hj : j = i
    · subst hj
      rw [readers_goto]
      trivial
    · rw [readers_goto_ne hj]
      exact h.patient j

theorem commands_setCommands_ne (hj : j ≠ i) : (s.setCommands i c).commands j = s.commands j :=
  Function.update_of_ne hj _ _

theorem commands_setCommands : (s.setCommands i c).commands i = c := Function.update_self _ _ _

theorem Accounts.beginCommand (h : Accounts s) (hpc : s.readers i = .command command) :
    Accounts (s.beginCommand i command) := by
  have htold := h.told i
  rw [hpc] at htold
  refine h.goto ?_ trivial rfl (fun j hj => commands_setCommands_ne hj) rfl rfl
  rw [commands_setCommands]
  refine htold.congr (Commands.told_of_accepted (Channel.acquire_accepted _)) fun hopen => ?_
  rwa [Channel.acquire_isOpen] at hopen

theorem Accounts.readerStep (h : Accounts s) (hstep : s.readerStep i = some s') : Accounts s' := by
  have hpatient := h.patient i
  have htold := h.told i
  cases readerMove_of_step hstep with
  | lookup hpc =>
    refine h.route (by rw [hpc]; rfl) ?_ ?_ rfl rfl rfl rfl
    · split
      · trivial
      · exact fun hfull => hfull.elim
    · split <;> rfl
  | sent hpc _ | closed hpc _ | waitClosed hpc | waitGranted hpc _ =>
    exact h.route (by rw [hpc]; rfl) (fun hfull => hfull.elim) rfl rfl rfl rfl rfl
  | full hpc _ | settleClose hpc | settleRouted hpc =>
    exact h.route (by rw [hpc]; rfl) trivial rfl rfl rfl rfl rfl
  | beginWait hpc => exact h.route (by rw [hpc]; rfl) (profile_pos _ _) rfl rfl rfl rfl rfl
  | waitOver hpc hover =>
    rw [hpc] at hpatient
    exact h.route (by rw [hpc]; rfl) (fun _ => ⟨hpatient, Nat.le_sub_of_add_le' hover⟩) rfl rfl rfl
      rfl rfl
  | settleDropped hpc hclose hresult => exact h.dropped hpc hclose hresult
  | beginCommand hpc => exact h.beginCommand hpc
  | commandLost hpc hclosed =>
    rw [hpc] at htold
    exact h.goto (htold.lose hclosed) trivial rfl (fun _ _ => rfl) rfl rfl
  | commandSent hpc hopen hgranted =>
    rw [hpc] at htold
    refine h.goto ?_ trivial rfl (fun j hj => commands_setCommands_ne hj) rfl rfl
    rw [commands_setCommands]
    exact htold.send hopen

theorem Accounts.step {e : Event} (h : Accounts s) (hstep : s.step e = some s') : Accounts s' := by
  cases e with
  | answer i conn resp =>
    obtain ⟨hpc, rfl⟩ := step_answer hstep
    exact h.route (by rw [hpc]; rfl) trivial rfl rfl rfl rfl rfl
  | ping i pingId =>
    obtain ⟨hpc, rfl⟩ := step_ping hstep
    refine h.route (by rw [hpc]; rfl) trivial ?_ rfl rfl rfl rfl
    rw [ReaderPc.telling, pongCommand_isCloseConn]
    rfl
  | reader i => exact h.readerStep hstep
  | commands i m =>
    obtain ⟨c, hmove, rfl⟩ := Option.map_eq_some_iff.mp hstep
    refine ⟨fun j => ?_, h.counted, h.fair, h.patient⟩
    by_cases hj : j = i
    · subst hj
      rw [commands_setCommands]
      obtain ⟨htold, hopen⟩ := Commands.told_move hmove
      exact (h.told j).congr htold hopen
    · rw [commands_setCommands_ne hj]
      exact h.told j
  | receive conn =>
    obtain ⟨c, -, rfl⟩ := Option.map_eq_some_iff.mp hstep
    exact ⟨h.told, h.counted, h.fair, h.patient⟩
  | advance _ | updatePolicy _ _ _ | register | unregister _ | dropReceiver _ =>
    obtain rfl := Option.some.inj hstep
    exact ⟨h.told, h.counted, h.fair, h.patient⟩

theorem accounts_run {firstId : ℕ} {es : List Event} (hrun : run System.step (start firstId) es = some s) :
    Accounts s :=
  run_invariant (fun _ _ _ h hstep => h.step hstep) es (accounts_start firstId) hrun

/-! ### What is accounted for -/

section
variable {pc : ReaderPc}

/-- A reader goes on with what it has at hand. -/
theorem accounted_goto (hreaders : s'.readers = s.readers) (hdropped : s'.dropped = s.dropped)
    (hdelivered : ∀ j d, delivered s' j d = delivered s j d)
    (hpc : pc.undecided = (s.readers i).undecided) (j d : ℕ) (r : MeResponse) :
    accounted (s'.goto i pc) j d r = accounted s j d r := by
  have hdropped : droppedBy (s'.goto i pc) j = droppedBy s j := by
    simp only [droppedBy, System.goto, hdropped]
  have hundecided : ((s'.goto i pc).readers j).undecided = (s.readers j).undecided := by
    by_cases hj : j = i
    · subst hj
      rw [readers_goto, hpc]
    · rw [readers_goto_ne hj, hreaders]
  rw [accounted, accounted, hdropped, hundecided, ← hdelivered j d]
  rfl

theorem delivered_setChannel_of_accepted {c : Channel ℕ (ℕ × MeResponse)}
    (h : c.accepted = (s.channels conn).accepted) (j d : ℕ) :
    delivered (s.setChannel conn c) j d = delivered s j d := by
  by_cases hd : d = conn
  · subst hd
    rw [delivered_setChannel, h]
    rfl
  · simp [delivered, System.setChannel, hd]

theorem accounted_setChannel {c : Channel ℕ (ℕ × MeResponse)}
    (h : c.accepted = (s.channels conn).accepted) (j d : ℕ) (r : MeResponse) :
    accounted (s.setChannel conn c) j d r = accounted s j d r := by
  rw [accounted, delivered_setChannel_of_accepted h]
  rfl

theorem count_one (conn d : ℕ) (resp r : MeResponse) :
    [(conn, resp)].count (d, r) = if d = conn then [resp].count r else 0 := by
  by_cases hd : d = conn
  · simp [hd, List.count_singleton]
  · simp [hd, Ne.symm hd]

/-- What a reader has at hand goes into the channel. -/
theorem accounted_deliver {c : Channel ℕ (ℕ × MeResponse)}
    (haccepted : c.accepted = (s.channels conn).accepted ++ [(i, resp)])
    (hheld : (s.readers i).undecided = [(conn, resp)]) (hpc : pc.undecided = []) (j d : ℕ)
    (r : MeResponse) : accounted ((s.setChannel conn c).goto i pc) j d r = accounted s j d r := by
  have hdelivered : delivered ((s.setChannel conn c).goto i pc) j d =
      delivered s j d ++ if j = i ∧ d = conn then [resp] else [] := by
    by_cases hd : d = conn
    · subst hd
      refine delivered_setChannel.trans ?_
      rw [haccepted]
      by_cases hj : j = i
      · subst hj
        rw [ofReader_append_self, if_pos ⟨rfl, rfl⟩]
        rfl
      · rw [ofReader_append_ne hj, if_neg fun h => hj h.1, List.append_nil]
        rfl
    · rw [if_neg fun h => hd h.2, List.append_nil]
      simp [delivered, System.setChannel, System.goto, hd]
  have hdropped : droppedBy ((s.setChannel conn c).goto i pc) j = droppedBy s j := rfl
  rw [accounted, accounted, hdelivered, hdropped, List.count_append]
  by_cases hj : j = i
  · subst hj
    rw [readers_goto, hpc, hheld, count_one]
    by_cases hd : d = conn <;> simp [hd]
    omega
  · have hreaders : ((s.setChannel conn c).goto i pc).readers j = s.readers j := readers_goto_ne hj
    rw [hreaders]
    simp [hj]

/-- What a reader has at hand is dropped. -/
theorem accounted_drop {result : RouteResult} {wait : Wait}
    (hheld : (s.readers i).undecided = [(conn, resp)]) (hpc : pc.undecided = []) (j d : ℕ)
    (r : MeResponse) :
    accounted (((s.drop ⟨i, conn, resp, result, wait⟩).unregister conn).goto i pc) j d r =
      accounted s j d r := by
  have hdropped : droppedBy (((s.drop ⟨i, conn, resp, result, wait⟩).unregister conn).goto i pc) j =
      droppedBy s j ++ if j = i then [(conn, resp)] else [] := by
    by_cases hj : j = i
    · simp [droppedBy, System.drop, System.unregister, System.goto, hj]
    · simp [droppedBy, System.drop, System.unregister, System.goto, hj, Ne.symm hj]
  have hdelivered : delivered (((s.drop ⟨i, conn, resp, result, wait⟩).unregister conn).goto i pc) j d =
      delivered s j d := rfl
  rw [accounted, accounted, hdelivered, hdropped, List.count_append]
  by_cases hj : j = i
  · subst hj
    rw [readers_goto, hpc, hheld, if_pos rfl]
    simp only [List.count_nil]
    omega
  · have hreaders : (((s.drop ⟨i, conn, resp, result, wait⟩).unregister conn).goto i pc).readers j =
        s.readers j := readers_goto_ne hj
    rw [hreaders, if_neg hj, List.count_nil]
    rfl

/-- Nothing gets lost but closes. -/
def Conserved (s s' : System) : Prop :=
  ∀ j d r, accounted s' j d r ≤ accounted s j d r ∧ (r ≠ .close → accounted s' j d r = accounted s j d r)

theorem conserved_of_eq (h : ∀ j d r, accounted s' j d r = accounted s j d r) : Conserved s s' :=
  fun j d r => ⟨(h j d r).le, fun _ => h j d r⟩

/-- A close is done with, whatever has become of it. -/
theorem conserved_close (hheld : ∀ x ∈ (s.readers i).undecided, x.2 = .close) :
    Conserved s ((s.unregister conn).goto i .reading) := by
  intro j d r
  have hdelivered : delivered ((s.unregister conn).goto i .reading) j d = delivered s j d := rfl
  have hdropped : droppedBy ((s.unregister conn).goto i .reading) j = droppedBy s j := rfl
  rw [accounted, accounted, hdelivered, hdropped]
  by_cases hj : j = i
  · subst hj
    rw [readers_goto]
    refine ⟨Nat.add_le_add_left (Nat.zero_le _) _, fun hr => ?_⟩
    rw [List.count_eq_zero.mpr fun hmem => hr (hheld _ hmem)]
    rfl
  · have hreaders : ((s.unregister conn).goto i .reading).readers j = s.readers j := readers_goto_ne hj
    rw [hreaders]
    exact ⟨le_rfl, fun _ => rfl⟩

theorem conserved_readerStep (hstep : s.readerStep i = some s') : Conserved s s' := by
  cases readerMove_of_step hstep with
  | lookup hpc =>
    refine conserved_of_eq (accounted_goto rfl rfl (fun _ _ => rfl) ?_)
    rw [hpc]
    split <;> rfl
  | sent hpc haccepted => exact conserved_of_eq (accounted_deliver haccepted (by rw [hpc]; rfl) rfl)
  | closed hpc haccepted | full hpc haccepted =>
    refine conserved_of_eq (accounted_goto rfl rfl (delivered_setChannel_of_accepted haccepted) ?_)
    rw [hpc]
    rfl
  | beginWait hpc =>
    refine conserved_of_eq (accounted_goto rfl rfl ?_ ?_)
    · exact delivered_setChannel_of_accepted (Channel.acquire_accepted _)
    · rw [hpc]
      rfl
  | waitGranted hpc _ => exact conserved_of_eq (accounted_deliver rfl (by rw [hpc]; rfl) rfl)
  | @waitOver conn resp high since timeout hpc _ =>
    refine conserved_of_eq (accounted_goto rfl rfl ?_ ?_)
    · exact delivered_setChannel_of_accepted rfl
    · rw [hpc]
      cases high <;> rfl
  | settleClose hpc =>
    refine conserved_close fun x hx => ?_
    rw [hpc, ReaderPc.undecided] at hx
    split at hx
    · cases hx
    · rw [List.mem_singleton.mp hx]
  | settleDropped hpc _ hresult =>
    exact conserved_of_eq (accounted_drop (by rw [hpc]; exact if_neg hresult) rfl)
  | waitClosed hpc | settleRouted hpc | beginCommand hpc | commandLost hpc _ | commandSent hpc _ _ =>
    refine conserved_of_eq (accounted_goto rfl rfl (fun _ _ => rfl) ?_)
    rw [hpc]
    rfl

/-- A reader has parsed one more answer. -/
theorem accounted_answer (hpc : s.readers i = .reading) (j d : ℕ) (r : MeResponse) :
    accounted (s.goto i (.lookup conn resp)) j d r =
      accounted s j d r + if j = i then [(conn, resp)].count (d, r) else 0 := by
  have hdelivered : delivered (s.goto i (.lookup conn resp)) j d = delivered s j d := rfl
  have hdropped : droppedBy (s.goto i (.lookup conn resp)) j = droppedBy s j := rfl
  rw [accounted, accounted, hdelivered, hdropped]
  by_cases hj : j = i
  · subst hj
    rw [readers_goto, hpc, if_pos rfl]
    rfl
  · rw [readers_goto_ne hj, if_neg hj]
    rfl

/-- What a label adds to the answers of a reader. -/
theorem answersOf_concat (es : List Event) (e : Event) :
    answersOf i (es ++ [e]) = answersOf i es ++ answersOf i [e] := List.filterMap_append

theorem conserved_step {e : Event} (hstep : s.step e = some s') (j d : ℕ) (r : MeResponse) :
    accounted s' j d r ≤ accounted s j d r + (answersOf j [e]).count (d, r) ∧
      (r ≠ .close → accounted s' j d r = accounted s j d r + (answersOf j [e]).count (d, r)) := by
  cases e with
  | answer i conn resp =>
    obtain ⟨hpc, rfl⟩ := step_answer hstep
    have hanswers : (answersOf j [.answer i conn resp]).count (d, r) =
        if j = i then [(conn, resp)].count (d, r) else 0 := by
      by_cases hj : j = i
      · subst hj
        simp [answersOf]
      · simp [answersOf, hj, Ne.symm hj]
    rw [accounted_answer hpc, hanswers]
    exact ⟨le_rfl, fun _ => rfl⟩
  | ping i pingId =>
    obtain ⟨hpc, rfl⟩ := step_ping hstep
    refine conserved_of_eq (accounted_goto rfl rfl (fun _ _ => rfl) ?_) j d r
    rw [hpc]
    rfl
  | reader i => exact conserved_readerStep hstep j d r
  | receive conn =>
    obtain ⟨c, hrecv, rfl⟩ := Option.map_eq_some_iff.mp hstep
    exact conserved_of_eq (accounted_setChannel (Channel.recv_accepted hrecv)) j d r
  | dropReceiver conn =>
    obtain rfl := Option.some.inj hstep
    have haccepted : (s.channels conn).close.accepted = (s.channels conn).accepted := rfl
    exact conserved_of_eq (accounted_setChannel haccepted) j d r
  | commands i m =>
    obtain ⟨c, -, rfl⟩ := Option.map_eq_some_iff.mp hstep
    exact conserved_of_eq (fun _ _ _ => rfl) j d r
  | advance _ | updatePolicy _ _ _ | register | unregister _ =>
    obtain rfl := Option.some.inj hstep
    exact conserved_of_eq (fun _ _ _ => rfl) j d r

theorem accounted_run {firstId : ℕ} (es : List Event)
    (hrun : run System.step (start firstId) es = some s) (i conn : ℕ) (resp : MeResponse) :
    accounted s i conn resp ≤ (answersOf i es).count (conn, resp) ∧
      (resp ≠ .close → accounted s i conn resp = (answersOf i es).count (conn, resp)) := by
  refine run_history (I := fun past s =>
    accounted s i conn resp ≤ (answersOf i past).count (conn, resp) ∧
      (resp ≠ .close → accounted s i conn resp = (answersOf i past).count (conn, resp)))
    ⟨le_rfl, fun _ => rfl⟩ ?_ es hrun
  intro past s e s' _ ⟨hle, heq⟩ hstep
  obtain ⟨hle', heq'⟩ := conserved_step hstep i conn resp
  rw [answersOf_concat, List.count_append]
  refine ⟨by omega, fun hresp => ?_⟩
  rw [heq' hresp, heq hresp]

/-- Every answer of a reader, but for closes, is delivered, dropped or on its way, and none more than once.
    What is dropped is counted once, under its reason, and only a full channel is waited for, until the
    timeout. The reader tells its Middle-End what it has dropped, in this order, and leaves out nothing
    before the writer task ends. -/
theorem dropped_answers_told (firstId : ℕ) (es : List Event) (s : System)
    (hrun : run System.step (start firstId) es = some s) :
    (∀ i conn resp, accounted s i conn resp ≤ (answersOf i es).count (conn, resp) ∧
      (resp ≠ .close → accounted s i conn resp = (answersOf i es).count (conn, resp))) ∧
      (∀ i, (s.commands i).told <+: due s i ∧
        ((s.commands i).isOpen = true → (s.commands i).told ++ (s.readers i).telling = due s i)) ∧
      s.drops = dropsOf s.dropped ∧ ∀ d ∈ s.dropped, d.Fair :=
  have haccounts := accounts_run hrun
  ⟨accounted_run es hrun, haccounts.told, haccounts.counted, haccounts.fair⟩

/-- The client has gone away, and its conn is not registered any more when the second answer comes. The
    first reader has told its Middle-End; the writer task of the second one has ended. -/
def clientGone : List Event :=
  [.register, .answer 0 7 (.ack 1), .reader 0, .dropReceiver 7, .reader 0, .reader 0, .reader 0,
    .answer 1 7 (.ack 2), .reader 1, .reader 1, .reader 0, .commands 1 .close, .reader 1, .reader 1]

theorem dropped_answers_told_client_gone :
    ∃ s, run System.step (start 7) clientGone = some s ∧
      ((∀ i conn resp, accounted s i conn resp ≤ (answersOf i clientGone).count (conn, resp) ∧
        (resp ≠ .close → accounted s i conn resp = (answersOf i clientGone).count (conn, resp))) ∧
        (∀ i, (s.commands i).told <+: due s i ∧
          ((s.commands i).isOpen = true → (s.commands i).told ++ (s.readers i).telling = due s i)) ∧
        s.drops = dropsOf s.dropped ∧ ∀ d ∈ s.dropped, d.Fair) ∧
      due s 0 = [closeConnCommand 7] ∧ (s.commands 0).told = due s 0 ∧
      due s 1 = [closeConnCommand 7] ∧ (s.commands 1).told = [] ∧ s.drops = ⟨1, 1, 0, 0, 0⟩ :=
  ⟨_, rfl, dropped_answers_told 7 clientGone _ rfl, rfl, rfl, rfl, rfl, rfl⟩

end

end

end MtProxy.MiddleProxy.Answers
