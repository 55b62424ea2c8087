import MtProxy.MiddleProxy.AnswerAccounts

/-! Where a reader can be held up. With an answer for which there is no room it waits in the line of the
    channel, for its timeout at most. With something to tell its Middle-End it waits in the line of its own
    command channel, which has none.

        full ──▶ waits, place in line ──permit──▶ routed
                        │ timeout over
                        └──▶ dropped ──▶ waits, place in line ──permit──▶ told -/

namespace MtProxy.MiddleProxy.Answers
open Schemes
open MtProxy.Proxy.RelayTeardown (MeResponse routeChannelCapacity)

section
variable {s s' : System} {i j conn d : ℕ} {resp : MeResponse} {e : Event}

/-! ### The line of a client -/

def ReaderPc.WaitsFor (conn : ℕ) : ReaderPc → Prop
  | .waiting c .. => c = conn
  | _ => False

/-- Who waits for a channel has a place in its line. -/
def Lined (s : System) : Prop :=
  ∀ i conn, (s.readers i).WaitsFor conn → Channel.Present (s.channels conn) i

theorem lined_start (firstId : ℕ) : Lined (start firstId) := fun _ _ hwaits => hwaits.elim

/-- A reader goes on, and nobody loses a place in a line. -/
theorem Lined.goto {pc : ReaderPc} (h : Lined s) (hreaders : s'.readers = s.readers)
    (hplaces : ∀ j d, j ≠ i → Channel.Present (s.channels d) j → Channel.Present (s'.channels d) j)
    (hown : ∀ d, pc.WaitsFor d → Channel.Present (s'.channels d) i) : Lined (s'.goto i pc) := by
  intro j d hwaits
  by_cases hj : j = i
  · subst hj
    rw [readers_goto] at hwaits
    exact hown d hwaits
  · rw [readers_goto_ne hj, hreaders] at hwaits
    exact hplaces j d hj (h j d hwaits)

theorem present_setChannel {c : Channel ℕ (ℕ × MeResponse)}
    (h : Channel.Present (s.channels conn) j → Channel.Present c j)
    (hd : Channel.Present (s.channels d) j) : Channel.Present ((s.setChannel conn c).channels d) j := by
  by_cases hconn : d = conn
  · subst hconn
    simpa [System.setChannel] using h hd
  · simpa [System.setChannel, hconn] using hd

theorem Lined.readerStep (h : Lined s) (hstep : s.readerStep i = some s') : Lined s' := by
  cases readerMove_of_step hstep with
  | lookup hpc =>
    refine h.goto rfl (fun _ _ _ => id) fun d hwaits => ?_
    split at hwaits <;> exact hwaits.elim
  | sent | closed | full =>
    exact h.goto rfl (fun _ _ _ => present_setChannel fun hpresent => hpresent.trySend _)
      fun _ hwaits => hwaits.elim
  | @beginWait conn resp hpc =>
    refine h.goto rfl (fun _ _ _ => present_setChannel fun hpresent => hpresent.acquire i)
      fun d hwaits => ?_
    obtain rfl : conn = d := hwaits
    simpa [System.setChannel] using Channel.present_acquire (s.channels conn) i
  | waitGranted =>
    exact h.goto rfl (fun _ _ hj => present_setChannel fun hpresent => hpresent.send hj _)
      fun _ hwaits => hwaits.elim
  | waitOver =>
    exact h.goto rfl (fun _ _ hj => present_setChannel fun hpresent => hpresent.cancel hj)
      fun _ hwaits => hwaits.elim
  | waitClosed | settleClose | settleRouted | settleDropped | beginCommand | commandLost | commandSent =>
    exact h.goto rfl (fun _ _ _ => id) fun _ hwaits => hwaits.elim

theorem Lined.step (h : Lined s) (hstep : s.step e = some s') : Lined s' := by
  cases e with
  | answer i conn resp =>
    obtain ⟨-, rfl⟩ := step_answer hstep
    exact h.goto rfl (fun _ _ _ => id) fun _ hwaits => hwaits.elim
  | ping i pingId =>
    obtain ⟨-, rfl⟩ := step_ping hstep
    exact h.goto rfl (fun _ _ _ => id) fun _ hwaits => hwaits.elim
  | reader i => exact h.readerStep hstep
  | commands i m =>
    obtain ⟨c, -, rfl⟩ := Option.map_eq_some_iff.mp hstep
    exact h
  | receive conn =>
    obtain ⟨c, hrecv, rfl⟩ := Option.map_eq_some_iff.mp hstep
    exact fun j d hwaits => present_setChannel (fun hpresent => hpresent.recv hrecv) (h j d hwaits)
  | dropReceiver conn =>
    obtain rfl := Option.some.inj hstep
    exact fun j d hwaits => present_setChannel (fun _ => Channel.Present.close) (h j d hwaits)
  | advance _ | updatePolicy _ _ _ | register | unregister _ =>
    obtain rfl := Option.some.inj hstep
    exact h

/-! ### The line of a writer task -/

def ReaderPc.Commanding : ReaderPc → Prop
  | .commanding _ => True
  | _ => False

/-- A reader that has a command to send has its place in the line of its command channel. -/
structure Queued (s : System) : Prop where
  balanced : ∀ i, Channel.Balanced writerChannelCapacity (s.commands i)
  present : ∀ i, (s.readers i).Commanding → Channel.Present (s.commands i) .reader

theorem queued_start (firstId : ℕ) : Queued (start firstId) :=
  ⟨fun _ => Channel.balanced_new, fun _ hcommanding => hcommanding.elim⟩

/-- A reader goes on, and sends no command. -/
theorem Queued.goto {pc : ReaderPc} (h : Queued s) (hpc : ¬ pc.Commanding)
    (hreaders : s'.readers = s.readers) (hcommands : s'.commands = s.commands) :
    Queued (s'.goto i pc) where
  balanced j := by
    have hbalanced := h.balanced j
    rwa [← hcommands] at hbalanced
  present j hcommanding := by
    by_cases hj : j = i
    · subst hj
      rw [readers_goto] at hcommanding
      exact (hpc hcommanding).elim
    · rw [readers_goto_ne hj, hreaders] at hcommanding
      have hpresent := h.present j hcommanding
      rwa [← hcommands] at hpresent

/-- The command channel of a reader changes, and the reader may go on. -/
theorem Queued.setCommands {c : Commands} (h : Queued s)
    (hbalanced : Channel.Balanced writerChannelCapacity c)
    (hreaders : ∀ j, j ≠ i → s'.readers j = s.readers j)
    (hcommands : s'.commands = (s.setCommands i c).commands)
    (hpresent : (s'.readers i).Commanding → Channel.Present c .reader) : Queued s' where
  balanced j := by
    rw [hcommands]
    by_cases hj : j = i
    · subst hj
      rw [commands_setCommands]
      exact hbalanced
    · rw [commands_setCommands_ne hj]
      exact h.balanced j
  present j hcommanding := by
    rw [hcommands]
    by_cases hj : j = i
    · subst hj
      rw [commands_setCommands]
      exact hpresent hcommanding
    · rw [commands_setCommands_ne hj]
      rw [hreaders j hj] at hcommanding
      exact h.present j hcommanding

theorem Queued.readerStep (h : Queued s) (hstep : s.readerStep i = some s') : Queued s' := by
  cases readerMove_of_step hstep with
  | lookup =>
    refine h.goto ?_ rfl rfl
    split <;> exact not_false
  | beginCommand =>
    refine h.setCommands ((h.balanced i).acquire _) (fun j hj => readers_goto_ne hj) rfl fun _ => ?_
    exact Channel.present_acquire _ _
  | commandSent _ _ hgranted =>
    refine h.setCommands ((h.balanced i).send hgranted _) (fun j hj => readers_goto_ne hj) rfl ?_
    rw [readers_goto]
    exact False.elim
  | sent | closed | full | beginWait | waitClosed | waitGranted | waitOver | settleClose
    | settleRouted | settleDropped | commandLost => exact h.goto not_false rfl rfl

theorem Queued.step (h : Queued s) (hstep : s.step e = some s') : Queued s' := by
  cases e with
  | answer i conn resp =>
    obtain ⟨-, rfl⟩ := step_answer hstep
    exact h.goto not_false rfl rfl
  | ping i pingId =>
    obtain ⟨-, rfl⟩ := step_ping hstep
    exact h.goto not_false rfl rfl
  | reader i => exact h.readerStep hstep
  | commands i m =>
    obtain ⟨c, hmove, rfl⟩ := Option.map_eq_some_iff.mp hstep
    exact h.setCommands (Commands.balanced_move (h.balanced i) hmove) (fun _ _ => rfl) rfl
      fun hcommanding => Commands.present_move (h.present i hcommanding) hmove
  | receive conn =>
    obtain ⟨c, -, rfl⟩ := Option.map_eq_some_iff.mp hstep
    exact ⟨h.balanced, h.present⟩
  | advance _ | updatePolicy _ _ _ | register | unregister _ | dropReceiver _ =>
    obtain rfl := Option.some.inj hstep
    exact ⟨h.balanced, h.present⟩

/-! ### Nobody else is stuck -/

/-- The reader waits in the line of a client, and there is no room there; its timeout, which is not zero,
    is not over yet. -/
def HeldByClient (s : System) (i : ℕ) : Prop :=
  ∃ conn resp high since timeout, s.readers i = .waiting conn resp high since timeout ∧
    (s.channels conn).isOpen = true ∧ i ∈ (s.channels conn).waiters ∧
      (s.channels conn).queue.length + (s.channels conn).granted.length = routeChannelCapacity ∧
      1 ≤ timeout ∧ s.now < since + timeout

/-- The reader waits in the line of its writer task, and there is no room there. -/
def HeldByWriter (s : System) (i : ℕ) : Prop :=
  ∃ command, s.readers i = .commanding command ∧ (s.commands i).isOpen = true ∧
    .reader ∈ (s.commands i).waiters ∧
      (s.commands i).queue.length + (s.commands i).granted.length = writerChannelCapacity

/-- Who waits for an open channel in its line finds no room there. -/
theorem full_of_waiting {ι α : Type*} {capacity : ℕ} {c : Channel ι α} {x : ι}
    (h : Channel.Balanced capacity c) (hx : x ∈ c.waiters) :
    c.queue.length + c.granted.length = capacity := by
  have hpermits := h.permits
  rwa [h.waiting (List.ne_nil_of_mem hx), Nat.zero_add] at hpermits

theorem Lined.waits {high : Bool} {since timeout : ℕ} (h : Lined s) (hinv : Inv s)
    (hpatient : (s.readers i).Patient) (hpc : s.readers i = .waiting conn resp high since timeout) :
    (∃ s', s.pollWait i conn resp high since timeout = some s') ∨ HeldByClient s i := by
  unfold System.pollWait
  dsimp only
  split
  · exact .inl ⟨_, rfl⟩
  · rename_i hopen
    split
    · exact .inl ⟨_, rfl⟩
    · rename_i hgranted
      split
      · exact .inl ⟨_, rfl⟩
      · rename_i hover
        have hopen : (s.channels conn).isOpen = true := by simpa using hopen
        have hplace := (h i conn (by rw [hpc]; rfl) hopen).resolve_right hgranted
        rw [hpc] at hpatient
        exact .inr ⟨conn, resp, high, since, timeout, hpc, hopen, hplace,
          full_of_waiting (hinv.balanced conn) hplace, hpatient, Nat.lt_of_not_le hover⟩

theorem Queued.waits {command : WriterCommand} (h : Queued s) (hpc : s.readers i = .commanding command) :
    (∃ s', s.pollCommand i command = some s') ∨ HeldByWriter s i := by
  unfold System.pollCommand
  dsimp only
  split
  · exact .inl ⟨_, rfl⟩
  · rename_i hopen
    split
    · exact .inl ⟨_, rfl⟩
    · rename_i hgranted
      have hopen : (s.commands i).isOpen = true := by simpa using hopen
      have hplace := (h.present i (by rw [hpc]; trivial) hopen).resolve_right hgranted
      exact .inr ⟨command, hpc, hopen, hplace, full_of_waiting (h.balanced i) hplace⟩

/-- A reader that has parsed something can go on, or waits in the line of a client for no longer than its
    timeout, or in the line of its own writer task. -/
theorem readers_go_on (firstId : ℕ) (es : List Event) (s : System)
    (hrun : run System.step (start firstId) es = some s) (i : ℕ) :
    s.readers i = .reading ∨ (∃ s', s.readerStep i = some s') ∨ HeldByClient s i ∨ HeldByWriter s i := by
  have hlined : Lined s :=
    run_invariant (fun _ _ _ h hstep => h.step hstep) es (lined_start firstId) hrun
  have hqueued : Queued s :=
    run_invariant (fun _ _ _ h hstep => h.step hstep) es (queued_start firstId) hrun
  cases hpc : s.readers i with
  | reading => exact .inl rfl
  | waiting conn resp high since timeout =>
    right
    rw [System.readerStep, hpc]
    exact (hlined.waits (inv_run hrun) ((accounts_run hrun).patient i) hpc).imp_right .inl
  | commanding command =>
    right
    rw [System.readerStep, hpc]
    exact (hqueued.waits hpc).imp_right .inr
  | lookup conn resp | trySend conn resp | full conn resp | routed conn resp result wait | command c =>
    exact .inr (.inl (by rw [System.readerStep, hpc]; exact ⟨_, rfl⟩))

/-- Others take all the room there is in the command channel of a reader. -/
theorem run_fill (n : ℕ) (hopen : (s.commands i).isOpen = true) (hpermits : (s.commands i).permits = n) :
    ∃ s', run System.step s (List.replicate n (.commands i (.trySend 0 .close))) = some s' ∧
      (s'.commands i).isOpen = true ∧ (s'.commands i).permits = 0 ∧ (s'.commands i).granted =
        (s.commands i).granted ∧ s'.readers = s.readers := by
  induction n generalizing s with
  | zero => exact ⟨s, rfl, hopen, hpermits, rfl, rfl⟩
  | succ n ih =>
    let c := s.commands i
    let filled := { c with permits := c.permits - 1 }.push (Sender.task 0, WriterCommand.close)
    have hsent : (c.trySend (.task 0, .close)).2 = filled := by
      rw [Channel.trySend, if_neg (by simp [c, hopen]), if_neg (by simp [c, hpermits])]
    have hstep : s.step (.commands i (.trySend 0 .close)) = some (s.setCommands i filled) := by
      rw [← hsent]
      rfl
    have hset : (s.setCommands i filled).commands i = filled := commands_setCommands
    obtain ⟨s', hrun, hopen', hpermits', hgranted, hreaders⟩ := ih (s := s.setCommands i filled)
      (by rw [hset]; exact hopen) (by rw [hset]; exact congrArg (· - 1) hpermits)
    rw [hset] at hgranted
    refine ⟨s', ?_, hopen', hpermits', hgranted, hreaders⟩
    rw [List.replicate_succ, run, hstep]
    exact hrun

/-- The writer task takes nothing off, and there is no room for the answer to a ping. -/
def writerBlocked : List Event :=
  List.replicate writerChannelCapacity (.commands 0 (.trySend 0 .close)) ++ [.ping 0 1] ++ [.reader 0]

theorem readers_go_on_writer_blocked :
    ∃ s, run System.step (start 7) writerBlocked = some s ∧
      (s.readers 0 = .reading ∨ (∃ s', s.readerStep 0 = some s') ∨ HeldByClient s 0 ∨ HeldByWriter s 0) ∧
      s.readers 0 = .commanding (pongCommand 1) ∧ s.readerStep 0 = none := by
  obtain ⟨s, hrun, hopen, hpermits, hgranted, hreaders⟩ :=
    run_fill (s := start 7) (i := 0) writerChannelCapacity rfl rfl
  have hping : s.step (.ping 0 1) = some (s.goto 0 (.command (pongCommand 1))) := by
    rw [System.step, hreaders]
    rfl
  have hbegin : (s.goto 0 (.command (pongCommand 1))).step (.reader 0) =
      some ((s.goto 0 (.command (pongCommand 1))).beginCommand 0 (pongCommand 1)) := by
    rw [System.step, System.readerStep, readers_goto]
  have hall := run_concat_iff.mpr ⟨_, run_concat_iff.mpr ⟨s, hrun, hping⟩, hbegin⟩
  refine ⟨_, hall, readers_go_on 7 writerBlocked _ hall 0, readers_goto _, ?_⟩
  rw [System.readerStep, System.beginCommand, readers_goto]
  have hacquired : (s.commands 0).acquire .reader =
      { s.commands 0 with waiters := (s.commands 0).waiters ++ [.reader] } := by
    rw [Channel.acquire, if_neg (by simp [hopen]), if_pos hpermits]
  have hcommands : ∀ (t : System) (pc : ReaderPc), (t.goto 0 pc).commands = t.commands := fun _ _ => rfl
  simp only [System.pollCommand, hcommands, commands_setCommands, hacquired, hopen, hgranted]
  rfl

end

end MtProxy.MiddleProxy.Answers
