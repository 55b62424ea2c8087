import MtProxy.MiddleProxy.WriterCommands
import MtProxy.Proxy.RelayTasks
import MtProxy.Schemes.Run

/-! The way back: the answers that the readers of all Middle-End connections hand to `ConnRegistry::route`,
    and the channels of the clients they go into.

        reader ──lookup──▶ try_send ──full──▶ wait, 25 ms or 120 ms ──▶ routed
                  │ no conn    │ closed          │ in vain
                  └────────────┴─────────────────┴──▶ unregister, send_close_conn, wait for room

    An answer that is not routed takes its conn with it: whatever comes for it later finds no conn, ids
    being given out once. So a client may lose the end of its stream, but no piece in the middle. -/

namespace MtProxy.MiddleProxy.Answers
open Schemes
open MtProxy.Proxy.RelayTeardown (MeResponse routeChannelCapacity)

inductive RouteResult where
  | routed | noConn | channelClosed | queueFullBase | queueFullHigh
  deriving DecidableEq

/-- `route_backpressure_*`. -/
structure Backpressure where
  baseTimeoutMs : ℕ
  highTimeoutMs : ℕ
  highWatermarkPct : ℕ

def Backpressure.new : Backpressure := ⟨25, 120, 80⟩

def updateRouteBackpressurePolicy (baseTimeoutMs highTimeoutMs highWatermarkPct : ℕ) : Backpressure where
  baseTimeoutMs := max baseTimeoutMs 1
  highTimeoutMs := max highTimeoutMs (max baseTimeoutMs 1)
  highWatermarkPct := max 1 (min highWatermarkPct 100)

/-- The profile of a full channel with so many permits left, and its timeout. -/
def profile (p : Backpressure) (permits : ℕ) : Bool × ℕ :=
  let baseTimeoutMs := max p.baseTimeoutMs 1
  let highTimeoutMs := max p.highTimeoutMs baseTimeoutMs
  let highWatermarkPct := max 1 (min p.highWatermarkPct 100)
  let used := routeChannelCapacity - permits
  let highProfile := decide (highWatermarkPct ≤ used * 100 / routeChannelCapacity)
  (highProfile, if highProfile then highTimeoutMs else baseTimeoutMs)

/-- How long an answer has waited for a permit, and how long it had to. -/
structure Wait where
  waited : ℕ
  timeout : ℕ

/-- Where a reader is with the answer it has parsed last. -/
inductive ReaderPc where
  | reading
  | lookup (conn : ℕ) (resp : MeResponse)
  | trySend (conn : ℕ) (resp : MeResponse)
  | full (conn : ℕ) (resp : MeResponse)
  | waiting (conn : ℕ) (resp : MeResponse) (high : Bool) (since timeout : ℕ)
  | routed (conn : ℕ) (resp : MeResponse) (result : RouteResult) (wait : Wait)
  | command (command : WriterCommand)
  | commanding (command : WriterCommand)

structure Drop where
  reader : ℕ
  conn : ℕ
  resp : MeResponse
  result : RouteResult
  wait : Wait

/-- `me_route_drop_*`. -/
structure RouteDrops where
  noConn : ℕ
  channelClosed : ℕ
  queueFull : ℕ
  queueFullBase : ℕ
  queueFullHigh : ℕ

def RouteDrops.count (d : RouteDrops) : RouteResult → RouteDrops
  | .routed => d
  | .noConn => { d with noConn := d.noConn + 1 }
  | .channelClosed => { d with channelClosed := d.channelClosed + 1 }
  | .queueFullBase => { d with queueFull := d.queueFull + 1, queueFullBase := d.queueFullBase + 1 }
  | .queueFullHigh => { d with queueFull := d.queueFull + 1, queueFullHigh := d.queueFullHigh + 1 }

/-- The registry's map of conns, with the channels of all conns there ever were, and the command channel
    of each reader. `looked` is what was looked up for conns that had been registered, `dropped` what was
    given up; both are oldest first. A reader is any task that routes something to a conn and unregisters
    it if that fails. -/
structure System where
  now : ℕ
  policy : Backpressure
  nextId : ℕ
  registered : ℕ → Bool
  channels : ℕ → Channel ℕ (ℕ × MeResponse)
  readers : ℕ → ReaderPc
  commands : ℕ → Commands
  drops : RouteDrops
  looked : List (ℕ × ℕ × MeResponse)
  dropped : List Drop

def start (firstId : ℕ) : System where
  now := 0
  policy := .new
  nextId := firstId
  registered _ := false
  channels _ := .new routeChannelCapacity
  readers _ := .reading
  commands _ := .new
  drops := ⟨0, 0, 0, 0, 0⟩
  looked := []
  dropped := []

inductive Event where
  | advance (ms : ℕ)
  | updatePolicy (baseTimeoutMs highTimeoutMs highWatermarkPct : ℕ)
  | register
  | unregister (conn : ℕ)
  | receive (conn : ℕ)
  | dropReceiver (conn : ℕ)
  | answer (i conn : ℕ) (resp : MeResponse)
  | ping (i : ℕ) (pingId : Int64)
  | reader (i : ℕ)
  | commands (i : ℕ) (m : CommandMove)

namespace System

def goto (s : System) (i : ℕ) (pc : ReaderPc) : System :=
  { s with readers := Function.update s.readers i pc }

def setChannel (s : System) (conn : ℕ) (c : Channel ℕ (ℕ × MeResponse)) : System :=
  { s with channels := Function.update s.channels conn c }

def setCommands (s : System) (i : ℕ) (c : Commands) : System :=
  { s with commands := Function.update s.commands i c }

def unregister (s : System) (conn : ℕ) : System :=
  { s with registered := Function.update s.registered conn false }

def drop (s : System) (d : Drop) : System :=
  { s with drops := s.drops.count d.result, dropped := s.dropped ++ [d] }

/-- `route` looks the channel up. -/
def lookup (s : System) (i conn : ℕ) (resp : MeResponse) : System :=
  { s with looked := if conn < s.nextId then s.looked ++ [(i, conn, resp)] else s.looked }.goto i
    (if s.registered conn then .trySend conn resp else .routed conn resp .noConn ⟨0, 0⟩)

def trySend (s : System) (i conn : ℕ) (resp : MeResponse) : System :=
  let tried := (s.channels conn).trySend (i, resp)
  (s.setChannel conn tried.2).goto i
    (match tried.1 with
      | .sent => .routed conn resp .routed ⟨0, 0⟩
      | .closed => .routed conn resp .channelClosed ⟨0, 0⟩
      | .full => .full conn resp)

def beginWait (s : System) (i conn : ℕ) (resp : MeResponse) : System :=
  let c := s.channels conn
  (s.setChannel conn (c.acquire i)).goto i
    (.waiting conn resp (profile s.policy c.permits).1 s.now (profile s.policy c.permits).2)

/-- `send` under its timeout, polled once. -/
def pollWait (s : System) (i conn : ℕ) (resp : MeResponse) (high : Bool) (since timeout : ℕ) :
    Option System :=
  let c := s.channels conn
  let wait : Wait := ⟨s.now - since, timeout⟩
  if c.isOpen = false then some (s.goto i (.routed conn resp .channelClosed wait))
  else if i ∈ c.granted then
    some ((s.setChannel conn (c.send i (i, resp))).goto i (.routed conn resp .routed wait))
  else if since + timeout ≤ s.now then
    some ((s.setChannel conn (c.cancel i)).goto i
      (.routed conn resp (if high then .queueFullHigh else .queueFullBase) wait))
  else none

/-- What `reader_loop` does about the result. A close command is not told back. -/
def settle (s : System) (i conn : ℕ) (resp : MeResponse) (result : RouteResult) (wait : Wait) : System :=
  if resp = .close then (s.unregister conn).goto i .reading
  else if result = .routed then s.goto i .reading
  else ((s.drop ⟨i, conn, resp, result, wait⟩).unregister conn).goto i (.command (closeConnCommand conn))

def beginCommand (s : System) (i : ℕ) (command : WriterCommand) : System :=
  (s.setCommands i ((s.commands i).acquire .reader)).goto i (.commanding command)

/-- `send` without a timeout, polled once. When the writer task has ended, the command is lost and the
    reader goes on. -/
def pollCommand (s : System) (i : ℕ) (command : WriterCommand) : Option System :=
  let c := s.commands i
  if c.isOpen = false then some (s.goto i .reading)
  else if .reader ∈ c.granted then
    some ((s.setCommands i (c.send .reader (.reader, command))).goto i .reading)
  else none

def readerStep (s : System) (i : ℕ) : Option System :=
  match s.readers i with
  | .reading => none
  | .lookup conn resp => some (s.lookup i conn resp)
  | .trySend conn resp => some (s.trySend i conn resp)
  | .full conn resp => some (s.beginWait i conn resp)
  | .waiting conn resp high since timeout => s.pollWait i conn resp high since timeout
  | .routed conn resp result wait => some (s.settle i conn resp result wait)
  | .command command => some (s.beginCommand i command)
  | .commanding command => s.pollCommand i command

/-- The `fetch_add` of a registration and its insert are one step. -/
def step (s : System) : Event → Option System
  | .advance ms => some { s with now := s.now + ms }
  | .updatePolicy base high pct => some { s with policy := updateRouteBackpressurePolicy base high pct }
  | .register => some { s with
      nextId := s.nextId + 1, registered := Function.update s.registered s.nextId true }
  | .unregister conn => some (s.unregister conn)
  | .receive conn => (s.channels conn).recv.map (s.setChannel conn)
  | .dropReceiver conn => some (s.setChannel conn (s.channels conn).close)
  | .answer i conn resp => match s.readers i with
      | .reading => some (s.goto i (.lookup conn resp))
      | _ => none
  | .ping i pingId => match s.readers i with
      | .reading => some (s.goto i (.command (pongCommand pingId)))
      | _ => none
  | .reader i => s.readerStep i
  | .commands i m => ((s.commands i).move m).map (s.setCommands i)

end System

/-- What a reader that goes on has done, one case for each branch. -/
inductive ReaderMove (s : System) (i : ℕ) : System → Prop where
  | lookup {conn : ℕ} {resp : MeResponse} (hpc : s.readers i = .lookup conn resp) :
    ReaderMove s i (s.lookup i conn resp)
  | sent {conn : ℕ} {resp : MeResponse} (hpc : s.readers i = .trySend conn resp)
      (haccepted : ((s.channels conn).trySend (i, resp)).2.accepted =
        (s.channels conn).accepted ++ [(i, resp)]) :
    ReaderMove s i ((s.setChannel conn ((s.channels conn).trySend (i, resp)).2).goto i
      (.routed conn resp .routed ⟨0, 0⟩))
  | closed {conn : ℕ} {resp : MeResponse} (hpc : s.readers i = .trySend conn resp)
      (haccepted : ((s.channels conn).trySend (i, resp)).2.accepted = (s.channels conn).accepted) :
    ReaderMove s i ((s.setChannel conn ((s.channels conn).trySend (i, resp)).2).goto i
      (.routed conn resp .channelClosed ⟨0, 0⟩))
  | full {conn : ℕ} {resp : MeResponse} (hpc : s.readers i = .trySend conn resp)
      (haccepted : ((s.channels conn).trySend (i, resp)).2.accepted = (s.channels conn).accepted) :
    ReaderMove s i ((s.setChannel conn ((s.channels conn).trySend (i, resp)).2).goto i (.full conn resp))
  | beginWait {conn : ℕ} {resp : MeResponse} (hpc : s.readers i = .full conn resp) :
    ReaderMove s i (s.beginWait i conn resp)
  | waitClosed {conn : ℕ} {resp : MeResponse} {high : Bool} {since timeout : ℕ}
      (hpc : s.readers i = .waiting conn resp high since timeout) :
    ReaderMove s i (s.goto i (.routed conn resp .channelClosed ⟨s.now - since, timeout⟩))
  | waitGranted {conn : ℕ} {resp : MeResponse} {high : Bool} {since timeout : ℕ}
      (hpc : s.readers i = .waiting conn resp high since timeout)
      (hgranted : i ∈ (s.channels conn).granted) :
    ReaderMove s i ((s.setChannel conn ((s.channels conn).send i (i, resp))).goto i
      (.routed conn resp .routed ⟨s.now - since, timeout⟩))
  | waitOver {conn : ℕ} {resp : MeResponse} {high : Bool} {since timeout : ℕ}
      (hpc : s.readers i = .waiting conn resp high since timeout) (hover : since + timeout ≤ s.now) :
    ReaderMove s i ((s.setChannel conn ((s.channels conn).cancel i)).goto i
      (.routed conn resp (if high then .queueFullHigh else .queueFullBase) ⟨s.now - since, timeout⟩))
  | settleClose {conn : ℕ} {result : RouteResult} {wait : Wait}
      (hpc : s.readers i = .routed conn .close result wait) :
    ReaderMove s i ((s.unregister conn).goto i .reading)
  | settleRouted {conn : ℕ} {resp : MeResponse} {wait : Wait}
      (hpc : s.readers i = .routed conn resp .routed wait) : ReaderMove s i (s.goto i .reading)
  | settleDropped {conn : ℕ} {resp : MeResponse} {result : RouteResult} {wait : Wait}
      (hpc : s.readers i = .routed conn resp result wait) (hclose : resp ≠ .close)
      (hresult : result ≠ .routed) :
    ReaderMove s i (((s.drop ⟨i, conn, resp, result, wait⟩).unregister conn).goto i
      (.command (closeConnCommand conn)))
  | beginCommand {command : WriterCommand} (hpc : s.readers i = .command command) :
    ReaderMove s i (s.beginCommand i command)
  | commandLost {command : WriterCommand} (hpc : s.readers i = .commanding command)
      (hclosed : (s.commands i).isOpen = false) : ReaderMove s i (s.goto i .reading)
  | commandSent {command : WriterCommand} (hpc : s.readers i = .commanding command)
      (hopen : (s.commands i).isOpen = true) (hgranted : .reader ∈ (s.commands i).granted) :
    ReaderMove s i ((s.setCommands i ((s.commands i).send .reader (.reader, command))).goto i .reading)

section
variable {s s' : System} {i conn : ℕ} {resp : MeResponse}

theorem readerMove_trySend (hpc : s.readers i = .trySend conn resp) :
    ReaderMove s i (s.trySend i conn resp) := by
  have haccepted := Channel.trySend_accepted (c := s.channels conn) (i, resp)
  unfold System.trySend
  dsimp only
  cases hsent : ((s.channels conn).trySend (i, resp)).1 with
  | sent =>
    rw [if_pos hsent] at haccepted
    exact .sent hpc haccepted
  | full =>
    rw [if_neg (by rw [hsent]; nofun)] at haccepted
    exact .full hpc haccepted
  | closed =>
    rw [if_neg (by rw [hsent]; nofun)] at haccepted
    exact .closed hpc haccepted

theorem readerMove_pollWait {high : Bool} {since timeout : ℕ}
    (hpc : s.readers i = .waiting conn resp high since timeout)
    (hstep : s.pollWait i conn resp high since timeout = some s') : ReaderMove s i s' := by
  unfold System.pollWait at hstep
  dsimp only at hstep
  split at hstep
  · obtain rfl := Option.some.inj hstep
    exact .waitClosed hpc
  · split at hstep
    · rename_i hgranted
      obtain rfl := Option.some.inj hstep
      exact .waitGranted hpc hgranted
    · split at hstep
      · rename_i hover
        obtain rfl := Option.some.inj hstep
        exact .waitOver hpc hover
      · cases hstep

theorem readerMove_settle {result : RouteResult} {wait : Wait}
    (hpc : s.readers i = .routed conn resp result wait) :
    ReaderMove s i (s.settle i conn resp result wait) := by
  unfold System.settle
  split
  · rename_i hclose
    subst hclose
    exact .settleClose hpc
  · rename_i hclose
    split
    · rename_i hrouted
      subst hrouted
      exact .settleRouted hpc
    · rename_i hresult
      exact .settleDropped hpc hclose hresult

theorem readerMove_pollCommand {command : WriterCommand} (hpc : s.readers i = .commanding command)
    (hstep : s.pollCommand i command = some s') : ReaderMove s i s' := by
  unfold System.pollCommand at hstep
  dsimp only at hstep
  split at hstep
  · rename_i hclosed
    obtain rfl := Option.some.inj hstep
    exact .commandLost hpc hclosed
  · rename_i hopen
    split at hstep
    · rename_i hgranted
      obtain rfl := Option.some.inj hstep
      exact .commandSent hpc (by simpa using hopen) hgranted
    · cases hstep

theorem readerMove_of_step (hstep : s.readerStep i = some s') : ReaderMove s i s' := by
  unfold System.readerStep at hstep
  split at hstep
  · cases hstep
  · rename_i hpc
    obtain rfl := Option.some.inj hstep
    exact .lookup hpc
  · rename_i hpc
    obtain rfl := Option.some.inj hstep
    exact readerMove_trySend hpc
  · rename_i hpc
    obtain rfl := Option.some.inj hstep
    exact .beginWait hpc
  · rename_i hpc
    exact readerMove_pollWait hpc hstep
  · rename_i hpc
    obtain rfl := Option.some.inj hstep
    exact readerMove_settle hpc
  · rename_i hpc
    obtain rfl := Option.some.inj hstep
    exact .beginCommand hpc
  · rename_i hpc
    exact readerMove_pollCommand hpc hstep

theorem step_answer (hstep : s.step (.answer i conn resp) = some s') :
    s.readers i = .reading ∧ s.goto i (.lookup conn resp) = s' := by
  simp only [System.step] at hstep
  split at hstep
  · rename_i hpc
    exact ⟨hpc, Option.some.inj hstep⟩
  · cases hstep

theorem step_ping {pingId : Int64} (hstep : s.step (.ping i pingId) = some s') :
    s.readers i = .reading ∧ s.goto i (.command (pongCommand pingId)) = s' := by
  simp only [System.step] at hstep
  split at hstep
  · rename_i hpc
    exact ⟨hpc, Option.some.inj hstep⟩
  · cases hstep

end

/-! ### What a reader has routed -/

/-- The responses of one reader. -/
def ofReader (i : ℕ) (xs : List (ℕ × MeResponse)) : List MeResponse :=
  (xs.filter (fun x => x.1 == i)).map (·.2)

/-- What a reader has brought for a conn. -/
def brought (s : System) (i conn : ℕ) : List MeResponse :=
  (s.looked.filter (fun x => x.1 == i && x.2.1 == conn)).map (·.2.2)

/-- What of it has gone into the channel. -/
def delivered (s : System) (i conn : ℕ) : List MeResponse := ofReader i (s.channels conn).accepted

/-- The response that a reader has looked up the conn for, and neither delivered nor given up. -/
def ReaderPc.inHand (conn : ℕ) : ReaderPc → List MeResponse
  | .trySend c r | .full c r | .waiting c r .. => if c = conn then [r] else []
  | _ => []

/-- The reader has failed to route something to the conn, and will unregister it. -/
def ReaderPc.Failed (conn : ℕ) : ReaderPc → Prop
  | .routed c _ result _ => c = conn ∧ result ≠ .routed
  | _ => False

/-- The reader is at work for the conn. -/
def ReaderPc.WorksFor (conn : ℕ) : ReaderPc → Prop
  | .reading | .command _ | .commanding _ => False
  | .lookup c _ | .trySend c _ | .full c _ | .waiting c .. | .routed c .. => c = conn

/-- Nothing was left out so far. -/
def Whole (s : System) (i conn : ℕ) : Prop :=
  delivered s i conn ++ (s.readers i).inHand conn = brought s i conn

/-- Something was left out, and nothing comes after it. -/
structure Cut (s : System) (i conn : ℕ) : Prop where
  isPrefix : delivered s i conn <+: brought s i conn
  inHand : (s.readers i).inHand conn = []
  known : conn < s.nextId
  unregistered : s.registered conn = false ∨ (s.readers i).Failed conn

def Routed (s : System) (i conn : ℕ) : Prop := Whole s i conn ∨ Cut s i conn

structure Inv (s : System) : Prop where
  balanced : ∀ conn, Channel.Balanced routeChannelCapacity (s.channels conn)
  known : ∀ conn, s.registered conn = true → conn < s.nextId
  inHand : ∀ i conn, (s.readers i).inHand conn ≠ [] → conn < s.nextId
  routed : ∀ i conn, Routed s i conn

section
variable {s s' : System} {i j conn d : ℕ} {resp : MeResponse}

@[simp] theorem ofReader_append_self (xs : List (ℕ × MeResponse)) :
    ofReader i (xs ++ [(i, resp)]) = ofReader i xs ++ [resp] := by
  simp [ofReader]

theorem ofReader_append_ne (h : j ≠ i) (xs : List (ℕ × MeResponse)) :
    ofReader j (xs ++ [(i, resp)]) = ofReader j xs := by
  simp [ofReader, h.symm]

theorem ReaderPc.inHand_of_not_worksFor {pc : ReaderPc} (h : ¬ pc.WorksFor conn) :
    pc.inHand conn = [] := by
  cases pc <;> simp_all [ReaderPc.inHand, ReaderPc.WorksFor]

theorem ReaderPc.Failed.worksFor {pc : ReaderPc} (h : pc.Failed conn) : pc.WorksFor conn := by
  cases pc with
  | routed c resp result wait => exact h.1
  | _ => exact h.elim

/-- Nothing has changed for this reader and this conn. -/
theorem Routed.congr (h : Routed s i conn) (hdelivered : delivered s' i conn = delivered s i conn)
    (hbrought : brought s' i conn = brought s i conn)
    (hhand : (s'.readers i).inHand conn = (s.readers i).inHand conn) (hnext : s.nextId ≤ s'.nextId)
    (hcut : conn < s.nextId → s.registered conn = false ∨ (s.readers i).Failed conn →
      s'.registered conn = false ∨ (s'.readers i).Failed conn) : Routed s' i conn := by
  rcases h with hwhole | hcutoff
  · left
    unfold Whole at hwhole ⊢
    rw [hdelivered, hbrought, hhand]
    exact hwhole
  · right
    refine ⟨?_, hhand.trans hcutoff.inHand, hcutoff.known.trans_le hnext,
      hcut hcutoff.known hcutoff.unregistered⟩
    rw [hdelivered, hbrought]
    exact hcutoff.isPrefix

/-- The last answer has gone into the channel. -/
theorem Routed.deliver (h : Routed s i conn) (hhand : (s.readers i).inHand conn = [resp])
    (hdelivered : delivered s' i conn = delivered s i conn ++ [resp])
    (hbrought : brought s' i conn = brought s i conn) (hhand' : (s'.readers i).inHand conn = []) :
    Routed s' i conn := by
  rcases h with hwhole | hcutoff
  · left
    unfold Whole at hwhole ⊢
    rw [hhand', List.append_nil, hdelivered, hbrought, ← hwhole, hhand]
  · exact absurd (hhand.symm.trans hcutoff.inHand) (List.cons_ne_nil _ _)

/-- The last answer is given up. -/
theorem Routed.giveUp (h : Routed s i conn) (hhand : (s.readers i).inHand conn = [resp])
    (hdelivered : delivered s' i conn = delivered s i conn)
    (hbrought : brought s' i conn = brought s i conn) (hhand' : (s'.readers i).inHand conn = [])
    (hknown : conn < s'.nextId) (hfailed : (s'.readers i).Failed conn) : Routed s' i conn := by
  rcases h with hwhole | hcutoff
  · refine .inr ⟨?_, hhand', hknown, .inr hfailed⟩
    unfold Whole at hwhole
    rw [hdelivered, hbrought, ← hwhole]
    exact List.prefix_append _ _
  · exact absurd (hhand.symm.trans hcutoff.inHand) (List.cons_ne_nil _ _)

theorem inv_start (firstId : ℕ) : Inv (start firstId) where
  balanced _ := Channel.balanced_new
  known _ h := by cases h
  inHand _ _ h := absurd rfl h
  routed _ _ := .inl rfl

/-! ### A step of a reader -/

/-- The reader is at work for no other conn. -/
def ReaderPc.Only (conn : ℕ) (pc : ReaderPc) : Prop := ∀ d, pc.WorksFor d → d = conn

/-- What a reader that is at work for a conn leaves alone. -/
structure Aside (s s' : System) (i conn : ℕ) : Prop where
  nextId : s'.nextId = s.nextId
  readers : ∀ j, j ≠ i → s'.readers j = s.readers j
  before : (s.readers i).Only conn
  after : (s'.readers i).Only conn
  registered : ∀ d, s.registered d = false → s'.registered d = false
  delivered : ∀ j d, ¬ (j = i ∧ d = conn) → delivered s' j d = delivered s j d
  brought : ∀ j d, ¬ (j = i ∧ d = conn) → brought s' j d = brought s j d

theorem ReaderPc.Only.inHand {pc : ReaderPc} (h : pc.Only conn) (hd : d ≠ conn) :
    pc.inHand d = [] :=
  inHand_of_not_worksFor fun hworks => hd (h d hworks)

theorem Inv.move (h : Inv s) (haside : Aside s s' i conn)
    (hbalanced : ∀ d, Channel.Balanced routeChannelCapacity (s'.channels d))
    (hhand : (s'.readers i).inHand conn ≠ [] → conn < s.nextId) (hrouted : Routed s' i conn) :
    Inv s' where
  balanced := hbalanced
  known d hd := by
    rw [haside.nextId]
    refine h.known d ?_
    by_contra hfalse
    rw [haside.registered d (by simpa using hfalse)] at hd
    cases hd
  inHand j d hd := by
    rw [haside.nextId]
    by_cases hj : j = i
    · subst hj
      by_cases hconn : d = conn
      · subst hconn
        exact hhand hd
      · exact absurd (haside.after.inHand hconn) hd
    · rw [haside.readers j hj] at hd
      exact h.inHand j d hd
  routed j d := by
    by_cases hown : j = i ∧ d = conn
    · obtain ⟨rfl, rfl⟩ := hown
      exact hrouted
    · refine (h.routed j d).congr (haside.delivered j d hown) (haside.brought j d hown) ?_
        haside.nextId.ge ?_
      · by_cases hj : j = i
        · subst hj
          have hconn : d ≠ conn := fun hd => hown ⟨rfl, hd⟩
          rw [haside.before.inHand hconn, haside.after.inHand hconn]
        · rw [haside.readers j hj]
      · rintro - (hgone | hfailed)
        · exact .inl (haside.registered d hgone)
        · by_cases hj : j = i
          · subst hj
            exact absurd ⟨rfl, haside.before d hfailed.worksFor⟩ hown
          · rw [haside.readers j hj]
            exact .inr hfailed

theorem balanced_setChannel (h : Inv s) {c : Channel ℕ (ℕ × MeResponse)}
    (hc : Channel.Balanced routeChannelCapacity c) (d : ℕ) :
    Channel.Balanced routeChannelCapacity ((s.setChannel conn c).channels d) := by
  by_cases hd : d = conn
  · subst hd
    simpa [System.setChannel] using hc
  · simpa [System.setChannel, hd] using h.balanced d

theorem delivered_setChannel {c : Channel ℕ (ℕ × MeResponse)} :
    delivered (s.setChannel conn c) i conn = ofReader i c.accepted := by
  simp [delivered, System.setChannel]

/-- A reader that puts something into the channel of its conn, or only waits there. -/
theorem aside_channel {c : Channel ℕ (ℕ × MeResponse)} {pc : ReaderPc}
    (hbefore : (s.readers i).Only conn) (hafter : pc.Only conn)
    (haccepted : c.accepted = (s.channels conn).accepted ∨
      ∃ resp, c.accepted = (s.channels conn).accepted ++ [(i, resp)]) :
    Aside s ((s.setChannel conn c).goto i pc) i conn where
  nextId := rfl
  readers j hj := Function.update_of_ne hj _ _
  before := hbefore
  after := by simpa [System.goto] using hafter
  registered _ hd := hd
  delivered j d hown := by
    by_cases hd : d = conn
    · subst hd
      have hj : j ≠ i := fun hj => hown ⟨hj, rfl⟩
      change delivered (s.setChannel d c) j d = delivered s j d
      rw [delivered_setChannel]
      obtain heq | ⟨resp, heq⟩ := haccepted
      · rw [heq]
        rfl
      · rw [heq, ofReader_append_ne hj]
        rfl
    · simp [delivered, System.setChannel, System.goto, hd]
  brought _ _ _ := rfl

/-- A reader that leaves the channels alone. -/
theorem aside_goto {pc : ReaderPc} (hbefore : (s.readers i).Only conn) (hafter : pc.Only conn)
    (hnext : s'.nextId = s.nextId) (hreaders : s'.readers = s.readers)
    (hchannels : s'.channels = s.channels)
    (hregistered : ∀ d, s.registered d = false → s'.registered d = false)
    (hbrought : ∀ j d, ¬ (j = i ∧ d = conn) → brought s' j d = brought s j d) :
    Aside s (s'.goto i pc) i conn where
  nextId := hnext
  readers j hj := (Function.update_of_ne hj _ _).trans (congrFun hreaders j)
  before := hbefore
  after := by simpa [System.goto] using hafter
  registered := hregistered
  delivered j d _ := by simp [delivered, System.goto, hchannels]
  brought := hbrought

@[simp] theorem readers_goto (pc : ReaderPc) : (s.goto i pc).readers i = pc := by
  simp [System.goto]

theorem registered_unregister : (s.unregister conn).registered conn = false := by
  simp [System.unregister]

theorem unregister_of_false (hd : s.registered d = false) :
    (s.unregister conn).registered d = false := by
  by_cases hconn : d = conn
  · simp [System.unregister, hconn]
  · simpa [System.unregister, hconn] using hd

theorem ReaderPc.only_of {pc : ReaderPc} (h : ∀ d, pc.WorksFor d → conn = d) : pc.Only conn :=
  fun d hd => (h d hd).symm

theorem ReaderPc.only_at {pc : ReaderPc} (hpc : s.readers i = pc)
    (h : ∀ d, pc.WorksFor d → conn = d) : (s.readers i).Only conn :=
  hpc ▸ only_of h

/-- A reader goes on with nothing in hand before and after. -/
theorem Inv.goOn {pc : ReaderPc} (h : Inv s) (hbefore : (s.readers i).Only conn)
    (hafter : pc.Only conn) (hhand : (s.readers i).inHand conn = []) (hhand' : pc.inHand conn = [])
    (hnext : s'.nextId = s.nextId) (hreaders : s'.readers = s.readers)
    (hchannels : s'.channels = s.channels) (hlooked : s'.looked = s.looked)
    (hregistered : ∀ d, s.registered d = false → s'.registered d = false)
    (hfailed : (s.readers i).Failed conn → s'.registered conn = false) : Inv (s'.goto i pc) := by
  have hbrought : ∀ j d, brought s' j d = brought s j d := by
    intro j d
    unfold Answers.brought
    rw [hlooked]
  have haside := aside_goto hbefore hafter hnext hreaders hchannels hregistered fun j d _ => hbrought j d
  have hempty : ((s'.goto i pc).readers i).inHand conn = [] := by rw [readers_goto, hhand']
  refine h.move haside (hchannels ▸ h.balanced) (fun hne => absurd hempty hne) ?_
  refine (h.routed i conn).congr ?_ (hbrought i conn) (hempty.trans hhand.symm) hnext.ge fun _ hcut => ?_
  · exact congrArg (fun channels => ofReader i (channels conn).accepted) hchannels
  · exact .inl (hcut.elim (hregistered conn) hfailed)

/-- A reader goes on that works for no conn, before and after. -/
theorem Inv.idle {pc : ReaderPc} (h : Inv s) (hbefore : ∀ {d}, ¬ (s.readers i).WorksFor d)
    (hafter : ∀ {d}, ¬ pc.WorksFor d) (hnext : s'.nextId = s.nextId) (hreaders : s'.readers = s.readers)
    (hchannels : s'.channels = s.channels) (hlooked : s'.looked = s.looked)
    (hregistered : s'.registered = s.registered) : Inv (s'.goto i pc) := by
  have honly : (s.readers i).Only 0 := fun _ hworks => (hbefore hworks).elim
  refine h.goOn honly (fun _ hworks => (hafter hworks).elim) (ReaderPc.inHand_of_not_worksFor hbefore)
    (ReaderPc.inHand_of_not_worksFor hafter) hnext hreaders hchannels hlooked (fun d => ?_)
    fun hfailed => (hbefore hfailed.worksFor).elim
  rw [hregistered]
  exact id

theorem brought_lookup (hconn : conn < s.nextId) :
    brought (s.lookup i conn resp) i conn = brought s i conn ++ [resp] := by
  simp [brought, System.lookup, System.goto, hconn]

theorem Routed.isPrefix (h : Routed s i conn) : delivered s i conn <+: brought s i conn := by
  rcases h with hwhole | hcutoff
  · exact hwhole ▸ List.prefix_append _ _
  · exact hcutoff.isPrefix

theorem Inv.lookup (h : Inv s) (hpc : s.readers i = .lookup conn resp) : Inv (s.lookup i conn resp) := by
  have hbefore : (s.readers i).Only conn := ReaderPc.only_at hpc fun _ => id
  have hafter : (if s.registered conn then ReaderPc.trySend conn resp
      else .routed conn resp .noConn ⟨0, 0⟩).Only conn := by
    split
    · exact ReaderPc.only_of fun _ => id
    · exact ReaderPc.only_of fun _ => id
  have haside : Aside s (s.lookup i conn resp) i conn := by
    refine aside_goto hbefore hafter rfl rfl rfl (fun _ => id) fun j d hown => ?_
    unfold Answers.brought
    dsimp only
    split
    · rw [List.filter_append, List.map_append]
      have hother : ¬ ((i == j && conn == d) = true) := by
        intro heq
        rw [Bool.and_eq_true, beq_iff_eq, beq_iff_eq] at heq
        exact hown ⟨heq.1.symm, heq.2.symm⟩
      simp [hother]
    · rfl
  have hreaders : (s.lookup i conn resp).readers i = if s.registered conn then .trySend conn resp
      else .routed conn resp .noConn ⟨0, 0⟩ := readers_goto _
  by_cases hreg : s.registered conn = true
  · have hconn := h.known conn hreg
    rw [if_pos hreg] at hreaders
    refine h.move haside h.balanced (fun _ => hconn) ?_
    rcases h.routed i conn with hwhole | hcutoff
    · left
      unfold Whole at hwhole ⊢
      rw [hpc] at hwhole
      rw [brought_lookup hconn, ← hwhole, hreaders]
      simp [ReaderPc.inHand, delivered, System.lookup, System.goto]
    · rcases hcutoff.unregistered with hgone | hfailed
      · rw [hreg] at hgone
        cases hgone
      · rw [hpc] at hfailed
        exact hfailed.elim
  · rw [if_neg hreg] at hreaders
    have hhand : ((s.lookup i conn resp).readers i).inHand conn = [] := by
      rw [hreaders]
      rfl
    have hgone : s.registered conn = false := by simpa using hreg
    refine h.move haside h.balanced (fun hne => absurd hhand hne) ?_
    by_cases hconn : conn < s.nextId
    · refine .inr ⟨?_, hhand, hconn, .inl hgone⟩
      rw [brought_lookup hconn]
      exact (h.routed i conn).isPrefix.trans (List.prefix_append _ _)
    · refine (h.routed i conn).congr rfl ?_ ?_ le_rfl fun hlt => absurd hlt hconn
      · simp [brought, System.lookup, System.goto, hconn]
      · rw [hhand, hpc]
        rfl

/-- The reader has an answer in hand. -/
def ReaderPc.Holds (conn : ℕ) (resp : MeResponse) : ReaderPc → Prop
  | .trySend c r | .full c r | .waiting c r .. => c = conn ∧ r = resp
  | _ => False

theorem ReaderPc.Holds.only {pc : ReaderPc} (h : pc.Holds conn resp) : pc.Only conn := by
  cases pc <;> first | exact h.elim | exact fun d hd => hd.symm.trans h.1

theorem ReaderPc.Holds.inHand {pc : ReaderPc} (h : pc.Holds conn resp) : pc.inHand conn = [resp] := by
  cases pc <;> first | exact h.elim | (obtain ⟨rfl, rfl⟩ := h; exact if_pos rfl)

theorem ReaderPc.Holds.not_failed {pc : ReaderPc} (h : pc.Holds conn resp) : ¬ pc.Failed conn := by
  cases pc <;> first | exact h.elim | exact id

section
variable {c : Channel ℕ (ℕ × MeResponse)} {pc : ReaderPc}

theorem Inv.held_known (h : Inv s) (hheld : (s.readers i).Holds conn resp) : conn < s.nextId :=
  h.inHand i conn (by rw [hheld.inHand]; exact List.cons_ne_nil _ _)

/-- The reader keeps what it has in hand. -/
theorem Inv.keep (h : Inv s) (hheld : (s.readers i).Holds conn resp)
    (hbalanced : Channel.Balanced routeChannelCapacity c)
    (haccepted : c.accepted = (s.channels conn).accepted) (hpc : pc.Holds conn resp) :
    Inv ((s.setChannel conn c).goto i pc) := by
  refine h.move (aside_channel hheld.only hpc.only (.inl haccepted)) (balanced_setChannel h hbalanced)
    (fun _ => h.held_known hheld) ?_
  refine (h.routed i conn).congr ?_ rfl ?_ le_rfl fun _ hcut => ?_
  · refine delivered_setChannel.trans ?_
    rw [haccepted]
    rfl
  · rw [readers_goto, hheld.inHand, hpc.inHand]
  · exact .inl (hcut.resolve_right hheld.not_failed)

/-- What the reader has in hand goes into the channel. -/
theorem Inv.deliver (h : Inv s) (hheld : (s.readers i).Holds conn resp)
    (hbalanced : Channel.Balanced routeChannelCapacity c)
    (haccepted : c.accepted = (s.channels conn).accepted ++ [(i, resp)]) (wait : Wait) :
    Inv ((s.setChannel conn c).goto i (.routed conn resp .routed wait)) := by
  refine h.move (aside_channel hheld.only (ReaderPc.only_of fun _ => id) (.inr ⟨resp, haccepted⟩))
    (balanced_setChannel h hbalanced) (fun _ => h.held_known hheld) ?_
  refine (h.routed i conn).deliver hheld.inHand ?_ rfl ?_
  · refine delivered_setChannel.trans ?_
    rw [haccepted, ofReader_append_self]
    rfl
  · rw [readers_goto]
    rfl

/-- The reader gives up on what it has in hand. -/
theorem Inv.giveUp (h : Inv s) (hheld : (s.readers i).Holds conn resp)
    (hbalanced : Channel.Balanced routeChannelCapacity c)
    (haccepted : c.accepted = (s.channels conn).accepted) {result : RouteResult}
    (hresult : result ≠ .routed) (wait : Wait) :
    Inv ((s.setChannel conn c).goto i (.routed conn resp result wait)) := by
  have hconn := h.held_known hheld
  refine h.move (aside_channel hheld.only (ReaderPc.only_of fun _ => id) (.inl haccepted))
    (balanced_setChannel h hbalanced) (fun _ => hconn) ?_
  refine (h.routed i conn).giveUp hheld.inHand ?_ rfl ?_ hconn ?_
  · refine delivered_setChannel.trans ?_
    rw [haccepted]
    rfl
  · rw [readers_goto]
    rfl
  · rw [readers_goto]
    exact ⟨rfl, hresult⟩

end

theorem setChannel_self : s.setChannel conn (s.channels conn) = s := by
  simp [System.setChannel]

/-- A reader that has routed an answer, or has failed to, goes on with nothing in hand. -/
theorem Inv.settle {pc : ReaderPc} {result : RouteResult} {wait : Wait} (h : Inv s)
    (hpc : s.readers i = .routed conn resp result wait) (hafter : ∀ {d}, ¬ pc.WorksFor d)
    (hnext : s'.nextId = s.nextId) (hreaders : s'.readers = s.readers)
    (hchannels : s'.channels = s.channels) (hlooked : s'.looked = s.looked)
    (hregistered : ∀ d, s.registered d = false → s'.registered d = false)
    (hfailed : result ≠ .routed → s'.registered conn = false) : Inv (s'.goto i pc) := by
  have hhand : (s.readers i).inHand conn = [] := by
    rw [hpc]
    rfl
  refine h.goOn (ReaderPc.only_at hpc fun _ => id) (fun _ hworks => (hafter hworks).elim) hhand
    (ReaderPc.inHand_of_not_worksFor hafter) hnext hreaders hchannels hlooked hregistered fun hnot => ?_
  rw [hpc] at hnot
  exact hfailed hnot.2

theorem Inv.readerStep (h : Inv s) (hstep : s.readerStep i = some s') : Inv s' := by
  have hclosed : RouteResult.channelClosed ≠ .routed := nofun
  cases readerMove_of_step hstep with
  | lookup hpc => exact h.lookup hpc
  | sent hpc haccepted =>
    exact h.deliver (hpc ▸ ⟨rfl, rfl⟩) ((h.balanced _).trySend _) haccepted _
  | closed hpc haccepted =>
    exact h.giveUp (hpc ▸ ⟨rfl, rfl⟩) ((h.balanced _).trySend _) haccepted hclosed _
  | full hpc haccepted =>
    exact h.keep (hpc ▸ ⟨rfl, rfl⟩) ((h.balanced _).trySend _) haccepted ⟨rfl, rfl⟩
  | beginWait hpc =>
    exact h.keep (hpc ▸ ⟨rfl, rfl⟩) ((h.balanced _).acquire i) (Channel.acquire_accepted i) ⟨rfl, rfl⟩
  | @waitClosed conn resp _ since timeout hpc =>
    have hheld : (s.readers i).Holds conn resp := hpc ▸ ⟨rfl, rfl⟩
    have hgiven := h.giveUp hheld (h.balanced conn) rfl hclosed ⟨s.now - since, timeout⟩
    rwa [setChannel_self] at hgiven
  | waitGranted hpc hgranted =>
    exact h.deliver (hpc ▸ ⟨rfl, rfl⟩) ((h.balanced _).send hgranted _) rfl _
  | waitOver hpc hover =>
    refine h.giveUp (hpc ▸ ⟨rfl, rfl⟩) ((h.balanced _).cancel i) rfl ?_ _
    split <;> nofun
  | settleClose hpc =>
    exact h.settle hpc id rfl rfl rfl rfl (fun _ => unregister_of_false) fun _ => registered_unregister
  | settleRouted hpc =>
    exact h.settle hpc id rfl rfl rfl rfl (fun _ => id) fun hne => absurd rfl hne
  | settleDropped hpc hclose hresult =>
    exact h.settle hpc id rfl rfl rfl rfl (fun _ => unregister_of_false) fun _ => registered_unregister
  | beginCommand hpc | commandLost hpc _ | commandSent hpc _ _ =>
    exact h.idle (fun hworks => by rwa [hpc] at hworks) id rfl rfl rfl rfl rfl

/-- The channel of a conn changes, but not what it has accepted. -/
theorem Inv.setChannel {c : Channel ℕ (ℕ × MeResponse)} (h : Inv s)
    (hbalanced : Channel.Balanced routeChannelCapacity c)
    (haccepted : c.accepted = (s.channels conn).accepted) : Inv (s.setChannel conn c) where
  balanced := balanced_setChannel h hbalanced
  known := h.known
  inHand := h.inHand
  routed j d := by
    refine (h.routed j d).congr ?_ rfl rfl le_rfl fun _ => id
    by_cases hd : d = conn
    · subst hd
      rw [delivered_setChannel, haccepted]
      rfl
    · simp [delivered, System.setChannel, hd]

theorem Inv.unregister (h : Inv s) (conn : ℕ) : Inv (s.unregister conn) where
  balanced := h.balanced
  known d hd := by
    refine h.known d ?_
    by_contra hfalse
    rw [unregister_of_false (by simpa using hfalse)] at hd
    cases hd
  inHand := h.inHand
  routed j d := (h.routed j d).congr rfl rfl rfl le_rfl fun _ hcut => hcut.imp_left unregister_of_false

/-- A new conn has nothing in its past. -/
theorem Inv.register (h : Inv s) : Inv { s with
    nextId := s.nextId + 1, registered := Function.update s.registered s.nextId true } where
  balanced := h.balanced
  known d hd := by
    by_cases hconn : d = s.nextId
    · exact hconn ▸ Nat.lt_succ_self _
    · dsimp only at hd
      rw [Function.update_of_ne hconn] at hd
      exact (h.known d hd).trans (Nat.lt_succ_self _)
  inHand j d hd := (h.inHand j d hd).trans (Nat.lt_succ_self _)
  routed j d := by
    refine (h.routed j d).congr rfl rfl rfl (Nat.le_succ _) fun hlt hcut => ?_
    dsimp only
    rw [Function.update_of_ne hlt.ne]
    exact hcut

theorem Inv.answer (h : Inv s) (hpc : s.readers i = .reading) :
    Inv (s.goto i (.lookup conn resp)) := by
  refine h.goOn (ReaderPc.only_at hpc fun _ hworks => hworks.elim) (ReaderPc.only_of fun _ => id)
    (by rw [hpc]; rfl) rfl rfl rfl rfl rfl (fun _ => id) fun hfailed => ?_
  rw [hpc] at hfailed
  exact hfailed.elim

theorem Inv.step {e : Event} (h : Inv s) (hstep : s.step e = some s') : Inv s' := by
  cases e with
  | advance ms =>
    obtain rfl := Option.some.inj hstep
    exact ⟨h.balanced, h.known, h.inHand,
      fun j d => (h.routed j d).congr rfl rfl rfl le_rfl fun _ => id⟩
  | updatePolicy base high pct =>
    obtain rfl := Option.some.inj hstep
    exact ⟨h.balanced, h.known, h.inHand,
      fun j d => (h.routed j d).congr rfl rfl rfl le_rfl fun _ => id⟩
  | register =>
    obtain rfl := Option.some.inj hstep
    exact h.register
  | unregister conn =>
    obtain rfl := Option.some.inj hstep
    exact h.unregister conn
  | receive conn =>
    obtain ⟨c, hrecv, rfl⟩ := Option.map_eq_some_iff.mp hstep
    exact h.setChannel ((h.balanced conn).recv hrecv) (Channel.recv_accepted hrecv)
  | dropReceiver conn =>
    obtain rfl := Option.some.inj hstep
    exact h.setChannel (h.balanced conn).close rfl
  | answer i conn resp =>
    obtain ⟨hpc, rfl⟩ := step_answer hstep
    exact h.answer hpc
  | ping i pingId =>
    obtain ⟨hpc, rfl⟩ := step_ping hstep
    exact h.idle (fun hworks => by rwa [hpc] at hworks) id rfl rfl rfl rfl rfl
  | reader i => exact h.readerStep hstep
  | commands i m =>
    obtain ⟨c, -, rfl⟩ := Option.map_eq_some_iff.mp hstep
    exact ⟨h.balanced, h.known, h.inHand,
      fun j d => (h.routed j d).congr rfl rfl rfl le_rfl fun _ => id⟩

theorem inv_run {firstId : ℕ} {es : List Event} (hrun : run System.step (start firstId) es = some s) :
    Inv s :=
  run_invariant (fun _ _ _ hinv hstep => hinv.step hstep) es (inv_start firstId) hrun

/-- What each reader has brought for each conn arrives in order, without a gap, and to the end as long as
    the conn is registered. The client gets it in the order in which it was accepted, and no more than
    4096 answers wait for it. -/
theorem answers_in_order (firstId : ℕ) (es : List Event) (s : System)
    (hrun : run System.step (start firstId) es = some s) (i conn : ℕ) :
    delivered s i conn <+: brought s i conn ∧
      (s.registered conn = true → ¬ (s.readers i).WorksFor conn →
        delivered s i conn = brought s i conn) ∧
      (s.channels conn).received ++ (s.channels conn).queue = (s.channels conn).accepted ∧
      (s.channels conn).queue.length ≤ routeChannelCapacity := by
  have hinv := inv_run hrun
  refine ⟨(hinv.routed i conn).isPrefix, fun hregistered hidle => ?_, (hinv.balanced conn).fifo,
    (hinv.balanced conn).queue_le⟩
  rcases hinv.routed i conn with hwhole | hcutoff
  · unfold Whole at hwhole
    rwa [ReaderPc.inHand_of_not_worksFor hidle, List.append_nil] at hwhole
  · rcases hcutoff.unregistered with hgone | hfailed
    · rw [hregistered] at hgone
      cases hgone
    · exact absurd hfailed.worksFor hidle

/-- Two readers bring something for the first conn, and the client has received one of it. -/
def twoReaders : List Event :=
  [.register, .answer 0 7 (.ack 1), .answer 1 7 (.ack 2), .reader 1, .reader 0, .reader 1, .reader 0,
    .reader 0, .reader 1, .answer 1 7 .close, .reader 1, .receive 7]

theorem answers_in_order_two_readers :
    ∃ s, run System.step (start 7) twoReaders = some s ∧
      (delivered s 0 7 <+: brought s 0 7 ∧
        (s.registered 7 = true → ¬ (s.readers 0).WorksFor 7 → delivered s 0 7 = brought s 0 7) ∧
        (s.channels 7).received ++ (s.channels 7).queue = (s.channels 7).accepted ∧
        (s.channels 7).queue.length ≤ routeChannelCapacity) ∧
      (s.channels 7).received = [(1, .ack 2)] ∧ delivered s 0 7 = [.ack 1] ∧
      brought s 1 7 = [.ack 2, .close] :=
  ⟨_, rfl, answers_in_order 7 twoReaders _ rfl 0 7, rfl, rfl, rfl⟩

end

end MtProxy.MiddleProxy.Answers
