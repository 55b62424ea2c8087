import MtProxy.Proxy.ClientFraming

/-! `handle_via_middle_proxy` from its first read to its return: the task that reads the client, the
    `c2me_sender` that talks to the Middle-Ends, and the `me_writer` that talks to the client.

        read loop ──c2me──▶ c2me_sender ──▶ channels of the writers     end of file: Close, join, …
            │ error                                                     error: join, …
            ▼
        join sender ─▶ stop and join me_writer ─▶ unregister ─▶ decrement ─▶ return

    Every step is one atomic operation of a task, and in between the others may do anything: route
    responses, unregister the conn, lose a writer. The close command goes through the queue, and only
    the end of file puts it there. -/

namespace MtProxy.Proxy.RelayTeardown
open Schemes MtProxy.Stream MiddleProxy

/-! ### The channels -/

inductive C2MeCommand where
  | data (payload : List UInt8) (flags : UInt32)
  | close
  deriving DecidableEq

/-- What is put into the channel of a writer for this conn. -/
inductive WriterItem where
  | proxyReq (payload : List UInt8) (flags : UInt32)
  | closeExt
  | closeConn
  deriving DecidableEq

inductive MeResponse where
  | data (flags : UInt32) (data : List UInt8)
  | ack (confirm : UInt32)
  | close
  deriving DecidableEq

def c2meChannelCapacity : ℕ := 1024
def routeChannelCapacity : ℕ := 4096
def rpcFlagNotEncrypted : UInt32 := 0x2

/-! ### The state -/

/-- The read loop with all it has read, and the clean-up behind it. -/
inductive MainPc where
  | reading (r : Relay)
  | enqueueData (payload : List UInt8) (flags : UInt32) (r : Relay)
  | enqueueClose
  | joinSender
  | joinWriter
  | unregister
  | decrement
  | returned (result : Except ProxyError Unit)

/-- What the sender does after it has removed a dead writer. -/
inductive AfterRemoval where
  | lookup (payload : List UInt8) (flags : UInt32)
  | select (payload : List UInt8) (flags : UInt32)
  | unregister

/-- The `c2me_sender`, with its calls of `send_proxy_req` and `send_close`. -/
inductive SenderPc where
  | recv
  | lookup (payload : List UInt8) (flags : UInt32)
  | current (payload : List UInt8) (flags : UInt32) (w : ℕ)
  | select (payload : List UInt8) (flags : UInt32)
  | bind (w : ℕ)
  | closeLookup
  | closeSend (w : ℕ)
  | closeUnregister
  | removeWriter (w : ℕ) (next : AfterRemoval)
  | writerLost (w : ℕ) (next : AfterRemoval)
  | closeClient (next : AfterRemoval)
  | routeClose (next : AfterRemoval)
  | dropClient (next : AfterRemoval)
  -- out of the loop: the queue has ended, a `Close` was served, or an error was returned
  | drained
  | closed
  | failed (e : ProxyError)

/-- The `me_writer` waits in its `select`, or drains the queue before it flushes. -/
inductive MeWriterPc where
  | waiting
  | draining
  | finished (result : Except ProxyError Unit)

/-- The last binding of the conn, and who has undone it: the ME by closing the conn, or another task of
    the proxy before `send_close` looked the writer up. -/
structure Binding where
  writer : ℕ
  closedByMe : Bool
  dropped : Bool
  deriving DecidableEq

structure RelayState where
  main : MainPc
  sender : SenderPc
  meWriter : MeWriterPc
  c2me : List C2MeCommand
  responses : List MeResponse
  /-- The responses whose reader has looked the channel up, but not put them in yet. -/
  routing : List MeResponse
  /-- The registry's entries for the conn: its response channel and its writer. -/
  registered : Bool
  bound : Option ℕ
  /-- The writers that are out of the pool, and those whose channel is closed. -/
  gone : ℕ → Bool
  dead : ℕ → Bool
  /-- What was put into which writer's channel for this conn, oldest first. -/
  sent : List (ℕ × WriterItem)
  lastBinding : Option Binding
  clientClosed : Bool
  mainResult : Except ProxyError Unit
  /-- The calls of `decrement_user_curr_connects`. -/
  decrements : ℕ

/-- The conn is registered and the tasks are started. -/
def RelayState.start (stream : ClientStream) : RelayState where
  main := .reading ⟨0, stream, []⟩
  sender := .recv
  meWriter := .waiting
  c2me := []
  responses := []
  routing := []
  registered := true
  bound := none
  gone _ := false
  dead _ := false
  sent := []
  lastBinding := none
  clientClosed := false
  mainResult := .ok ()
  decrements := 0

/-- The parts of the configuration and of the handshake that the relay uses. -/
structure RelayParams where
  protoTag : ProtoTag
  maxFrame : ℕ
  forensics : RelayForensicsState
  protoFlags : UInt32

/-! ### The read loop and the clean-up -/

def requestFlags (p : RelayParams) (payload : List UInt8) (quickack : Bool) : UInt32 :=
  let flags := p.protoFlags
  let flags := if quickack then flags ||| rpcFlagQuickack else flags
  if 8 ≤ payload.length ∧ (payload.take 8).all (· == 0) then flags ||| rpcFlagNotEncrypted else flags

/-- The sender is gone, and with it the receiver of its queue. -/
def SenderPc.terminal : SenderPc → Bool
  | .drained | .closed | .failed _ => true
  | _ => false

def SenderPc.result : SenderPc → Except ProxyError Unit
  | .failed e => .error e
  | _ => .ok ()

/-- A lost channel is no error if the client has closed. -/
def writerResult (clientClosed : Bool) : Except ProxyError Unit → Except ProxyError Unit
  | .error e => if clientClosed ∧ e = .proxy "ME connection lost" then .ok () else .error e
  | .ok _ => .ok ()

def relayResult (main c2me writer : Except ProxyError Unit) : Except ProxyError Unit :=
  match main, c2me, writer with
  | .ok _, .ok _, .ok _ => .ok ()
  | .error e, _, _ => .error e
  | _, .error e, _ => .error e
  | _, _, .error e => .error e

def MeWriterPc.result : MeWriterPc → Except ProxyError Unit
  | .finished result => result
  | .waiting | .draining => .ok ()

def mainStep (p : RelayParams) (s : RelayState) : Option RelayState :=
  match s.main with
  | .reading r =>
    match readClientPayload p.protoTag p.maxFrame p.forensics r.frameCounter r.stream with
    | .ok (some f) =>
      let flags := requestFlags p f.payload f.quickack
      let r := ⟨f.frameCounter, f.rest, r.payloads ++ [(f.payload, f.quickack)]⟩
      some { s with main := .enqueueData f.payload flags r }
    | .ok none => some { s with main := .enqueueClose, clientClosed := true }
    | .error e => some { s with main := .joinSender, mainResult := .error e }
  | .enqueueData payload flags r =>
    if s.sender.terminal then
      some { s with main := .joinSender, mainResult := .error (.proxy "ME sender channel closed") }
    else if s.c2me.length < c2meChannelCapacity then
      some { s with main := .reading r, c2me := s.c2me ++ [.data payload flags] }
    else none
  | .enqueueClose =>
    if s.sender.terminal then some { s with main := .joinSender }
    else if s.c2me.length < c2meChannelCapacity then
      some { s with main := .joinSender, c2me := s.c2me ++ [.close] }
    else none
  | .joinSender => if s.sender.terminal then some { s with main := .joinWriter } else none
  | .joinWriter =>
    match s.meWriter with
    | .finished _ => some { s with main := .unregister }
    | .waiting | .draining => none
  | .unregister => some { s with main := .decrement, registered := false, bound := none }
  | .decrement => some { s with
      decrements := s.decrements + 1
      main := .returned (relayResult s.mainResult s.sender.result
        (writerResult s.clientClosed s.meWriter.result)) }
  | .returned _ => none

/-- The command queue has no sender any more. -/
def MainPc.joining : MainPc → Bool
  | .reading _ | .enqueueData _ _ _ | .enqueueClose => false
  | _ => true

/-! ### The sender -/

/-- What a step of the sender depends on besides the state. -/
inductive SenderAnswer where
  | go
  | sent
  | closed
  | candidate (w : ℕ)
  | retry
  | noWriters (e : ProxyError)

def AfterRemoval.pc : AfterRemoval → SenderPc
  | .lookup payload flags => .lookup payload flags
  | .select payload flags => .select payload flags
  | .unregister => .closeUnregister

/-- `writer_lost` for a writer unbinds the conn from it. -/
def RelayState.lose (s : RelayState) (w : ℕ) : RelayState :=
  { s with bound := if s.bound = some w then none else s.bound }

/-- The end of a `route`: the response is dropped if its queue is gone, or full for too long. -/
def RelayState.deliver (s : RelayState) (r : MeResponse) : RelayState :=
  match s.meWriter with
  | .finished _ => s
  | .waiting | .draining =>
    if s.responses.length < routeChannelCapacity then { s with responses := s.responses ++ [r] }
    else s

/-- `send_close` has looked the writer up. -/
def AfterRemoval.looked : AfterRemoval → Bool
  | .unregister => true
  | .lookup _ _ | .select _ _ => false

def SenderPc.looked : SenderPc → Bool
  | .closeSend _ | .closeUnregister | .closed => true
  | .removeWriter _ next | .writerLost _ next | .closeClient next | .routeClose next
  | .dropClient next => next.looked
  | _ => false

/-- Another task of the proxy unregisters the conn. -/
def RelayState.drop (s : RelayState) : RelayState :=
  { s with
    registered := false
    bound := none
    lastBinding := if s.sender.looked then s.lastBinding
      else s.lastBinding.map (fun b => { b with dropped := true }) }

def senderStep (s : RelayState) (a : SenderAnswer) : Option RelayState :=
  match s.sender, a with
  | .recv, .go =>
    match s.c2me with
    | .data payload flags :: rest => some { s with sender := .lookup payload flags, c2me := rest }
    | .close :: rest => some { s with sender := .closeLookup, c2me := rest }
    | [] => if s.main.joining then some { s with sender := .drained } else none
  | .lookup payload flags, .go =>
    match s.bound with
    | some w => some { s with sender := .current payload flags w }
    | none => some { s with sender := .select payload flags }
  | .current payload flags w, .sent =>
    if s.dead w then none
    else some { s with sender := .recv, sent := s.sent ++ [(w, .proxyReq payload flags)] }
  | .current payload flags w, .closed =>
    if s.dead w then some { s with sender := .removeWriter w (.lookup payload flags) } else none
  | .select payload flags, .candidate w =>
    if s.dead w then some { s with sender := .removeWriter w (.select payload flags) }
    else some { s with sender := .bind w, sent := s.sent ++ [(w, .proxyReq payload flags)] }
  | .select payload flags, .retry => some { s with sender := .lookup payload flags }
  | .select _ _, .noWriters e => some { s with sender := .failed e }
  | .bind w, .go =>
    some { s with sender := .recv, bound := some w, lastBinding := some ⟨w, false, false⟩ }
  | .closeLookup, .go =>
    match s.bound with
    | some w => some { s with sender := .closeSend w }
    | none => some { s with sender := .closeUnregister }
  | .closeSend w, .sent =>
    if s.dead w then none
    else some { s with sender := .closeUnregister, sent := s.sent ++ [(w, .closeExt)] }
  | .closeSend w, .closed =>
    if s.dead w then some { s with sender := .removeWriter w .unregister } else none
  | .closeUnregister, .go =>
    some { s with sender := .closed, registered := false, bound := none }
  | .removeWriter w next, .go =>
    some { s with sender := .writerLost w next, gone := Function.update s.gone w true }
  | .writerLost w next, .go =>
    some { s.lose w with sender := if s.bound = some w then .closeClient next else next.pc }
  | .closeClient next, .go =>
    some { s with sender := if s.registered then .routeClose next else .dropClient next }
  | .routeClose next, .go => some { s.deliver .close with sender := .dropClient next }
  | .dropClient next, .go => some { s.drop with sender := next.pc }
  | _, _ => none

/-! ### The writer to the client -/

inductive MeWriterAnswer where
  | written
  | writeFailed (e : ProxyError)
  | lost
  | stopped

/-- The stop signal is sent once the sender has been joined. -/
def MainPc.stopSent : MainPc → Bool
  | .joinWriter | .unregister | .decrement | .returned _ => true
  | _ => false

/-- Nobody holds the sending half of the response channel. -/
def RelayState.channelClosed (s : RelayState) : Bool :=
  !s.registered && s.routing.isEmpty && match s.sender with
    | .routeClose _ => false
    | _ => true

def meWriterStep (s : RelayState) (a : MeWriterAnswer) : Option RelayState :=
  match s.meWriter, a with
  | .waiting, .written =>
    match s.responses with
    | .data _ _ :: rest => some { s with responses := rest, meWriter := .draining }
    | .ack _ :: rest => some { s with responses := rest }
    | .close :: rest => some { s with responses := rest, meWriter := .finished (.ok ()) }
    | [] => none
  | .waiting, .writeFailed e =>
    match s.responses with
    | .data _ _ :: rest | .ack _ :: rest =>
      some { s with responses := rest, meWriter := .finished (.error e) }
    | .close :: _ | [] => none
  | .waiting, .lost =>
    if s.channelClosed ∧ s.responses = [] then
      some { s with meWriter := .finished (.error (.proxy "ME connection lost")) }
    else none
  | .waiting, .stopped =>
    if s.main.stopSent then some { s with meWriter := .finished (.ok ()) } else none
  | .draining, .written =>
    match s.responses with
    | .data _ _ :: rest | .ack _ :: rest => some { s with responses := rest }
    | .close :: rest => some { s with responses := rest, meWriter := .finished (.ok ()) }
    | [] => some { s with meWriter := .waiting }
  | .draining, .writeFailed e =>
    match s.responses with
    | .data _ _ :: rest | .ack _ :: rest =>
      some { s with responses := rest, meWriter := .finished (.error e) }
    | .close :: _ => none
    -- nothing is left to write: it is the flush that fails
    | [] => some { s with meWriter := .finished (.error e) }
  | .draining, _ | .finished _, _ => none

/-! ### The others -/

/-- What the readers of the writers and the clean-ups of the pool do to the conn. `closedByMe` and
    `undelivered` are the `unregister` of a reader, `cleanUp` that of a removed writer's clean-up. -/
inductive Other where
  | route (r : MeResponse)
  | deliver (r : MeResponse)
  | closedByMe
  | undelivered
  | closeConn (w : ℕ)
  | cleanUp
  | removeWriter (w : ℕ)
  | writerLost (w : ℕ)
  | writerDied (w : ℕ)

def otherStep (s : RelayState) : Other → Option RelayState
  | .route r => if s.registered then some { s with routing := s.routing ++ [r] } else none
  | .deliver r =>
    if r ∈ s.routing then some ({ s with routing := s.routing.erase r }.deliver r) else none
  | .closedByMe => some { s with
      registered := false
      bound := none
      lastBinding := s.lastBinding.map (fun b => { b with closedByMe := true }) }
  | .undelivered | .cleanUp => some s.drop
  | .closeConn w => if s.dead w then none else some { s with sent := s.sent ++ [(w, .closeConn)] }
  | .removeWriter w => some { s with gone := Function.update s.gone w true }
  -- a writer is lost only after it is out of the pool
  | .writerLost w => if s.gone w then some (s.lose w) else none
  | .writerDied w => some { s with dead := Function.update s.dead w true }

/-! ### Runs -/

inductive RelayLabel where
  | main
  | sender (a : SenderAnswer)
  | meWriter (a : MeWriterAnswer)
  | other (o : Other)

def step (p : RelayParams) (s : RelayState) : RelayLabel → Option RelayState
  | .main => mainStep p s
  | .sender a => senderStep s a
  | .meWriter a => meWriterStep s a
  | .other o => otherStep s o

end MtProxy.Proxy.RelayTeardown
