import MtProxy.MiddleProxy.Registry
import MtProxy.Schemes.Interleave

/-! `MePool`: the writers to the Middle-Ends, and the tasks that add them, send through them, bind
    clients to them and remove them.

    Every task is a stack of frames, and every step one atomic operation: a section under the lock
    of `writers` or of the registry, an access to an atomic, or one send into a channel. Steps that
    only read the pool are the operation `skip`. What a step depends on besides the pool is in the
    answer: which candidates the selection for the target DC comes up with and in which order, how
    full a channel is, what arrives from the Middle-End, when a timer runs out. A command channel is
    known by the id of its writer. -/

namespace MtProxy.MiddleProxy
open Schemes

structure MeWriter where
  id : ℕ
  addr : SocketAddr
  deriving DecidableEq

/-- The pool. The flags of a writer live on outside the list: its clones share them. -/
structure MePool where
  writers : List MeWriter
  connCount : UInt64
  nextWriterId : ℕ
  registry : ConnRegistry Unit ℕ
  draining : ℕ → Bool
  cleanupDone : ℕ → Bool
  /-- The task that writes to the socket is gone, and with it the receiver of the channel. -/
  closed : ℕ → Bool

def MePool.new (start : ℕ) : MePool :=
  ⟨[], 0, 1, .new start, fun _ => false, fun _ => false, fun _ => false⟩

def MePool.writerIds (p : MePool) : List ℕ := p.writers.map (·.id)

/-! ### Operations -/

inductive PoolOp where
  | skip
  | register (connId : ℕ)
  | unregister (connId : ℕ)
  | bindWriter (connId writerId : ℕ) (m : ConnMeta)
  /-- The conns returned; `discard` says that the caller drops them. -/
  | writerLost (writerId : ℕ) (discard : Bool) (conns : List ℕ)
  | enqueue (connId writerId : ℕ)
  | routeClose (connId : ℕ)
  | allocId
  | pushWriter (w : MeWriter)
  | countUp
  | removeWriter (w : MeWriter)
  | retain (writerId : ℕ)
  | triggerRefill (w : MeWriter)
  | markDraining (writerId : ℕ)
  | closeChannel (writerId : ℕ)
  | claimCleanup (writerId : ℕ)
  deriving DecidableEq

/-- What an operation does to the pool. `conn_count` wraps as its atomic does. -/
def PoolOp.effect : PoolOp → MePool → MePool
  | .skip, p => p
  | .register _, p => { p with registry := (p.registry.register ()).2 }
  | .unregister c, p => { p with registry := (p.registry.unregister c).2 }
  | .bindWriter c w m, p => { p with registry := p.registry.bindWriter c w w m }
  | .writerLost w _ _, p => { p with registry := (p.registry.writerLost w).2 }
  | .enqueue _ _, p => p
  | .routeClose _, p => p
  | .allocId, p => { p with nextWriterId := p.nextWriterId + 1 }
  | .pushWriter w, p => { p with writers := p.writers ++ [w] }
  | .countUp, p => { p with connCount := p.connCount + 1 }
  | .removeWriter w, p =>
    { p with writers := p.writers.eraseP (·.id = w.id), connCount := p.connCount - 1 }
  | .retain w, p => { p with writers := p.writers.filter (·.id ≠ w) }
  | .triggerRefill _, p => p
  | .markDraining w, p => { p with draining := Function.update p.draining w true }
  | .closeChannel w, p => { p with closed := Function.update p.closed w true }
  | .claimCleanup w, p => { p with cleanupDone := Function.update p.cleanupDone w true }

/-! ### Frames -/

/-- The arguments of a `send_proxy_req` and its count of emergency connects. -/
structure SendCall where
  connId : ℕ
  connMeta : ConnMeta
  emergencyAttempts : ℕ
  deriving DecidableEq

/-- Where a `send_proxy_req` stands. -/
inductive SendPc where
  | lookup
  | current (w : ConnWriter ℕ)
  | currentWait (w : ConnWriter ℕ)
  | snapshot
  | recover
  | candidates (snapshot : List ℕ)
  | emergency
  | scan (todo : List ℕ) (fallback : Option ℕ)
  | attempt (w : ℕ) (todo : List ℕ) (fallback : Option ℕ)
  | fallback (w : Option ℕ)
  | wait (w : ℕ)
  | bind (w : ℕ)
  deriving DecidableEq

inductive Frame where
  /-- The rest of the proxy, which starts tasks. -/
  | proxy
  /-- The `c2me_sender` of a client, waiting for the next command. -/
  | relay (connId : ℕ)
  | send (call : SendCall) (pc : SendPc)
  | closeLookup (connId : ℕ)
  | closeSend (connId : ℕ) (w : ConnWriter ℕ)
  | unregister (connId : ℕ)
  | removeList (writerId : ℕ) (discard : Bool)
  | removeClose (writerId : ℕ)
  | removeRefill (w : MeWriter)
  | removeLost (writerId : ℕ) (discard : Bool)
  | closeClients (conns : List ℕ)
  | connect (addr : SocketAddr)
  | connectPush (w : MeWriter)
  | connectCount (writerId : ℕ)
  | writerTask (writerId : ℕ)
  | reader (writerId : ℕ)
  | readerExit (writerId : ℕ)
  | readerRetain (writerId : ℕ)
  | ping (writerId : ℕ)
  | pingExit (writerId : ℕ)
  | markDraining (writerId : ℕ)
  | drainLoop (writerId : ℕ)
  | prune
  | pruneNext (todo : List ℕ)
  deriving DecidableEq

/-- What is decided outside the pool. -/
inductive Answer where
  | go
  | startRelay | startConnect (addr : SocketAddr) | startPrune | startDrain (writerId : ℕ)
  | command (m : ConnMeta) | closeCommand | noMoreCommands
  | sent | full | closed
  | order (candidates : List ℕ)
  | accepts (fallback : Bool)
  | connectTo (addr : SocketAddr) | retry | giveUp
  | response (connId : ℕ) (routed : Bool) | closeConn (connId : ℕ)
  | pick (connId : ℕ)
  | exit | timeout

/-- The operation of a step, the frames the task goes on with, and the tasks it spawns. -/
abbrev Next := PoolOp × List Frame × List (List Frame)

/-- A step that only reads the pool. -/
abbrev goto (fs : List Frame) : Option Next := some (.skip, fs, [])

/-- `remove_writer_and_close_clients`. -/
def removeWriterAndCloseClients (w : ℕ) : List Frame := [.removeList w false]

/-- A `remove_writer_only` whose result is dropped. -/
def removeWriterOnly (w : ℕ) : List Frame := [.removeList w true]

/-! ### Sending -/

section
variable (p : MePool)

/-- `writer_accepts_new_binding`; for a draining writer the answer is that of the fallback policy. -/
def acceptsNewBinding (w : ℕ) (fallback : Bool) : Bool := !p.draining w || fallback

/-- The outcome of a `send_proxy_req` for the task it runs in: the next command, or after an error
    the end of the relay. -/
def sendOk (call : SendCall) : List Frame := [.relay call.connId]
def sendErr (call : SendCall) : List Frame := [.unregister call.connId]

def sendProxyReq (call : SendCall) : SendPc → Answer → Option Next
  | .lookup, .go =>
    match p.registry.getWriter call.connId with
    | some w => goto [.send call (.current w)]
    | none => goto [.send call .snapshot]
  | .current w, .sent =>
    if p.closed w.tx then none else some (.enqueue call.connId w.tx, sendOk call, [])
  | .current w, .full =>
    if p.closed w.tx then none else goto [.send call (.currentWait w)]
  | .current w, .closed | .currentWait w, .closed =>
    if p.closed w.tx then goto (removeWriterAndCloseClients w.writerId ++ [.send call .lookup])
    else none
  | .currentWait w, .sent =>
    if p.closed w.tx then none else some (.enqueue call.connId w.tx, sendOk call, [])
  | .snapshot, .go =>
    if p.writers = [] then goto [.send call .recover]
    else goto [.send call (.candidates p.writerIds)]
  -- an empty pool: connect to everything known, then wait for a writer to appear
  | .recover, .connectTo addr => goto [.connect addr, .send call .recover]
  | .recover, .retry => goto [.send call .lookup]
  | .recover, .giveUp => if p.writers = [] then goto (sendErr call) else none
  | .candidates snapshot, .order cs =>
    if cs ⊆ snapshot then
      if cs = [] then
        if 3 ≤ call.emergencyAttempts then goto (sendErr call)
        else goto [.send { call with emergencyAttempts := call.emergencyAttempts + 1 } .emergency]
      else goto [.send call (.scan cs none)]
    else none
  -- no candidate: connect to the target DC, then take a new snapshot
  | .emergency, .connectTo addr => goto [.connect addr, .send call .emergency]
  | .emergency, .order cs =>
    if cs ⊆ p.writerIds then
      if cs = [] then goto (sendErr call) else goto [.send call (.scan cs none)]
    else none
  | .scan [] fallback, .go => goto [.send call (.fallback fallback)]
  | .scan (w :: todo) fallback, .accepts b =>
    if acceptsNewBinding p w b then goto [.send call (.attempt w todo fallback)]
    else goto [.send call (.scan todo fallback)]
  | .attempt w _ _, .sent =>
    if p.closed w then none else some (.enqueue call.connId w, [.send call (.bind w)], [])
  | .attempt w todo fallback, .full =>
    if p.closed w then none else goto [.send call (.scan todo (fallback.or (some w)))]
  | .attempt w todo fallback, .closed =>
    if p.closed w then goto (removeWriterAndCloseClients w ++ [.send call (.scan todo fallback)])
    else none
  | .fallback none, .go => goto [.send call .lookup]
  | .fallback (some w), .accepts b =>
    if acceptsNewBinding p w b then goto [.send call (.wait w)] else goto [.send call .lookup]
  | .wait w, .sent =>
    if p.closed w then none else some (.enqueue call.connId w, [.send call (.bind w)], [])
  | .wait w, .closed =>
    if p.closed w then goto (removeWriterAndCloseClients w ++ [.send call .lookup]) else none
  | .bind w, .go => some (.bindWriter call.connId w call.connMeta, sendOk call, [])
  | _, _ => none

/-! ### The tasks -/

/-- A compare-exchange on `cleanup_done`: the winner removes the writer. -/
def claimCleanup (w : ℕ) (rest : List Frame) : Option Next :=
  if p.cleanupDone w then goto rest
  else some (.claimCleanup w, removeWriterAndCloseClients w ++ rest, [])

def exec : Frame → Answer → Option Next
  | .proxy, .startRelay =>
    some (.register p.registry.nextId, [.proxy], [[.relay p.registry.nextId]])
  | .proxy, .startConnect addr => some (.skip, [.proxy], [[.connect addr]])
  | .proxy, .startPrune => some (.skip, [.proxy], [[.prune]])
  | .proxy, .startDrain w => some (.skip, [.proxy], [[.markDraining w]])
  -- the relay of a client; after its last command it unregisters
  | .relay c, .command m => goto [.send ⟨c, m, 0⟩ .lookup]
  | .relay c, .closeCommand => goto [.closeLookup c]
  | .relay c, .noMoreCommands => goto [.unregister c]
  | .send call pc, a => sendProxyReq p call pc a
  | .closeLookup c, .go =>
    match p.registry.getWriter c with
    | some w => goto [.closeSend c w]
    | none => goto [.unregister c, .unregister c]
  | .closeSend c w, .sent => if p.closed w.tx then none else goto [.unregister c, .unregister c]
  | .closeSend c w, .closed =>
    if p.closed w.tx then
      goto (removeWriterAndCloseClients w.writerId ++ [.unregister c, .unregister c])
    else none
  | .unregister c, .go => some (.unregister c, [], [])
  -- `remove_writer_only`, and what `remove_writer_and_close_clients` does with its result
  | .removeList w discard, .go =>
    match p.writers.find? (·.id = w) with
    | some v => some (.removeWriter v, .removeClose w ::
        (if p.draining w then [] else [.removeRefill v]) ++ [.removeLost w discard], [])
    | none => goto [.removeLost w discard]
  | .removeClose _, .go => goto []
  | .removeRefill v, .go => some (.triggerRefill v, [], [])
  | .removeLost w discard, .go =>
    let conns := (p.registry.writerLost w).1.map (·.connId)
    some (.writerLost w discard conns, if discard then [] else [.closeClients conns], [])
  | .closeClients [], .go => goto []
  | .closeClients (c :: cs), .pick d =>
    if d ∈ c :: cs then
      some (.routeClose d, [.unregister d, .closeClients ((c :: cs).erase d)], [])
    else none
  -- `connect_one_with_generation_contour`, from the handshake on
  | .connect addr, .go =>
    some (.allocId, [.connectPush ⟨p.nextWriterId, addr⟩], [[.writerTask p.nextWriterId]])
  | .connect _, .giveUp => goto []
  | .connectPush v, .go => some (.pushWriter v, [.connectCount v.id], [])
  | .connectPush _, .giveUp => goto []
  | .connectCount w, .go => some (.countUp, [], [[.reader w], [.ping w]])
  | .writerTask w, .exit => some (.closeChannel w, [], [])
  | .reader w, .response c routed =>
    if routed ∧ p.registry.map c ≠ none then goto [.reader w] else goto [.unregister c, .reader w]
  | .reader w, .closeConn c => some (.routeClose c, [.unregister c, .reader w], [])
  | .reader w, .exit => goto [.readerExit w]
  | .readerExit w, .go => claimCleanup p w [.readerRetain w]
  | .readerRetain w, .go => some (.retain w, [], [])
  | .ping w, .sent => if p.closed w then none else goto [.ping w]
  | .ping w, .closed => if p.closed w then goto [.pingExit w] else none
  | .ping _, .exit => goto []
  | .pingExit w, .go => claimCleanup p w []
  | .markDraining w, .go =>
    if w ∈ p.writerIds then some (.markDraining w, [], [[.drainLoop w]]) else goto []
  | .drainLoop w, .timeout => goto (removeWriterAndCloseClients w)
  | .drainLoop w, .go =>
    if p.registry.isWriterEmpty w then goto (removeWriterOnly w) else goto [.drainLoop w]
  | .prune, .go => goto [.pruneNext ((p.writers.filter (fun v => p.closed v.id)).map (·.id))]
  | .pruneNext [], .go => goto []
  | .pruneNext (w :: todo), .go =>
    if p.registry.isWriterEmpty w then goto (removeWriterOnly w ++ [.pruneNext todo])
    else goto (removeWriterAndCloseClients w ++ [.pruneNext todo])
  | _, _ => none

end

def poolProgram : Program MePool Frame PoolOp Answer := ⟨exec, PoolOp.effect⟩

abbrev PoolConfig := Config MePool Frame PoolOp

/-- An empty pool, and the proxy. -/
def initial (start : ℕ) : PoolConfig := ⟨.new start, [[.proxy]], []⟩

end MtProxy.MiddleProxy
