import MtProxy.MiddleProxy.Reinit
import MtProxy.MiddleProxy.PoolConfig
import MtProxy.Schemes.Rotation
import MtProxy.Schemes.Decode
import Mathlib.Data.Prod.Lex
import Mathlib.Data.List.Sort

/-! How `send_proxy_req` finds a writer for a client that has none: the endpoints of the target DC, the
    eligible writers on them, the order of preference, and a scan that starts at a counter.

        endpoints ─▶ candidates ─▶ sort ─▶ scan from rr % n ─▶ bind
                          ▲                   │ all full: wait for the first
                     without, then
                     with warm writers

    The sort puts the preferred writers first, and the scan does not start there. -/

namespace MtProxy.MiddleProxy
open Schemes Reinit

/-! ### The pool as a selection reads it -/

inductive IpFamily where
  | v4 | v6
  deriving DecidableEq

structure NetworkDecision where
  ipv4Me : Bool
  ipv6Me : Bool
  effectivePrefer : ℕ
  effectiveMultipath : Bool

def NetworkDecision.preferIpv6 (decision : NetworkDecision) : Bool := decision.effectivePrefer == 6

inductive MeBindStaleMode where
  | never | ttl | always
  deriving DecidableEq

/-- What the clones of a writer share. -/
structure WriterFlags where
  contour : WriterContour
  degraded : Bool
  draining : Bool
  drainingStartedAtEpochSecs : ℕ
  allowDrainFallback : Bool

/-- The pool at one moment; the state of a writer is kept by its id. -/
structure SelectionPool where
  writers : List MeWriter
  generationOf : ℕ → ℕ
  flags : ℕ → WriterFlags
  capacity : ℕ → ℕ
  maps : ProxyMaps
  decision : NetworkDecision
  defaultDc : ℤ
  activeGeneration : ℕ
  bindStaleMode : MeBindStaleMode
  bindStaleTtlSecs : ℕ
  nowEpochSecs : ℕ
  deterministicWriterSort : Bool
  rr : UInt64

namespace SelectionPool

section
variable (pool : SelectionPool)

def currentGeneration : ℕ := pool.activeGeneration

def familyOrder : List IpFamily :=
  let v4 := if pool.decision.ipv4Me then [IpFamily.v4] else []
  let v6 := if pool.decision.ipv6Me then [IpFamily.v6] else []
  if pool.decision.preferIpv6 then v6 ++ v4 else v4 ++ v6

def proxyMapForFamily : IpFamily → EndpointMap
  | .v4 => pool.maps.proxyMapV4
  | .v6 => pool.maps.proxyMapV6

/-! ### The candidates -/

def writerAcceptsNewBinding (w : MeWriter) : Bool :=
  let flags := pool.flags w.id
  if !flags.draining then true
  else if !flags.allowDrainFallback then false
  else match pool.bindStaleMode with
    | .never => false
    | .always => true
    | .ttl =>
      if pool.bindStaleTtlSecs = 0 then true
      else if flags.drainingStartedAtEpochSecs = 0 then false
      else pool.nowEpochSecs - flags.drainingStartedAtEpochSecs ≤ pool.bindStaleTtlSecs

def writerEligibleForSelection (w : MeWriter) (includeWarm : Bool) : Bool :=
  if !pool.writerAcceptsNewBinding w then false
  else match (pool.flags w.id).contour with
    | .active => true
    | .warm => includeWarm
    | .draining => true

/-- The endpoints under a key, if nothing was found yet. -/
def orElse (map : EndpointMap) (key : ℤ) (preferred : List SocketAddr) : List SocketAddr :=
  if preferred = [] then (map.lookup key).getD [] else preferred

/-- The round of one family. -/
def extendPreferred (map : EndpointMap) (key : ℤ) (preferred : List SocketAddr) :
    List SocketAddr :=
  let preferred := preferred ++ (map.lookup key).getD []
  let preferred := orElse map |key| preferred
  let preferred := orElse map (-|key|) preferred
  if pool.defaultDc ≠ 0 then orElse map pool.defaultDc preferred else preferred

def preferredLoop (key : ℤ) : List IpFamily → List SocketAddr → List SocketAddr
  | [], preferred => preferred
  | family :: todo, preferred =>
    let preferred := pool.extendPreferred (pool.proxyMapForFamily family) key preferred
    if preferred ≠ [] ∧ !pool.decision.effectiveMultipath then preferred
    else preferredLoop key todo preferred

/-- The endpoints the target DC resolves to. -/
def preferredEndpoints (targetDc : ℤ) : List SocketAddr :=
  pool.preferredLoop targetDc pool.familyOrder []

def candidateIndicesForDc (writers : List MeWriter) (targetDc : ℤ) (includeWarm : Bool) :
    List (Fin writers.length) :=
  let eligible := (List.finRange writers.length).filter
    (fun i => pool.writerEligibleForSelection (writers.get i) includeWarm)
  let preferred := pool.preferredEndpoints targetDc
  if preferred = [] then eligible
  else
    let out := eligible.filter (fun i => (writers.get i).addr ∈ preferred)
    if out = [] then eligible else out

/-! ### The order of preference -/

def writerContourRankForSelection (w : MeWriter) : ℕ :=
  match (pool.flags w.id).contour with
  | .active => 0
  | .warm => 1
  | .draining => 2

def isStale (w : MeWriter) : Bool := pool.generationOf w.id < pool.currentGeneration

/-- The class of a writer: its contour, whether it is stale, whether it is degraded. -/
def preferenceClass (w : MeWriter) : ℕ ×ₗ ℕ ×ₗ ℕ :=
  toLex (pool.writerContourRankForSelection w,
    toLex ((pool.isStale w).toNat, (pool.flags w.id).degraded.toNat))

/-- `SocketAddr` as it is ordered: the family, the address, the port. -/
def addrKey (addr : SocketAddr) : ℕ ×ₗ ℕ ×ₗ ℕ :=
  match addr.ip with
  | .v4 octets => toLex (0, toLex (beVal octets.toList, addr.port.toNat))
  | .v6 octets => toLex (1, toLex (beVal octets.toList, addr.port.toNat))

/-- The key of `sort_by_key`. -/
def sortKey (w : MeWriter) : (ℕ ×ₗ ℕ ×ₗ ℕ) ×ₗ ℕᵒᵈ :=
  toLex (pool.preferenceClass w, OrderDual.toDual (pool.capacity w.id))

/-- The key of the deterministic sort. -/
def deterministicKey (w : MeWriter) : ((ℕ ×ₗ ℕ ×ₗ ℕ) ×ₗ ℕᵒᵈ) ×ₗ (ℕ ×ₗ ℕ ×ₗ ℕ) ×ₗ ℕ :=
  toLex (pool.sortKey w, toLex (addrKey w.addr, w.id))

def sortCandidates {writers : List MeWriter} (candidates : List (Fin writers.length)) :
    List (Fin writers.length) :=
  if pool.deterministicWriterSort then
    candidates.insertionSort (fun i j =>
      pool.deterministicKey (writers.get i) ≤ pool.deterministicKey (writers.get j))
  else
    candidates.insertionSort (fun i j => pool.sortKey (writers.get i) ≤ pool.sortKey (writers.get j))

/-- The order in which the candidates are tried. -/
def tryOrder {writers : List MeWriter} (candidates : List (Fin writers.length)) :
    List (Fin writers.length) :=
  let sorted := pool.sortCandidates candidates
  cycleFrom (pool.rr.toNat % sorted.length) sorted

end

end SelectionPool

/-! ### The scan -/

inductive ChannelState where
  | ready | full | closed
  deriving DecidableEq

/-- The writer that got the payload, the first one that was full, and the ones to be removed. -/
structure ScanResult (n : ℕ) where
  bound : Option (Fin n)
  fallbackBlockingIdx : Option (Fin n)
  removed : List (Fin n)
  deriving DecidableEq

/-- The loop over the offsets. -/
def scanWriters {n : ℕ} (accepts : Fin n → Bool) (channel : Fin n → ChannelState) :
    List (Fin n) → Option (Fin n) → ScanResult n
  | [], fallback => ⟨none, fallback, []⟩
  | idx :: todo, fallback =>
    if accepts idx then
      match channel idx with
      | .ready => ⟨some idx, fallback, []⟩
      | .full => scanWriters accepts channel todo (fallback.or (some idx))
      | .closed =>
        let result := scanWriters accepts channel todo fallback
        { result with removed := idx :: result.removed }
    else scanWriters accepts channel todo fallback

/-- Sort and scan, in a pool and a state of the channels that stay as they are. -/
def selectWriter (pool : SelectionPool) (channel : ℕ → ChannelState) {writers : List MeWriter}
    (candidates : List (Fin writers.length)) : ScanResult writers.length :=
  scanWriters (fun i => pool.writerAcceptsNewBinding (writers.get i)) (fun i => channel (writers.get i).id)
    (pool.tryOrder candidates) none

/-! ### The call -/

/-- Where a `send_proxy_req` stands. -/
inductive SelectPc where
  | lookup
  | current (w : ℕ)
  | currentWait (w : ℕ)
  | snapshot
  | recover
  | candidates (writers : List MeWriter) (includeWarm : Bool)
  | emergency (todo : List IpFamily)
  | connecting (addrs : List SocketAddr) (todo : List IpFamily)
  | refresh (todo : List IpFamily)
  | emergencyCandidates (writers : List MeWriter) (includeWarm : Bool) (todo : List IpFamily)
  | sort (writers : List MeWriter) (candidates : List (Fin writers.length))
  | scan (writers : List MeWriter) (todo : List (Fin writers.length))
      (fallback : Option (Fin writers.length))
  | wait (writers : List MeWriter) (idx : Fin writers.length)
  | bound (w : MeWriter)
  | sent
  | failed

structure SelectState where
  targetDc : ℤ
  emergencyAttempts : ℕ
  pc : SelectPc

/-- What a step depends on besides the pool. -/
inductive SelectAnswer where
  | go
  | writer (w : Option ℕ)
  | channel (state : ChannelState)
  | retry | giveUp
  | shuffled (addrs : List SocketAddr)
  | connected (ok : Bool)
  deriving DecidableEq

namespace SelectState

def start (targetDc : ℤ) : SelectState := ⟨targetDc, 0, .lookup⟩

def goto (s : SelectState) (pc : SelectPc) : Option SelectState := some { s with pc := pc }

/-- One step of the call. The pool is the one at that moment: between two steps the others may have
    done anything to it. -/
def step (s : SelectState) (e : SelectionPool × SelectAnswer) : Option SelectState :=
  let pool := e.1
  match s.pc, e.2 with
  | .lookup, .writer (some w) => s.goto (.current w)
  | .lookup, .writer none => s.goto .snapshot
  | .current _, .channel .ready | .currentWait _, .channel .ready => s.goto .sent
  | .current w, .channel .full => s.goto (.currentWait w)
  | .current _, .channel .closed | .currentWait _, .channel .closed => s.goto .lookup
  | .snapshot, .go =>
    if pool.writers = [] then s.goto .recover else s.goto (.candidates pool.writers false)
  -- an empty pool: connect to everything known, then wait for a writer to appear
  | .recover, .retry => s.goto .lookup
  | .recover, .giveUp => if pool.writers = [] then s.goto .failed else none
  | .candidates writers includeWarm, .go =>
    let cs := pool.candidateIndicesForDc writers s.targetDc includeWarm
    if cs ≠ [] then s.goto (.sort writers cs)
    else if !includeWarm then s.goto (.candidates writers true)
    else if 3 ≤ s.emergencyAttempts then s.goto .failed
    else some { s with
      emergencyAttempts := s.emergencyAttempts + 1, pc := .emergency pool.familyOrder }
  -- no candidate: connect to the target DC, and look again
  | .emergency (family :: todo), .shuffled addrs =>
    match (pool.proxyMapForFamily family).lookup s.targetDc with
    | some known => if addrs.Perm known then s.goto (.connecting addrs todo) else none
    | none => none
  | .emergency (family :: todo), .go =>
    if (pool.proxyMapForFamily family).lookup s.targetDc = none then s.goto (.emergency todo)
    else none
  | .emergency [], .go => s.goto .failed
  | .connecting (_ :: addrs) todo, .connected ok =>
    if ok then s.goto (.refresh todo) else s.goto (.connecting addrs todo)
  | .connecting [] todo, .go => s.goto (.refresh todo)
  | .refresh todo, .go => s.goto (.emergencyCandidates pool.writers false todo)
  | .emergencyCandidates writers includeWarm todo, .go =>
    let cs := pool.candidateIndicesForDc writers s.targetDc includeWarm
    if cs ≠ [] then s.goto (.sort writers cs)
    else if !includeWarm then s.goto (.emergencyCandidates writers true todo)
    else s.goto (.emergency todo)
  | .sort writers cs, .go => s.goto (.scan writers (pool.tryOrder cs) none)
  | .scan writers (idx :: todo) fallback, .go =>
    if pool.writerAcceptsNewBinding (writers.get idx) then none
    else s.goto (.scan writers todo fallback)
  | .scan writers (idx :: todo) fallback, .channel state =>
    if pool.writerAcceptsNewBinding (writers.get idx) then
      match state with
      | .ready => s.goto (.bound (writers.get idx))
      | .full => s.goto (.scan writers todo (fallback.or (some idx)))
      | .closed => s.goto (.scan writers todo fallback)
    else none
  | .scan _ [] none, .go => s.goto .lookup
  | .scan writers [] (some idx), .go =>
    if pool.writerAcceptsNewBinding (writers.get idx) then s.goto (.wait writers idx)
    else s.goto .lookup
  | .wait writers idx, .channel .ready => s.goto (.bound (writers.get idx))
  | .wait _ _, .channel .closed => s.goto .lookup
  | _, _ => none

end SelectState

end MtProxy.MiddleProxy
