import MtProxy.MiddleProxy.Pool
import MtProxy.Schemes.RwLock

/-! `zero_downtime_reinit_after_map_change`, at the level of its awaits: the fair lock of `writers` is
    part of the state here, and between two awaits a task runs on its own.

        generation ──▶ warmup or reconcile ──▶ survey ──▶ promote ──▶ stale ──▶ drain
                       read, write, …         [ read      read  ]            write, …

    The read guard of the survey is held until the stale writers are known, and the promotion of a
    hardswap takes a second one in between. Any number of cycles may run at once, next to tasks that
    connect, and to tasks that read the list or update it under the write lock. -/

namespace MtProxy.MiddleProxy.Reinit
open Schemes

inductive WriterContour where
  | warm | active | draining
  deriving DecidableEq

/-- The endpoints of the DC groups, in the order in which they are visited. -/
abbrev EndpointMap := List (ℤ × List SocketAddr)

/-- The part of `MePool` a cycle works on. A writer's generation is kept by its id. -/
structure ReinitPool where
  lock : RwLock ℕ
  pool : MePool
  generationOf : ℕ → ℕ
  contour : ℕ → WriterContour
  hardswap : Bool
  generation : ℕ
  activeGeneration : ℕ
  warmGeneration : ℕ
  pendingGeneration : ℕ
  pendingStartedAt : ℕ
  pendingMapHash : ℕ
  shadowWriters : ℕ
  warmupExtraPasses : ℕ
  effectiveMultipath : Bool
  families : ℕ
  nextTask : ℕ

def ReinitPool.new (start : ℕ) (hardswap multipath : Bool) (shadow passes families : ℕ) :
    ReinitPool :=
  ⟨.empty, .new start, fun _ => 0, fun _ => .active, hardswap, 1, 1, 0, 0, 0, 0, shadow, passes,
    multipath, families, 0⟩

/-- What a cycle has fixed at its start. -/
structure ReinitCall where
  desired : EndpointMap
  hardswap : Bool
  generation : ℕ
  deriving DecidableEq

/-! ### What the cycle computes -/

section
variable (s : ReinitPool)

def pendingTtlSecs : ℕ := 1800

def clearPendingHardswapState : ReinitPool :=
  { s with pendingGeneration := 0, pendingStartedAt := 0, pendingMapHash := 0, warmGeneration := 0 }

/-- The pending generation of an earlier cycle is taken up again. -/
def reusesPending (hash now : ℕ) : Bool :=
  s.pendingGeneration ≠ 0 ∧ s.activeGeneration ≤ s.pendingGeneration ∧
    (s.pendingMapHash ≠ 0 ∧ s.pendingMapHash = hash) ∧
    ¬ (0 < s.pendingStartedAt ∧ pendingTtlSecs < now - s.pendingStartedAt)

def chooseGeneration (hash now : ℕ) : ℕ × ReinitPool :=
  if s.hardswap then
    if reusesPending s hash now then
      (s.pendingGeneration, { s with warmGeneration := s.pendingGeneration })
    else
      (s.generation + 1, { s with
        generation := s.generation + 1, pendingGeneration := s.generation + 1,
        pendingStartedAt := now, pendingMapHash := hash, warmGeneration := s.generation + 1 })
  else
    (s.generation + 1, { clearPendingHardswapState s with generation := s.generation + 1 })

def requiredWritersForDc (endpoints : ℕ) : ℕ :=
  if endpoints = 0 then 0
  else if endpoints = 1 then max (1 + s.shadowWriters) 3
  else max endpoints 3

def totalWarmupPasses : ℕ := 1 + min s.warmupExtraPasses 10

/-- The writers that are not draining. -/
def liveWriters : List MeWriter := s.pool.writers.filter (fun w => !s.pool.draining w.id)

def freshWriterCount (generation : ℕ) (endpoints : List SocketAddr) : ℕ :=
  ((liveWriters s).filter (fun w => s.generationOf w.id = generation ∧ w.addr ∈ endpoints)).length

def activeWriterAddrs : List SocketAddr := (liveWriters s).map (·.addr)

/-- The DC groups without a live writer. -/
def missingDc (desired : EndpointMap) : List ℤ :=
  (desired.filter (fun d => d.2 ≠ [] ∧ ∀ addr ∈ d.2, addr ∉ activeWriterAddrs s)).map (·.1)

/-- The DC groups with too few writers of the new generation. -/
def freshMissingDc (call : ReinitCall) : List ℤ :=
  (call.desired.filter (fun d => d.2 ≠ [] ∧
    freshWriterCount s call.generation d.2 < requiredWritersForDc s d.2.length)).map (·.1)

def staleWriterIds (call : ReinitCall) : List ℕ :=
  ((liveWriters s).filter (fun w =>
    if call.hardswap then s.generationOf w.id < call.generation
    else ∀ d ∈ call.desired, w.addr ∉ d.2)).map (·.id)

end

/-! ### Operations -/

/-- What is done to the list under the write lock. -/
inductive ListUpdate where
  | push (w : MeWriter) (generation : ℕ) (contour : WriterContour)
  | remove (writerId : ℕ)
  | retain (writerId : ℕ)
  | markDraining (writerId : ℕ)
  deriving DecidableEq

def ListUpdate.effect (s : ReinitPool) : ListUpdate → ReinitPool
  | .push w generation contour =>
    { s with
      pool := (PoolOp.pushWriter w).effect s.pool
      generationOf := Function.update s.generationOf w.id generation
      contour := Function.update s.contour w.id contour }
  | .remove w =>
    match s.pool.writers.find? (·.id = w) with
    | some v => { s with pool := (PoolOp.removeWriter v).effect s.pool }
    | none => s
  | .retain w => { s with pool := (PoolOp.retain w).effect s.pool }
  | .markDraining w =>
    if w ∈ s.pool.writerIds then
      { s with
        pool := (PoolOp.markDraining w).effect s.pool
        contour := Function.update s.contour w .draining }
    else s

inductive ReinitOp where
  | skip
  | spawn
  | updateRuntimeReinitPolicy (hardswap : Bool) (shadowWriters extraPasses : ℕ)
  | begin (hash now : ℕ)
  | allocId
  | request (task : ℕ) (mode : Mode)
  | release (task : ℕ) (mode : Mode)
  | update (task : ℕ) (u : ListUpdate)
  | activate (generation : ℕ)
  | promote (task generation : ℕ)
  | clearPending
  deriving DecidableEq

def ReinitOp.effect : ReinitOp → ReinitPool → ReinitPool
  | .skip, s => s
  | .spawn, s => { s with nextTask := s.nextTask + 1 }
  | .updateRuntimeReinitPolicy hardswap shadow passes, s =>
    { s with hardswap := hardswap, shadowWriters := shadow, warmupExtraPasses := passes }
  | .begin hash now, s => (chooseGeneration s hash now).2
  | .allocId, s => { s with pool := PoolOp.allocId.effect s.pool }
  | .request t m, s => { s with lock := s.lock.request (t, m) }
  | .release t m, s => { s with lock := s.lock.release (t, m) }
  | .update t u, s => { u.effect s with lock := s.lock.release (t, .write) }
  | .activate g, s => { s with activeGeneration := g, warmGeneration := 0 }
  | .promote t g, s =>
    { s with
      contour := fun w =>
        if w ∈ (liveWriters s).map (·.id) ∧ s.generationOf w = g then .active else s.contour w
      lock := s.lock.release (t, .read) }
  | .clearPending, s => clearPendingHardswapState s

/-! ### The tasks -/

/-- The warm-up of one DC. The passes are read once a warm-up and the floor once a DC. -/
structure WarmupDc where
  endpoints : List SocketAddr
  required : ℕ
  totalPasses : ℕ
  todo : EndpointMap
  deriving DecidableEq

/-- What a cycle does under a guard. -/
inductive Section where
  | fresh (dc : WarmupDc) (pass : ℕ)
  | warmupPush (w : MeWriter) (dc : WarmupDc) (pass attempts : ℕ)
  | reconcileScan
  | reconcilePush (w : MeWriter) (generation : ℕ) (current : List SocketAddr) (families : ℕ)
      (todo : EndpointMap)
  | survey
  | drain (writerId : ℕ) (todo : List ℕ)
  deriving DecidableEq

def Section.mode : Section → Mode
  | .fresh .. | .reconcileScan | .survey => .read
  | .warmupPush .. | .reconcilePush .. | .drain .. => .write

/-- Where a cycle stands. -/
inductive ReinitPc where
  | warmup (totalPasses : ℕ) (todo : EndpointMap)
  | warmupPass (dc : WarmupDc) (pass fresh : ℕ)
  | warmupConnect (dc : WarmupDc) (pass attempts : ℕ)
  | reconcile (current : List SocketAddr) (families : ℕ)
  | reconcileDc (current : List SocketAddr) (families : ℕ) (todo : EndpointMap)
  | reconcileTry (untried current : List SocketAddr) (families : ℕ) (todo : EndpointMap)
  | reconcileConnect (addr : SocketAddr) (generation : ℕ) (untried current : List SocketAddr)
      (families : ℕ) (todo : EndpointMap)
  | drain (todo : List ℕ)
  /-- About to ask for a guard. -/
  | ask (what : Section)
  /-- Waits for the guard, or holds it. -/
  | guarded (what : Section)
  /-- From here on the guard of the survey is held. -/
  | survey
  | promoteAsk
  | promote
  | stale
  deriving DecidableEq

inductive Frame where
  /-- The rest of the proxy, which starts tasks. -/
  | proxy
  | reinitStart (task : ℕ)
  | reinit (task : ℕ) (call : ReinitCall) (pc : ReinitPc)
  /-- A `connect_one` of another task, before and after it has read the generation. -/
  | connect (task : ℕ) (addr : SocketAddr)
  | connecting (task : ℕ) (addr : SocketAddr) (generation : ℕ)
  /-- Another task with one section under the lock, a read if there is no update. -/
  | other (task : ℕ) (u : Option ListUpdate)
  | otherGuarded (task : ℕ) (u : Option ListUpdate)
  deriving DecidableEq

def otherMode : Option ListUpdate → Mode
  | some _ => .write
  | none => .read

/-- Writers are added by a `connect_one` only, under a new id. -/
def addsWriter : Option ListUpdate → Bool
  | some (.push ..) => true
  | _ => false

/-- What is decided outside: the maps and the clock, which endpoint is tried next and the outcome of a
    connect, the comparison of the coverage with the minimum ratio. -/
inductive Answer where
  | go
  | startReinit | startConnect (addr : SocketAddr) | startOther (u : Option ListUpdate)
  | updateRuntimeReinitPolicy (hardswap : Bool) (shadowWriters extraPasses : ℕ)
  | desired (map : EndpointMap) (hash now : ℕ)
  | familyMap (map : EndpointMap)
  | attempt (addr : SocketAddr) | established
  | connected (addr : SocketAddr) | failed
  | ratio (below : Bool)

abbrev Next := ReinitOp × List Frame × List (List Frame)

section
variable (s : ReinitPool) (t : ℕ) (call : ReinitCall)

abbrev goOn (e : ReinitOp) (pc : ReinitPc) : Option Next := some (e, [.reinit t call pc], [])

/-- The section of a cycle that holds the guard it asked for. -/
def runSection : Section → Option Next
  | .fresh dc pass =>
    goOn t call (.release t .read)
      (.warmupPass dc pass (freshWriterCount s call.generation dc.endpoints))
  | .warmupPush w dc pass n =>
    goOn t call (.update t (.push w call.generation .warm)) (.warmupConnect dc pass n)
  | .reconcileScan =>
    goOn t call (.release t .read) (.reconcile (activeWriterAddrs s) s.families)
  | .reconcilePush w generation current families todo =>
    goOn t call (.update t (.push w generation .active)) (.reconcileDc current families todo)
  | .survey => goOn t call .skip .survey
  | .drain w todo => goOn t call (.update t (.markDraining w)) (.drain todo)

def reinitStep : ReinitPc → Answer → Option Next
  -- `warmup_generation_for_all_dcs`
  | .warmup _ [], .go => goOn t call .skip (.ask .survey)
  | .warmup total ((_, eps) :: todo), .go =>
    if eps = [] then goOn t call .skip (.warmup total todo)
    else goOn t call .skip (.ask (.fresh ⟨eps, requiredWritersForDc s eps.length, total, todo⟩ 0))
  | .warmupPass dc pass fresh, .go =>
    if dc.required ≤ fresh ∨ dc.totalPasses ≤ pass then
      goOn t call .skip (.warmup dc.totalPasses dc.todo)
    else goOn t call .skip (.warmupConnect dc pass (dc.required - fresh))
  | .warmupConnect dc pass 0, .go => goOn t call .skip (.ask (.fresh dc (pass + 1)))
  | .warmupConnect dc pass (n + 1), .failed => goOn t call .skip (.warmupConnect dc pass n)
  | .warmupConnect dc pass (n + 1), .connected addr =>
    if addr ∈ dc.endpoints then
      goOn t call .allocId (.ask (.warmupPush ⟨s.pool.nextWriterId, addr⟩ dc pass n))
    else none
  -- `reconcile_connections`
  | .reconcile _ 0, .go => goOn t call .skip (.ask .survey)
  | .reconcile current (n + 1), .familyMap m => goOn t call .skip (.reconcileDc current n m)
  | .reconcileDc current n [], .go =>
    if !s.effectiveMultipath ∧ current ≠ [] then goOn t call .skip (.ask .survey)
    else goOn t call .skip (.reconcile current n)
  | .reconcileDc current n ((_, addrs) :: todo), .go =>
    if ∃ addr ∈ addrs, addr ∈ current then goOn t call .skip (.reconcileDc current n todo)
    else goOn t call .skip (.reconcileTry addrs current n todo)
  | .reconcileTry [] current n todo, .go => goOn t call .skip (.reconcileDc current n todo)
  | .reconcileTry untried current n todo, .attempt addr =>
    if addr ∈ untried then
      goOn t call .skip (.reconcileConnect addr s.activeGeneration (untried.erase addr) current n todo)
    else none
  | .reconcileConnect _ _ untried current n todo, .failed =>
    goOn t call .skip (.reconcileTry untried current n todo)
  | .reconcileConnect addr generation _ current n todo, .established =>
    goOn t call .allocId
      (.ask (.reconcilePush ⟨s.pool.nextWriterId, addr⟩ generation current n todo))
  | .ask what, .go => goOn t call (.request t what.mode) (.guarded what)
  | .guarded what, .go =>
    if (t, what.mode) ∈ s.lock.holders then runSection s t call what else none
  -- with the guard of the survey held
  | .survey, .ratio below =>
    if call.hardswap then
      if freshMissingDc s call = [] then goOn t call (.activate call.generation) .promoteAsk
      else some (.release t .read, [], [])
    else if below ∨ missingDc s call.desired ≠ [] then some (.release t .read, [], [])
    else goOn t call .skip .stale
  -- `promote_warm_generation_to_active` takes a second guard
  | .promoteAsk, .go => goOn t call (.request t .read) .promote
  | .promote, .go =>
    if s.lock.holders.count (t, .read) = 2 then goOn t call (.promote t call.generation) .stale
    else none
  | .stale, .go => goOn t call (.release t .read) (.drain (staleWriterIds s call))
  | .drain [], .go => some (if call.hardswap then .clearPending else .skip, [], [])
  | .drain (w :: todo), .go => goOn t call .skip (.ask (.drain w todo))
  | _, _ => none

end

def exec (s : ReinitPool) : Frame → Answer → Option Next
  | .proxy, .startReinit => some (.spawn, [.proxy], [[.reinitStart s.nextTask]])
  | .proxy, .startConnect addr => some (.spawn, [.proxy], [[.connect s.nextTask addr]])
  | .proxy, .startOther u =>
    if addsWriter u then none else some (.spawn, [.proxy], [[.other s.nextTask u]])
  | .proxy, .updateRuntimeReinitPolicy hardswap shadow passes =>
    some (.updateRuntimeReinitPolicy hardswap shadow passes, [.proxy], [])
  | .reinitStart t, .desired m hash now =>
    if m = [] then some (.skip, [], [])
    else
      let call : ReinitCall := ⟨m, s.hardswap, (chooseGeneration s hash now).1⟩
      goOn t call (.begin hash now)
        (if s.hardswap then .warmup (totalWarmupPasses s) m else .ask .reconcileScan)
  | .reinit t call pc, a => reinitStep s t call pc a
  | .connect t addr, .go => some (.skip, [.connecting t addr s.activeGeneration], [])
  | .connecting _ _ _, .failed => some (.skip, [], [])
  | .connecting t addr generation, .established =>
    some (.allocId, [.other t (some (.push ⟨s.pool.nextWriterId, addr⟩ generation .active))], [])
  | .other t u, .go => some (.request t (otherMode u), [.otherGuarded t u], [])
  | .otherGuarded t none, .go =>
    if (t, .read) ∈ s.lock.holders then some (.release t .read, [], []) else none
  | .otherGuarded t (some u), .go =>
    if (t, .write) ∈ s.lock.holders then some (.update t u, [], []) else none
  | _, _ => none

def reinitProgram : Program ReinitPool Frame ReinitOp Answer := ⟨exec, ReinitOp.effect⟩

abbrev ReinitConfig := Config ReinitPool Frame ReinitOp

def initial (s : ReinitPool) : ReinitConfig := ⟨s, [[.proxy]], []⟩

end MtProxy.MiddleProxy.Reinit
