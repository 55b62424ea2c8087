import MtProxy.Schemes.Calls
import MtProxy.Schemes.Lru

/-! `ReplayChecker`: which keys were seen within the last `window`. Every shard has a cache of
    bounded size and a queue of insertions in the order of time; an insertion is matched with its
    cache entry by its sequence number, so a key that was inserted again is not dropped when its
    older queue entry is.

        add k ──▶ cache: k ↦ (now, seq)      queue: ⋯ (now, k, seq)
        cleanup: pop the front while it is older than now - window,
                 drop its key from the cache if the cache still has that seq

    `Linked` is the invariant between the two; with it, a cleanup leaves in the cache exactly the
    entries that are not too old. `Complete` says that no younger insertion is missing, and is kept
    as long as the cache never has to evict. -/

namespace MtProxy.Stats
open Schemes

/-- A point of the monotonic clock, in nanoseconds. -/
abbrev Instant := ℕ

abbrev Key := List UInt8

structure ReplayEntry where
  seenAt : Instant
  seq : ℕ

structure Queued where
  time : Instant
  key : Key
  seq : ℕ

/-- `ReplayShard`. The calls of `add` so far, latest first, are recorded in `inserted`, which the
    source does not have. -/
structure ReplayShard where
  cache : LruCache Key ReplayEntry
  queue : List Queued
  seqCounter : ℕ
  inserted : List (Instant × Key)

/-- `Instant::checked_sub`. -/
def checkedSub (now window : ℕ) : Option Instant := if window ≤ now then some (now - window) else none

namespace ReplayShard

def new (cap : ℕ) (h : 0 < cap) : ReplayShard := ⟨LruCache.new cap h, [], 0, []⟩

/-- The key goes if its cache entry is the one of this queue entry. -/
def dropCurrent (cache : LruCache Key ReplayEntry) (q : Queued) : LruCache Key ReplayEntry :=
  match cache.peek q.key with
  | some entry => if entry.seq = q.seq then cache.pop q.key else cache
  | none => cache

def cleanupLoop (cutoff : Instant) :
    LruCache Key ReplayEntry → List Queued → LruCache Key ReplayEntry × List Queued
  | cache, [] => (cache, [])
  | cache, q :: queue =>
    if cutoff ≤ q.time then (cache, q :: queue)
    else cleanupLoop cutoff (dropCurrent cache q) queue

def cleanup (s : ReplayShard) (now : Instant) (window : ℕ) : ReplayShard :=
  if window = 0 then s
  else
    let cutoff := (checkedSub now window).getD now
    { s with
      cache := (cleanupLoop cutoff s.cache s.queue).1
      queue := (cleanupLoop cutoff s.cache s.queue).2 }

def check (s : ReplayShard) (key : Key) (now : Instant) (window : ℕ) : Bool × ReplayShard :=
  let s := s.cleanup now window
  ((s.cache.get key).1.isSome, { s with cache := (s.cache.get key).2 })

def add (s : ReplayShard) (key : Key) (now : Instant) (window : ℕ) : ReplayShard :=
  let s := s.cleanup now window
  let seq := s.seqCounter + 1
  { cache := s.cache.put key ⟨now, seq⟩
    queue := s.queue ++ [⟨now, key, seq⟩]
    seqCounter := seq
    inserted := (now, key) :: s.inserted }

end ReplayShard

/-! ### The checker -/

def numShards : ℕ := 64

structure ReplayChecker where
  shards : Fin numShards → ReplayShard
  window : ℕ

theorem mod_numShards_lt (n : ℕ) : n % numShards < numShards := Nat.mod_lt _ (by decide)

theorem shardCapacity_pos (totalCapacity : ℕ) : 0 < max (totalCapacity / numShards) 1 :=
  lt_of_lt_of_le Nat.one_pos (le_max_right _ _)

namespace ReplayChecker

def new (totalCapacity window : ℕ) : ReplayChecker :=
  ⟨fun _ => ReplayShard.new (max (totalCapacity / numShards) 1) (shardCapacity_pos totalCapacity),
    window⟩

section
variable (hash : Key → UInt64)

/-- The hash masked by `shard_mask = 63`. -/
def getShardIdx (key : Key) : Fin numShards :=
  ⟨(hash key).toNat % numShards, mod_numShards_lt (hash key).toNat⟩

/-- `check_and_add_internal`, under the lock of the key's shard. -/
def checkAndAdd (c : ReplayChecker) (key : Key) (now : Instant) : Bool × ReplayChecker :=
  let idx := getShardIdx hash key
  let (found, s) := (c.shards idx).check key now c.window
  let s := if found then s else s.add key now c.window
  (found, { c with shards := Function.update c.shards idx s })

def addOnly (c : ReplayChecker) (key : Key) (now : Instant) : ReplayChecker :=
  let idx := getShardIdx hash key
  { c with shards := Function.update c.shards idx ((c.shards idx).add key now c.window) }

/-- The turn of one shard in a round of `run_periodic_cleanup`. -/
def cleanupShard (c : ReplayChecker) (idx : Fin numShards) (now : Instant) : ReplayChecker :=
  { c with shards := Function.update c.shards idx ((c.shards idx).cleanup now c.window) }

/-- An operation with the time it reads. A round of the periodic cleanup reads the clock once and
    then takes the shards in turn, so the time of a cleanup may lie behind. -/
inductive Op where
  | checkAndAdd (key : Key) (now : Instant)
  | addOnly (key : Key) (now : Instant)
  | cleanup (idx : Fin numShards) (now : Instant)

def Op.now : Op → Instant
  | .checkAndAdd _ now => now
  | .addOnly _ now => now
  | .cleanup _ now => now

/-- The key the operation is about, if it is about one. -/
def Op.key : Op → Option Key
  | .checkAndAdd key _ => some key
  | .addOnly key _ => some key
  | .cleanup _ _ => none

/-- The reply of an operation is the verdict of `check_and_add`. -/
def call (c : ReplayChecker) : Op → Option Bool × ReplayChecker
  | .checkAndAdd key now => (some (c.checkAndAdd hash key now).1, (c.checkAndAdd hash key now).2)
  | .addOnly key now => (none, c.addOnly hash key now)
  | .cleanup idx now => (none, c.cleanupShard idx now)

end

end ReplayChecker

end MtProxy.Stats
