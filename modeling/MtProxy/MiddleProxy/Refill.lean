import MtProxy.MiddleProxy.Wire
import MtProxy.Schemes.Holdings

/-! `trigger_immediate_refill`: a task that replaces a lost writer. It goes through two gates, the set of
    addresses and the set of DC groups in which a refill is under way, each behind a lock of its own:

        resolve keys ─▶ insert addr ─▶ keys free? ─▶ insert keys ─▶ refill ─▶ remove addr ─▶ remove keys
                          │ present      │ taken
                          ▼              ▼
                        (skip)         remove addr

    The keys are those of the maps at the time they were resolved, and the maps may change meanwhile.
    Both sets are accounted for by what the tasks hold. -/

namespace MtProxy.MiddleProxy.Refill
open Schemes

inductive IpFamily where
  | v4 | v6
  deriving DecidableEq

structure RefillDcKey where
  dc : ℕ
  family : IpFamily
  deriving DecidableEq

/-- A map of the DCs to their endpoints, in the order in which it is visited. -/
abbrev ProxyMap := List (ℤ × List SocketAddr)

structure RefillPool where
  proxyMapV4 : ProxyMap
  proxyMapV6 : ProxyMap
  refillInflight : Finset SocketAddr
  refillInflightDc : Finset RefillDcKey

/-! ### Resolving the DC groups -/

def familyOf (addr : SocketAddr) : IpFamily :=
  match addr.ip with
  | .v4 _ => .v4
  | .v6 _ => .v6

def RefillPool.proxyMapForFamily (s : RefillPool) : IpFamily → ProxyMap
  | .v4 => s.proxyMapV4
  | .v6 => s.proxyMapV6

def RefillPool.setMap (s : RefillPool) (family : IpFamily) (map : ProxyMap) : RefillPool :=
  match family with
  | .v4 => { s with proxyMapV4 := map }
  | .v6 => { s with proxyMapV6 := map }

/-- The group of the first entry that has the address. -/
def resolveRefillDcKeyForAddr (s : RefillPool) (addr : SocketAddr) : Option RefillDcKey :=
  ((s.proxyMapForFamily (familyOf addr)).find? fun entry => addr ∈ entry.2).map fun entry =>
    ⟨entry.1.natAbs, familyOf addr⟩

/-- The half of `endpoints_for_same_dc` for one of the maps: the DCs that have the address, and then
    all endpoints of the DCs found so far. -/
def endpointsForSameDc (map : ProxyMap) (addr : SocketAddr)
    (found : Finset ℕ × Finset SocketAddr) : Finset ℕ × Finset SocketAddr :=
  let targetDc := found.1 ∪ ((map.filter fun entry => addr ∈ entry.2).map (·.1.natAbs)).toFinset
  (targetDc, found.2 ∪ ((map.filter fun entry => entry.1.natAbs ∈ targetDc).flatMap (·.2)).toFinset)

/-! ### The tasks -/

/-- Where `refill_writer_after_loss` is: the attempts left on the same endpoint, the endpoints of the
    group being looked up, and the attempts left on these. -/
inductive Phase where
  | start
  | sameEndpoint (attempts : ℕ)
  | endpointsV4
  | endpointsV6 (found : Finset ℕ × Finset SocketAddr)
  | fallback (attempts : ℕ)

inductive Frame where
  | caller
  | mapUpdate
  | endpointsV4 (addr : SocketAddr)
  | endpointsV6 (addr : SocketAddr) (found : Finset ℕ × Finset SocketAddr)
  | resolve (addr : SocketAddr) (endpoints : Finset SocketAddr) (keys : Finset RefillDcKey)
  | insertAddr (addr : SocketAddr) (keys : Finset RefillDcKey)
  | insertKeys (addr : SocketAddr) (keys : Finset RefillDcKey)
  | rollBack (addr : SocketAddr)
  | refill (addr : SocketAddr) (keys : Finset RefillDcKey) (phase : Phase)
  | removeAddr (addr : SocketAddr) (keys : Finset RefillDcKey)
  | removeKeys (keys : Finset RefillDcKey)

/-- What the environment decides. The endpoints are resolved in the order of the answers; the source
    has them sorted. -/
inductive Answer where
  | trigger (addr : SocketAddr)
  | map (family : IpFamily) (map : ProxyMap)
  | go
  | endpoint (addr : SocketAddr)
  | quarantined (is : Bool)
  | connected (ok : Bool)

inductive Op where
  | trigger (addr : SocketAddr)
  | setMap (family : IpFamily) (map : ProxyMap)
  | read
  | connect
  | skip (addr : SocketAddr)
  | insertAddr (addr : SocketAddr)
  | insertKeys (keys : Finset RefillDcKey)
  | removeAddr (addr : SocketAddr)
  | removeKeys (keys : Finset RefillDcKey)

/-- Which families the pool connects to, and `me_reconnect_fast_retry_count`. -/
structure Settings where
  ipv4Me : Bool
  ipv6Me : Bool
  fastRetryCount : ℕ

def exec (settings : Settings) (s : RefillPool) :
    Frame → Answer → Option (Op × List Frame × List (List Frame))
  | .caller, .trigger addr => some (.trigger addr, [.caller], [[.endpointsV4 addr]])
  | .mapUpdate, .map family map => some (.setMap family map, [.mapUpdate], [])
  | .endpointsV4 addr, .go =>
    let found := if settings.ipv4Me then endpointsForSameDc s.proxyMapV4 addr (∅, ∅) else (∅, ∅)
    some (.read, [.endpointsV6 addr found], [])
  | .endpointsV6 addr found, .go =>
    let found := if settings.ipv6Me then endpointsForSameDc s.proxyMapV6 addr found else found
    some (.read, [.resolve addr found.2 ∅], [])
  | .resolve addr endpoints keys, .endpoint e =>
    if e ∈ endpoints then
      some (.read, [.resolve addr (endpoints.erase e)
        (keys ∪ (resolveRefillDcKeyForAddr s e).toFinset)], [])
    else none
  | .resolve addr endpoints keys, .go =>
    if endpoints = ∅ then some (.read, [.insertAddr addr keys], []) else none
  | .insertAddr addr keys, .go =>
    if addr ∈ s.refillInflight then some (.skip addr, [], [])
    else if keys = ∅ then some (.insertAddr addr, [.refill addr ∅ .start], [])
    else some (.insertAddr addr, [.insertKeys addr keys], [])
  | .insertKeys addr keys, .go =>
    if Disjoint keys s.refillInflightDc then
      some (.insertKeys keys, [.refill addr keys .start], [])
    else some (.skip addr, [.rollBack addr], [])
  | .rollBack addr, .go => some (.removeAddr addr, [], [])
  | .refill addr keys .start, .quarantined is =>
    let phase := if is then .endpointsV4 else .sameEndpoint (max settings.fastRetryCount 1)
    some (.read, [.refill addr keys phase], [])
  | .refill addr keys (.sameEndpoint (n + 1)), .connected ok =>
    if ok then some (.connect, [.removeAddr addr keys], [])
    else some (.connect, [.refill addr keys (.sameEndpoint n)], [])
  | .refill addr keys (.sameEndpoint 0), .go => some (.read, [.refill addr keys .endpointsV4], [])
  | .refill addr keys .endpointsV4, .go =>
    let found := if settings.ipv4Me then endpointsForSameDc s.proxyMapV4 addr (∅, ∅) else (∅, ∅)
    some (.read, [.refill addr keys (.endpointsV6 found)], [])
  | .refill addr keys (.endpointsV6 found), .go =>
    let found := if settings.ipv6Me then endpointsForSameDc s.proxyMapV6 addr found else found
    if found.2 = ∅ then some (.read, [.removeAddr addr keys], [])
    else some (.read, [.refill addr keys (.fallback (max settings.fastRetryCount 1))], [])
  | .refill addr keys (.fallback (n + 1)), .connected ok =>
    if ok then some (.connect, [.removeAddr addr keys], [])
    else some (.connect, [.refill addr keys (.fallback n)], [])
  | .refill addr keys (.fallback 0), .go => some (.read, [.removeAddr addr keys], [])
  | .removeAddr addr keys, .go =>
    if keys = ∅ then some (.removeAddr addr, [], [])
    else some (.removeAddr addr, [.removeKeys keys], [])
  | .removeKeys keys, .go => some (.removeKeys keys, [], [])
  | _, _ => none

def effect (op : Op) (s : RefillPool) : RefillPool :=
  match op with
  | .setMap family map => s.setMap family map
  | .insertAddr addr => { s with refillInflight := insert addr s.refillInflight }
  | .insertKeys keys => { s with refillInflightDc := keys ∪ s.refillInflightDc }
  | .removeAddr addr => { s with refillInflight := s.refillInflight.erase addr }
  | .removeKeys keys => { s with refillInflightDc := s.refillInflightDc \ keys }
  | .trigger _ | .read | .connect | .skip _ => s

def refillProgram (settings : Settings) : Program RefillPool Frame Op Answer := ⟨exec settings, effect⟩

/-- No refill is under way. Any task may trigger one, and the maps may be updated. -/
def start (mapV4 mapV6 : ProxyMap) : Config RefillPool Frame Op :=
  ⟨⟨mapV4, mapV6, ∅, ∅⟩, [[.caller], [.mapUpdate]], []⟩

/-! ### What the tasks hold -/

/-- The address a task has put into `refill_inflight`. -/
def Frame.addrs : Frame → Multiset SocketAddr
  | .insertKeys addr _ | .rollBack addr | .refill addr _ _ | .removeAddr addr _ => {addr}
  | .caller | .mapUpdate | .endpointsV4 _ | .endpointsV6 _ _ | .resolve _ _ _ | .insertAddr _ _
  | .removeKeys _ => 0

/-- The keys of a task that has passed the second gate. -/
def Frame.keys : Frame → Multiset RefillDcKey
  | .refill _ keys _ | .removeAddr _ keys | .removeKeys keys => keys.val
  | .caller | .mapUpdate | .endpointsV4 _ | .endpointsV6 _ _ | .resolve _ _ _ | .insertAddr _ _
  | .insertKeys _ _ | .rollBack _ => 0

/-- Both sets are what the tasks hold, each address and each key once. -/
structure Accounted (s : RefillPool) (frames : Multiset Frame) : Prop where
  addrs : s.refillInflight.val = holdings Frame.addrs frames
  keys : s.refillInflightDc.val = holdings Frame.keys frames

section
variable {settings : Settings} {s : RefillPool} {f : Frame} {a : Answer} {op : Op} {fs : List Frame}
  {spawned : List (List Frame)} {R : Multiset Frame}

@[simp] theorem setMap_refillInflight (family : IpFamily) (map : ProxyMap) :
    (s.setMap family map).refillInflight = s.refillInflight := by cases family <;> rfl

@[simp] theorem setMap_refillInflightDc (family : IpFamily) (map : ProxyMap) :
    (s.setMap family map).refillInflightDc = s.refillInflightDc := by cases family <;> rfl

theorem addrs_of_exec (hexec : exec settings s f a = some (op, fs, spawned))
    (h : s.refillInflight.val = holdings Frame.addrs (f ::ₘ R)) :
    (effect op s).refillInflight.val =
      holdings Frame.addrs ((fs ++ spawned.flatten : List Frame) + R) := by
  revert hexec
  rw [holdings_cons] at h
  fun_cases exec settings s f a with
  | case10 addr hnew =>
    rintro ⟨⟩
    have hR : s.refillInflight.val = holdings Frame.addrs R := by simpa [Frame.addrs] using h
    exact (insert_val_of_held hR hnew).trans (by simp [Frame.addrs])
  | case11 addr keys hnew hkeys =>
    rintro ⟨⟩
    have hR : s.refillInflight.val = holdings Frame.addrs R := by simpa [Frame.addrs] using h
    exact (insert_val_of_held hR hnew).trans (by simp [Frame.addrs])
  | case14 addr =>
    rintro ⟨⟩
    exact (erase_val_of_held h).trans (by simp)
  | case25 addr =>
    rintro ⟨⟩
    exact (erase_val_of_held h).trans (by simp)
  | case26 addr keys hkeys =>
    rintro ⟨⟩
    exact (erase_val_of_held h).trans (by simp [Frame.addrs])
  | case6 => rintro ⟨⟩
  | case8 => rintro ⟨⟩
  | case28 => rintro ⟨⟩
  -- the other steps hold the same address before and after
  | _ =>
    rintro ⟨⟩
    simpa [effect, Frame.addrs] using h

theorem keys_of_exec (hexec : exec settings s f a = some (op, fs, spawned))
    (h : s.refillInflightDc.val = holdings Frame.keys (f ::ₘ R)) :
    (effect op s).refillInflightDc.val =
      holdings Frame.keys ((fs ++ spawned.flatten : List Frame) + R) := by
  revert hexec
  rw [holdings_cons] at h
  fun_cases exec settings s f a with
  | case12 addr keys hfree =>
    rintro ⟨⟩
    have hR : s.refillInflightDc.val = holdings Frame.keys R := by simpa [Frame.keys] using h
    exact (union_val_of_held hR hfree).trans (by simp [Frame.keys])
  | case27 keys =>
    rintro ⟨⟩
    exact (sdiff_val_of_held h).trans (by simp)
  | case6 => rintro ⟨⟩
  | case8 => rintro ⟨⟩
  | case28 => rintro ⟨⟩
  -- the other steps hold the same keys before and after
  | _ =>
    rintro ⟨⟩
    simpa [effect, Frame.keys] using h

theorem accounted_of_run {mapV4 mapV6 : ProxyMap} (ls : List (ℕ × Answer))
    {c : Config RefillPool Frame Op}
    (hrun : run (refillProgram settings).step (start mapV4 mapV6) ls = some c) :
    Accounted c.shared c.frames := by
  have hstart : Accounted (start mapV4 mapV6).shared (start mapV4 mapV6).frames := ⟨rfl, rfl⟩
  refine Program.interleave_invariant (I := fun s _ frames => Accounted s frames) ?_ ls hstart
    (Program.meets_true ls _) hrun
  intro c f R a op fs spawned hI hexec _
  exact ⟨addrs_of_exec hexec hI.addrs, keys_of_exec hexec hI.keys⟩

end

/-! ### One refill at a time -/

def Frame.refillsAddr (addr : SocketAddr) : Frame → Bool
  | .refill a _ _ => a = addr
  | _ => false

def Frame.refillsKey (key : RefillDcKey) : Frame → Bool
  | .refill _ keys _ => key ∈ keys
  | _ => false

/-- Only the tasks that trigger refills and update the maps are left. -/
def Frame.idle : Frame → Bool
  | .caller | .mapUpdate => true
  | _ => false

/-- At most one task runs `refill_writer_after_loss` for an address or a DC group, the set of groups is
    the disjoint union of what the tasks behind the gate hold, and nothing is left over. -/
structure SingleRefill (s : RefillPool) (frames : Multiset Frame) : Prop where
  addr : ∀ addr, frames.countP (Frame.refillsAddr addr · = true) ≤ 1
  key : ∀ key, frames.countP (Frame.refillsKey key · = true) ≤ 1
  union : s.refillInflightDc.val = holdings Frame.keys frames
  finished : (∀ f ∈ frames, f.idle = true) → s.refillInflight = ∅ ∧ s.refillInflightDc = ∅

theorem single_refill (settings : Settings) (mapV4 mapV6 : ProxyMap) (ls : List (ℕ × Answer))
    {c : Config RefillPool Frame Op}
    (hrun : run (refillProgram settings).step (start mapV4 mapV6) ls = some c) :
    SingleRefill c.shared c.frames := by
  have h := accounted_of_run ls hrun
  refine ⟨fun addr => ?_, fun key => ?_, h.keys, fun hidle => ?_⟩
  · refine countP_le_one_of_held (k := addr) (fun f hf => ?_) h.addrs
    cases f with
    | refill a keys phase =>
      obtain rfl : a = addr := by simpa [Frame.refillsAddr] using hf
      exact Multiset.mem_singleton_self a
    | _ => simp [Frame.refillsAddr] at hf
  · refine countP_le_one_of_held (k := key) (fun f hf => ?_) h.keys
    cases f with
    | refill a keys phase => exact of_decide_eq_true hf
    | _ => simp [Frame.refillsKey] at hf
  · have hnone : ∀ f ∈ c.frames, f.addrs = 0 ∧ f.keys = 0 := by
      intro f hf
      have hfi := hidle f hf
      cases f <;> simp_all [Frame.idle, Frame.addrs, Frame.keys]
    constructor
    · exact Finset.val_eq_zero.mp (h.addrs.trans (holdings_eq_zero fun f hf => (hnone f hf).1))
    · exact Finset.val_eq_zero.mp (h.keys.trans (holdings_eq_zero fun f hf => (hnone f hf).2))

/-- Two endpoints of one group lose a writer: the second task finds the group taken, and takes its own
    address back. -/
theorem single_refill_two_endpoints :
    let a : SocketAddr := ⟨.v4 ⟨[10, 0, 0, 1], rfl⟩, 443⟩
    let b : SocketAddr := ⟨.v4 ⟨[10, 0, 0, 2], rfl⟩, 443⟩
    let resolved := fun i => [(i, .go), (i, .go), (i, .endpoint a), (i, .endpoint b), (i, .go)]
    let ls := [(0, .trigger a), (0, .trigger b)] ++ resolved 2 ++ resolved 3 ++
      [(2, .go), (3, .go), (2, .go), (3, .go), (3, .go)]
    ∃ c, run (refillProgram ⟨true, true, 1⟩).step (start [(2, [a, b])] []) ls = some c ∧
      c.shared.refillInflight = {a} ∧ c.shared.refillInflightDc = {⟨2, .v4⟩} ∧
      SingleRefill c.shared c.frames := by
  intro a b resolved ls
  have heval : (run (refillProgram ⟨true, true, 1⟩).step (start [(2, [a, b])] []) ls).map (fun c =>
      (c.shared.refillInflight, c.shared.refillInflightDc)) = some ({a}, {⟨2, .v4⟩}) := by
    decide +kernel
  obtain ⟨c, hrun, hc⟩ := Option.map_eq_some_iff.mp heval
  obtain ⟨haddrs, hkeys⟩ := Prod.mk.inj hc
  exact ⟨c, hrun, haddrs, hkeys, single_refill _ _ _ ls hrun⟩

end MtProxy.MiddleProxy.Refill
