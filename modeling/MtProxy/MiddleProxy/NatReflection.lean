import MtProxy.MiddleProxy.Selection
import MtProxy.Schemes.Ballot
import MtProxy.Schemes.Run
import Mathlib.Data.List.Sort
import Mathlib.Data.List.Destutter
import Mathlib.Data.String.Basic

/-! `maybe_reflect_public_addr`: the address under which the outside sees us, by asking STUN servers, all at
    once, and going by the majority.

        backoff? ─yes─▶ what the cache has, however old
           │no
        cache younger than 600 s? ─yes─▶ that
           │no
        ask the live servers, or else all ─▶ nobody? ask all ─▶ majority ─▶ cache
                                                        └─────▶ nobody ──▶ back off

    The cache has a slot for each family, the backoff is one for both. A lock that is taken counts as an
    empty cache. Calls from a bound address go past cache and backoff; it is of the family that is asked
    for, as the one caller takes it, and the source returns nothing for any other. -/

namespace MtProxy.MiddleProxy.NatReflection
open Schemes

/-- In milliseconds. -/
def stunCacheTtl : ℕ := 600 * 1000

structure Settings where
  configuredServers : List String
  natProbeConcurrency : ℕ

def Settings.concurrency (cfg : Settings) : ℕ := max cfg.natProbeConcurrency 1

/-- A batch of probes that is over. -/
structure Batch where
  servers : List String
  answers : List (String × Option SocketAddr)
  deriving DecidableEq

/-- A batch that gave an address, for a family and at a time. -/
structure Won where
  family : IpFamily
  batch : Batch
  addr : SocketAddr
  time : ℕ
  deriving DecidableEq

/-- `won` is what the batches have given so far. -/
structure Shared where
  liveServers : List String
  probeAttempts : UInt8
  backoffUntil : Option ℕ
  cache : IpFamily → Option (ℕ × SocketAddr)
  now : ℕ
  won : List Won

inductive Source where
  | backoff
  | cached (ts : ℕ)
  | probed
  deriving DecidableEq

inductive Phase where
  | checkBackoff
  | stale
  | fresh
  | count
  | servers (attempt : UInt8)
  | probing (attempt : UInt8) (servers : List String) (again : Bool) (ballot : Ballot String SocketAddr)
  | live (attempt : UInt8) (liveServers : List String) (selected : Option SocketAddr)
  | clear (addr : SocketAddr)
  | store (addr : SocketAddr)
  | backOff (attempt : UInt8)
  | returned (result : Option SocketAddr) (source : Source) (time : ℕ)

/-- A call; `useShared` says that it comes from no bound address. -/
structure Call where
  family : IpFamily
  useShared : Bool
  phase : Phase
  batches : List Batch

structure State where
  shared : Shared
  calls : List Call

def State.new : State := ⟨⟨[], 0, none, fun _ => none, 0, []⟩, []⟩

/-- What a lock or a server answers, and the order in which the tally is gone through. -/
inductive Answer where
  | go
  | locked (ok : Bool)
  | server (i : ℕ) (reflected : Option SocketAddr)
  | tallied (order : List (Ballot.Entry IpAddr SocketAddr))

/-- `sort_unstable` and `dedup`. -/
def sortDedup (servers : List String) : List String :=
  (servers.insertionSort (· ≤ ·)).destutter (· ≠ ·)

/-- The votes of a batch, by their IP. -/
def tally (answers : List (String × Option SocketAddr)) : List (Ballot.Entry IpAddr SocketAddr) :=
  Ballot.tally (·.ip) (answers.filterMap (·.2))

section
variable (cfg : Settings)

def beginBatch (attempt : UInt8) (servers : List String) (again : Bool) : Phase :=
  .probing attempt servers again (Ballot.start cfg.concurrency servers)

/-- After the last answer of a batch; the second batch, if there is one, is over all servers. -/
def endBatch (s : Shared) (c : Call) (attempt : UInt8) (servers : List String) (again : Bool)
    (answers : List (String × Option SocketAddr)) (order : List (Ballot.Entry IpAddr SocketAddr)) :
    Shared × Call :=
  let batch : Batch := ⟨servers, answers⟩
  let liveServers := sortDedup ((answers.filter (·.2.isSome)).map (·.1))
  let c := { c with batches := batch :: c.batches }
  match (Ballot.maxByCount order).map (·.first) with
  | some addr =>
    ({ s with won := ⟨c.family, batch, addr, s.now⟩ :: s.won },
      { c with phase := .live attempt liveServers (some addr) })
  | none =>
    if ¬ again ∧ cfg.configuredServers ≠ [] ∧ servers ≠ cfg.configuredServers then
      (s, { c with phase := beginBatch cfg attempt cfg.configuredServers true })
    else (s, { c with phase := .live attempt liveServers none })

def Call.return (c : Call) (result : Option SocketAddr) (source : Source) (now : ℕ) : Call :=
  { c with phase := .returned result source now }

/-- `maybe_reflect_public_addr` and `probe_stun_batch_for_family`, from one access to what is shared to
    the next. -/
def callStep (s : Shared) (c : Call) : Answer → Option (Shared × Call)
  | .go =>
    match c.phase with
    | .checkBackoff =>
      let inBackoff := match s.backoffUntil with
        | some until_ => decide (s.now < until_)
        | none => false
      some (s, { c with
        phase := if c.useShared then (if inBackoff then .stale else .fresh) else .servers 0 })
    | .count =>
      some ({ s with probeAttempts := s.probeAttempts + 1 }, { c with phase := .servers s.probeAttempts })
    | .servers attempt =>
      let primaryServers := if s.liveServers.isEmpty then cfg.configuredServers else s.liveServers
      some (s, { c with phase := beginBatch cfg attempt primaryServers false })
    | .live attempt liveServers selected =>
      let s' := { s with liveServers := liveServers }
      match selected with
      | some addr =>
        if c.useShared then some (s', { c with phase := .clear addr })
        else some (s', c.return (some addr) .probed s.now)
      | none =>
        if c.useShared then some (s', { c with phase := .backOff attempt })
        else some (s', c.return none .probed s.now)
    | .clear addr => some ({ s with probeAttempts := 0 }, { c with phase := .store addr })
    | .backOff attempt =>
      let backoff := 60 * 2 ^ min attempt.toNat 6 * 1000
      some ({ s with backoffUntil := some (s.now + backoff) }, c.return none .probed s.now)
    | _ => none
  | .locked ok =>
    match c.phase with
    | .stale =>
      some (s, c.return (if ok then (s.cache c.family).map (·.2) else none) .backoff s.now)
    | .fresh =>
      match s.cache c.family with
      | some (ts, addr) =>
        if ok ∧ s.now - ts < stunCacheTtl then some (s, c.return (some addr) (.cached ts) s.now)
        else some (s, { c with phase := .count })
      | none => some (s, { c with phase := .count })
    | .store addr =>
      some (if ok then { s with cache := Function.update s.cache c.family (some (s.now, addr)) } else s,
        c.return (some addr) .probed s.now)
    | _ => none
  | .server i reflected =>
    match c.phase with
    | .probing attempt servers again ballot =>
      (ballot.step cfg.concurrency (i, reflected)).map fun ballot =>
        (s, { c with phase := .probing attempt servers again ballot })
    | _ => none
  | .tallied order =>
    match c.phase with
    | .probing attempt servers again ballot =>
      if ballot.asked = [] ∧ order.Perm (tally ballot.answers) then
        some (endBatch cfg s c attempt servers again ballot.answers order)
      else none
    | _ => none

/-- `reset` is `reset_stun_state`, which may find the live servers locked. -/
inductive Event where
  | tick (d : ℕ)
  | call (family : IpFamily) (useShared : Bool)
  | act (i : ℕ) (a : Answer)
  | reset (ok : Bool)

def step (s : State) : Event → Option State
  | .tick d => some { s with shared.now := s.shared.now + d }
  | .call family useShared => some { s with calls := s.calls ++ [⟨family, useShared, .checkBackoff, []⟩] }
  | .act i a =>
    match s.calls[i]? with
    | some c => (callStep cfg s.shared c a).map fun x => ⟨x.1, s.calls.set i x.2⟩
    | none => none
  | .reset ok =>
    some { s with
      shared.probeAttempts := 0
      shared.liveServers := if ok then [] else s.shared.liveServers }

end

/-! ### Where an address comes from -/

def Batch.votes (b : Batch) : List SocketAddr := b.answers.filterMap (·.2)

/-- Every server has answered once. -/
def Batch.Complete (b : Batch) : Prop := (b.answers.map (·.1)).Perm b.servers

/-- No IP has more votes, and of its votes this one came first. -/
def Winner (votes : List SocketAddr) (addr : SocketAddr) : Prop :=
  votes.find? (fun a => a.ip = addr.ip) = some addr ∧
    ∀ ip, votes.countP (fun a => a.ip = ip) ≤ votes.countP (fun a => a.ip = addr.ip)

structure Shared.Sound (s : Shared) : Prop where
  won : ∀ w ∈ s.won, w.batch.Complete ∧ Winner w.batch.votes w.addr ∧ w.time ≤ s.now
  cache : ∀ f ts addr, s.cache f = some (ts, addr) →
    ts ≤ s.now ∧ ∃ w ∈ s.won, w.family = f ∧ w.addr = addr ∧ w.time ≤ ts
  backoff : ∀ until_ ∈ s.backoffUntil, until_ ≤ s.now + 60 * 64 * 1000

/-- No batch of the call has given an address, and all servers have been asked. -/
def NoAnswer (cfg : Settings) (c : Call) : Prop :=
  (∀ b ∈ c.batches, b.votes = []) ∧
    (cfg.configuredServers ≠ [] → ∃ b ∈ c.batches, b.servers = cfg.configuredServers)

/-- A batch has given the address to this call. -/
def Given (s : Shared) (c : Call) (addr : SocketAddr) : Prop :=
  ∃ w ∈ s.won, w.family = c.family ∧ w.addr = addr ∧ w.time ≤ s.now ∧ w.batch ∈ c.batches

/-- How a result came about. -/
def Explained (cfg : Settings) (s : Shared) (c : Call) : Option SocketAddr → Source → ℕ → Prop
  | some addr, source, time =>
    ∃ w ∈ s.won, w.family = c.family ∧ w.addr = addr ∧ w.time ≤ time ∧
      (∀ ts, source = .cached ts → w.time ≤ ts ∧ ts ≤ time ∧ time - ts < stunCacheTtl) ∧
      (source = .probed → w.batch ∈ c.batches)
  | none, source, _ => source = .backoff ∨ NoAnswer cfg c

structure CallSound (cfg : Settings) (s : Shared) (c : Call) : Prop where
  complete : ∀ b ∈ c.batches, b.Complete
  phase : match c.phase with
    | .probing _ servers again ballot => Ballot.Fair cfg.concurrency servers ballot ∧
        (∀ b ∈ c.batches, b.votes = []) ∧ (again = true → servers = cfg.configuredServers) ∧
        (again = false → c.batches = [])
    | .live _ _ (some addr) => Given s c addr
    | .clear addr => Given s c addr
    | .store addr => Given s c addr
    | .live _ _ none => NoAnswer cfg c
    | .backOff _ => NoAnswer cfg c
    | .returned result source time => Explained cfg s c result source time
    | _ => c.batches = []

section
variable {cfg : Settings} {s s' : Shared} {c c' : Call} {addr : SocketAddr}

theorem Given.mono (h : Given s c addr) (hwon : ∀ w ∈ s.won, w ∈ s'.won) (hnow : s.now ≤ s'.now) :
    Given s' c addr := by
  obtain ⟨w, hw, hfamily, haddr, htime, hbatch⟩ := h
  exact ⟨w, hwon w hw, hfamily, haddr, htime.trans hnow, hbatch⟩

theorem Explained.mono {result : Option SocketAddr} {source : Source} {time : ℕ}
    (h : Explained cfg s c result source time) (hwon : ∀ w ∈ s.won, w ∈ s'.won) :
    Explained cfg s' c result source time := by
  cases result with
  | none => exact h
  | some addr =>
    obtain ⟨w, hw, hrest⟩ := h
    exact ⟨w, hwon w hw, hrest⟩

/-- Whatever others do, what a call has is as it was. -/
theorem CallSound.mono (h : CallSound cfg s c) (hwon : ∀ w ∈ s.won, w ∈ s'.won)
    (hnow : s.now ≤ s'.now) : CallSound cfg s' c := by
  refine ⟨h.complete, ?_⟩
  have hphase := h.phase
  split at hphase
  · exact hphase
  · exact hphase.mono hwon hnow
  · exact hphase.mono hwon hnow
  · exact hphase.mono hwon hnow
  · exact hphase
  · exact hphase
  · exact hphase.mono hwon
  · exact hphase

/-- The winner of a complete ballot. -/
theorem winner_of_order {answers : List (String × Option SocketAddr)}
    {order : List (Ballot.Entry IpAddr SocketAddr)} (horder : order.Perm (tally answers)) :
    (∀ addr, (Ballot.maxByCount order).map (·.first) = some addr →
        Winner (answers.filterMap (·.2)) addr) ∧
      ((Ballot.maxByCount order).map (·.first) = none → answers.filterMap (·.2) = []) := by
  obtain ⟨hnone, hsome⟩ := Ballot.winner_spec horder
  refine ⟨fun addr haddr => ?_, fun h => hnone.mp (Option.map_eq_none_iff.mp h)⟩
  obtain ⟨e, he, rfl⟩ := Option.map_eq_some_iff.mp haddr
  obtain ⟨hfirst, hcount⟩ := hsome e he
  have hip : e.first.ip = e.key := by simpa using List.find?_some hfirst
  rw [Winner, hip]
  exact ⟨hfirst, hcount⟩

theorem CallSound.beginBatch (h : ∀ b ∈ c.batches, b.Complete) (hempty : ∀ b ∈ c.batches, b.votes = [])
    (attempt : UInt8) {servers : List String} {again : Bool}
    (hagain : again = true → servers = cfg.configuredServers) (hfirst : again = false → c.batches = []) :
    CallSound cfg s { c with phase := beginBatch cfg attempt servers again } :=
  ⟨h, Ballot.start_fair (Nat.lt_of_lt_of_le Nat.one_pos (le_max_right _ _)) servers, hempty, hagain, hfirst⟩

/-- What a step of a call keeps: everything that others go by, and the call itself. -/
structure Kept (cfg : Settings) (s s' : Shared) (c' : Call) : Prop where
  sound : s'.Sound
  won : ∀ w ∈ s.won, w ∈ s'.won
  now : s'.now = s.now
  call : CallSound cfg s' c'

theorem Kept.same (hs : s.Sound) (hc : CallSound cfg s c') : Kept cfg s s c' :=
  ⟨hs, fun _ hw => hw, rfl, hc⟩

theorem endBatch_kept {attempt : UInt8} {servers : List String} {again : Bool}
    {ballot : Ballot String SocketAddr} {order : List (Ballot.Entry IpAddr SocketAddr)} (hs : s.Sound)
    (hcomplete : ∀ b ∈ c.batches, b.Complete) (hfair : Ballot.Fair cfg.concurrency servers ballot)
    (hempty : ∀ b ∈ c.batches, b.votes = []) (hagain : again = true → servers = cfg.configuredServers)
    (hdone : ballot.asked = []) (horder : order.Perm (tally ballot.answers))
    (hend : endBatch cfg s c attempt servers again ballot.answers order = (s', c')) :
    Kept cfg s s' c' := by
  obtain ⟨hwins, hnone⟩ := winner_of_order horder
  have hbatch : (⟨servers, ballot.answers⟩ : Batch).Complete := hfair.all_answered hdone
  have hcomplete' : ∀ b ∈ (⟨servers, ballot.answers⟩ : Batch) :: c.batches, b.Complete :=
    List.forall_mem_cons.mpr ⟨hbatch, hcomplete⟩
  unfold endBatch at hend
  dsimp only at hend
  split at hend
  · rename_i addr haddr
    obtain ⟨rfl, rfl⟩ := Prod.mk.inj hend
    refine ⟨⟨List.forall_mem_cons.mpr ⟨⟨hbatch, hwins addr haddr, le_refl _⟩, hs.won⟩, ?_, hs.backoff⟩,
      fun w hw => List.mem_cons_of_mem _ hw, rfl, hcomplete', ?_⟩
    · intro f ts a hcache
      obtain ⟨hts, w, hw, hrest⟩ := hs.cache f ts a hcache
      exact ⟨hts, w, List.mem_cons_of_mem _ hw, hrest⟩
    · exact ⟨_, List.mem_cons_self, rfl, rfl, le_refl _, List.mem_cons_self⟩
  · rename_i haddr
    have hempty' : ∀ b ∈ (⟨servers, ballot.answers⟩ : Batch) :: c.batches, b.votes = [] :=
      List.forall_mem_cons.mpr ⟨hnone haddr, hempty⟩
    split_ifs at hend with hretry
    · obtain ⟨rfl, rfl⟩ := Prod.mk.inj hend
      exact .same hs (CallSound.beginBatch (c := { c with batches := _ }) hcomplete' hempty' attempt
        (fun _ => rfl) (fun h => absurd h (by simp)))
    · obtain ⟨rfl, rfl⟩ := Prod.mk.inj hend
      refine .same hs ⟨hcomplete', hempty', fun hconf => ⟨_, List.mem_cons_self, ?_⟩⟩
      -- a batch that is not followed by another was over all servers
      by_cases ha : again = true
      · exact hagain ha
      · by_contra hne
        exact hretry ⟨ha, hconf, hne⟩

theorem go_kept (hs : s.Sound) (hc : CallSound cfg s c)
    (hstep : callStep cfg s c .go = some (s', c')) : Kept cfg s s' c' := by
  obtain ⟨hcomplete, hphase⟩ := hc
  simp only [callStep] at hstep
  split at hstep
  case h_1 hp =>
    rw [hp] at hphase
    obtain ⟨rfl, rfl⟩ := Prod.mk.inj (Option.some.inj hstep)
    refine .same hs ⟨hcomplete, ?_⟩
    split_ifs
    · exact hphase
    · exact hphase
    · exact hphase
  case h_2 hp =>
    rw [hp] at hphase
    obtain ⟨rfl, rfl⟩ := Prod.mk.inj (Option.some.inj hstep)
    exact ⟨⟨hs.won, hs.cache, hs.backoff⟩, fun _ hw => hw, rfl, hcomplete, hphase⟩
  case h_3 attempt hp =>
    rw [hp] at hphase
    obtain ⟨rfl, rfl⟩ := Prod.mk.inj (Option.some.inj hstep)
    exact .same hs (.beginBatch hcomplete (by simp [hphase]) attempt (fun h => absurd h (by simp))
      (fun _ => hphase))
  case h_4 attempt liveServers selected hp =>
    rw [hp] at hphase
    have hs' : Shared.Sound { s with liveServers := liveServers } := ⟨hs.won, hs.cache, hs.backoff⟩
    cases selected with
    | some addr =>
      dsimp only at hstep
      split_ifs at hstep
      · obtain ⟨rfl, rfl⟩ := Prod.mk.inj (Option.some.inj hstep)
        exact ⟨hs', fun _ hw => hw, rfl, hcomplete, hphase⟩
      · obtain ⟨rfl, rfl⟩ := Prod.mk.inj (Option.some.inj hstep)
        obtain ⟨w, hw, hfamily, haddr, htime, hbatch⟩ := hphase
        exact ⟨hs', fun _ hw => hw, rfl, hcomplete, w, hw, hfamily, haddr, htime,
          fun ts h => absurd h (by simp), fun _ => hbatch⟩
    | none =>
      dsimp only at hstep
      split_ifs at hstep
      · obtain ⟨rfl, rfl⟩ := Prod.mk.inj (Option.some.inj hstep)
        exact ⟨hs', fun _ hw => hw, rfl, hcomplete, hphase⟩
      · obtain ⟨rfl, rfl⟩ := Prod.mk.inj (Option.some.inj hstep)
        exact ⟨hs', fun _ hw => hw, rfl, hcomplete, .inr hphase⟩
  case h_5 addr hp =>
    rw [hp] at hphase
    obtain ⟨rfl, rfl⟩ := Prod.mk.inj (Option.some.inj hstep)
    exact ⟨⟨hs.won, hs.cache, hs.backoff⟩, fun _ hw => hw, rfl, hcomplete, hphase⟩
  case h_6 attempt hp =>
    rw [hp] at hphase
    obtain ⟨rfl, rfl⟩ := Prod.mk.inj (Option.some.inj hstep)
    refine ⟨⟨hs.won, hs.cache, fun until_ h => ?_⟩, fun _ hw => hw, rfl, hcomplete, .inr hphase⟩
    obtain rfl := Option.some.inj h
    have hpow : 2 ^ min attempt.toNat 6 ≤ 2 ^ 6 := Nat.pow_le_pow_right (by decide) (Nat.min_le_right _ _)
    change s.now + 60 * 2 ^ min attempt.toNat 6 * 1000 ≤ s.now + 60 * 64 * 1000
    omega
  case h_7 => cases hstep

theorem locked_kept {ok : Bool} (hs : s.Sound) (hc : CallSound cfg s c)
    (hstep : callStep cfg s c (.locked ok) = some (s', c')) : Kept cfg s s' c' := by
  obtain ⟨hcomplete, hphase⟩ := hc
  simp only [callStep] at hstep
  split at hstep
  case h_1 hp =>
    obtain ⟨rfl, rfl⟩ := Prod.mk.inj (Option.some.inj hstep)
    refine .same hs ⟨hcomplete, ?_⟩
    change Explained cfg s c (if ok then (s.cache c.family).map (·.2) else none) .backoff s.now
    cases hresult : (if ok then (s.cache c.family).map (·.2) else none) with
    | none => exact .inl rfl
    | some addr =>
      split_ifs at hresult
      obtain ⟨⟨ts, a⟩, hcache, rfl⟩ := Option.map_eq_some_iff.mp hresult
      obtain ⟨hts, w, hw, hfamily, haddr, htime⟩ := hs.cache _ _ _ hcache
      exact ⟨w, hw, hfamily, haddr, htime.trans hts, fun ts h => absurd h (by simp),
        fun h => absurd h (by simp)⟩
  case h_2 hp =>
    rw [hp] at hphase
    split at hstep
    · rename_i ts addr hcache
      obtain ⟨hts, w, hw, hfamily, haddr, htime⟩ := hs.cache _ _ _ hcache
      split_ifs at hstep with hfresh
      · obtain ⟨rfl, rfl⟩ := Prod.mk.inj (Option.some.inj hstep)
        refine .same hs ⟨hcomplete, w, hw, hfamily, haddr, htime.trans hts, fun ts' h => ?_,
          fun h => absurd h (by simp)⟩
        obtain rfl : ts = ts' := by simpa using h
        exact ⟨htime, hts, hfresh.2⟩
      · obtain ⟨rfl, rfl⟩ := Prod.mk.inj (Option.some.inj hstep)
        exact .same hs ⟨hcomplete, hphase⟩
    · obtain ⟨rfl, rfl⟩ := Prod.mk.inj (Option.some.inj hstep)
      exact .same hs ⟨hcomplete, hphase⟩
  case h_3 addr hp =>
    rw [hp] at hphase
    obtain ⟨rfl, rfl⟩ := Prod.mk.inj (Option.some.inj hstep)
    obtain ⟨w, hw, hfamily, haddr, htime, hbatch⟩ := hphase
    have hcall : ∀ s₁ : Shared, s₁.won = s.won → CallSound cfg s₁ (c.return (some addr) .probed s.now) :=
      fun s₁ hwon => ⟨hcomplete, w, hwon ▸ hw, hfamily, haddr, htime, fun ts h => absurd h (by simp),
        fun _ => hbatch⟩
    split
    · refine ⟨⟨hs.won, fun f ts a hcache => ?_, hs.backoff⟩, fun _ hw => hw, rfl, hcall _ rfl⟩
      change Function.update s.cache c.family (some (s.now, addr)) f = some (ts, a) at hcache
      by_cases hf : f = c.family
      · subst hf
        rw [Function.update_self] at hcache
        obtain ⟨rfl, rfl⟩ := Prod.mk.inj (Option.some.inj hcache)
        exact ⟨le_refl _, w, hw, hfamily, haddr, htime⟩
      · rw [Function.update_of_ne hf] at hcache
        exact hs.cache f ts a hcache
    · exact .same hs (hcall s rfl)
  case h_4 => cases hstep

theorem callStep_kept {a : Answer} (hs : s.Sound) (hc : CallSound cfg s c)
    (hstep : callStep cfg s c a = some (s', c')) : Kept cfg s s' c' := by
  cases a with
  | go => exact go_kept hs hc hstep
  | locked ok => exact locked_kept hs hc hstep
  | server i reflected =>
    simp only [callStep] at hstep
    split at hstep
    · rename_i attempt servers again ballot hp
      obtain ⟨hcomplete, hphase⟩ := hc
      rw [hp] at hphase
      obtain ⟨hfair, hrest⟩ := hphase
      obtain ⟨ballot', hballot, heq⟩ := Option.map_eq_some_iff.mp hstep
      obtain ⟨rfl, rfl⟩ := Prod.mk.inj heq
      have hpos : 0 < cfg.concurrency := Nat.lt_of_lt_of_le Nat.one_pos (le_max_right _ _)
      exact .same hs ⟨hcomplete, Ballot.step_fair hpos hfair hballot, hrest⟩
    · cases hstep
  | tallied order =>
    simp only [callStep] at hstep
    split at hstep
    · rename_i attempt servers again ballot hp
      obtain ⟨hcomplete, hphase⟩ := hc
      rw [hp] at hphase
      obtain ⟨hfair, hempty, hagain, -⟩ := hphase
      split_ifs at hstep with hdone
      exact endBatch_kept hs hcomplete hfair hempty hagain hdone.1 hdone.2 (Option.some.inj hstep)
    · cases hstep

end

structure Inv (cfg : Settings) (s : State) : Prop where
  shared : s.shared.Sound
  calls : ∀ c ∈ s.calls, CallSound cfg s.shared c

theorem Inv.step {cfg : Settings} {s s' : State} {e : Event} (h : Inv cfg s)
    (hstep : step cfg s e = some s') : Inv cfg s' := by
  obtain ⟨hshared, hcalls⟩ := h
  cases e with
  | tick d =>
    obtain rfl := Option.some.inj hstep
    have hnow : s.shared.now ≤ s.shared.now + d := Nat.le_add_right _ _
    refine ⟨⟨fun w hw => ?_, fun f ts addr hcache => ?_, fun until_ h => ?_⟩,
      fun c hc => (hcalls c hc).mono (fun _ hw => hw) hnow⟩
    · obtain ⟨hcomplete, hwins, htime⟩ := hshared.won w hw
      exact ⟨hcomplete, hwins, htime.trans hnow⟩
    · obtain ⟨hts, hrest⟩ := hshared.cache f ts addr hcache
      exact ⟨hts.trans hnow, hrest⟩
    · exact (hshared.backoff until_ h).trans (Nat.add_le_add_right hnow _)
  | call family useShared =>
    obtain rfl := Option.some.inj hstep
    refine ⟨hshared, fun c hc => ?_⟩
    rcases List.mem_append.mp hc with hc | hc
    · exact hcalls c hc
    · obtain rfl := List.mem_singleton.mp hc
      exact ⟨by simp, rfl⟩
  | act i a =>
    simp only [NatReflection.step] at hstep
    split at hstep
    · rename_i c hc
      obtain ⟨⟨shared', c'⟩, hcall, rfl⟩ := Option.map_eq_some_iff.mp hstep
      obtain ⟨hsound, hwon, hnow, hcall'⟩ :=
        callStep_kept hshared (hcalls c (List.mem_of_getElem? hc)) hcall
      refine ⟨hsound, fun c₁ hc₁ => ?_⟩
      rcases List.mem_or_eq_of_mem_set hc₁ with hc₁ | rfl
      · exact (hcalls c₁ hc₁).mono hwon hnow.ge
      · exact hcall'
    · cases hstep
  | reset ok =>
    obtain rfl := Option.some.inj hstep
    exact ⟨⟨hshared.won, hshared.cache, hshared.backoff⟩,
      fun c hc => (hcalls c hc).mono (fun _ hw => hw) (le_refl _)⟩

def threeServers : Settings := ⟨["s1", "s2", "s3"], 2⟩

/-- What two of the servers reflect, and what the third one does. -/
def agreed : SocketAddr := ⟨.v4 ⟨[203, 0, 113, 1], rfl⟩, 4000⟩
def stray : SocketAddr := ⟨.v4 ⟨[203, 0, 113, 2], rfl⟩, 4000⟩

/-- A first call finds nothing cached and asks, a second one comes a minute later. -/
def twoCalls : List Event :=
  [.call .v4 true, .act 0 .go, .act 0 (.locked true), .act 0 .go, .act 0 .go,
    .act 0 (.server 1 (some stray)), .act 0 (.server 1 (some agreed)),
    .act 0 (.server 0 (some agreed)),
    .act 0 (.tallied [⟨stray.ip, 1, stray⟩, ⟨agreed.ip, 2, agreed⟩]), .act 0 .go, .act 0 .go,
    .act 0 (.locked true), .tick 60000, .call .v4 true, .act 1 .go, .act 1 (.locked true)]

end MtProxy.MiddleProxy.NatReflection
