import MtProxy.Config.Types
import MtProxy.IpTracker
import MtProxy.Schemes.Holdings

/-! The limits of a user: `check_user_limits_static`, what a connection does after it, and the clean-up
    when it ends. Every connection is a task, and the tasks interleave at every access to the tracker
    and to the counters.

        expiration ─▶ max_ips ─▶ active_ips ─▶ tcp conns ─▶ quota ─▶ set up ─▶ relay
                                  + address                           + 1       - 1 ─▶ - address

    The address is tracked from `check_and_add` on, but only the guard that is made after the last
    check takes it out again, and it does so whoever else is connected from that address. The counter
    that the TCP limit is checked against is raised only when the relay starts. -/

namespace MtProxy.Proxy.UserLimits
open Schemes MiddleProxy MtProxy.Config

/-- An authenticated client, with the configuration of the time it was accepted. -/
structure Connection where
  user : String
  ip : IpAddr
  config : ProxyConfig

inductive LimitError where
  | userExpired (user : String)
  | connectionLimitExceeded (user : String)
  | dataQuotaExceeded (user : String)
  deriving DecidableEq

structure LimitState where
  tracker : UserIpTracker
  stats : Stats

/-! ### The checks -/

section
variable (c : Connection) (stats : Stats)

def userExpired (now : ℤ) : Bool :=
  match c.config.access.userExpirations.lookup c.user with
  | some expiration => expiration < now
  | none => false

def tcpConnsReached : Bool :=
  match c.config.access.userMaxTcpConns.lookup c.user with
  | some limit => limit ≤ stats.getUserCurrConnects c.user
  | none => false

def dataQuotaReached : Bool :=
  match c.config.access.userDataQuota.lookup c.user with
  | some quota => quota ≤ stats.getUserTotalOctets c.user
  | none => false

end

/-! ### The tasks -/

/-- Where a task is. `setUp` has the guard: it connects to the DC, or registers with the pool. -/
inductive Frame where
  | listener
  | policy
  | checkExpiration (c : Connection)
  | checkAndAdd (c : Connection) (limit : Option ℕ)
  | checkTcpConns (c : Connection)
  | checkDataQuota (c : Connection)
  | setUp (c : Connection)
  | relay (c : Connection)
  | removeIp (c : Connection)

/-- What the environment decides. -/
inductive Answer where
  | accept (c : Connection)
  | policy (policy : TelemetryPolicy)
  | now (time : ℤ)
  | go
  | failed
  | octets (fromClient toClient : ℕ)

/-- `refuseTracked` is an error of a check after `check_and_add`. -/
inductive Op where
  | accept (c : Connection)
  | applyTelemetryPolicy (policy : TelemetryPolicy)
  | refuse (c : Connection) (error : LimitError)
  | readLimit (c : Connection)
  | addIp (c : Connection) (limit : Option ℕ)
  | refuseIp (c : Connection) (limit : Option ℕ) (error : LimitError)
  | refuseTracked (c : Connection) (error : LimitError)
  | passTcpConns (c : Connection)
  | passDataQuota (c : Connection)
  | setUpFailed (c : Connection)
  | incrementUserCurrConnects (c : Connection)
  | addUserOctets (c : Connection) (fromClient toClient : ℕ)
  | decrementUserCurrConnects (c : Connection)
  | removeIp (c : Connection)

/-- Set-up through the pool cannot fail; a pool may be missing. -/
def viaMiddleProxy (mePool : Bool) (c : Connection) : Bool :=
  c.config.general.useMiddleProxy && mePool

def exec (mePool : Bool) (s : LimitState) :
    Frame → Answer → Option (Op × List Frame × List (List Frame))
  | .listener, .accept c => some (.accept c, [.listener], [[.checkExpiration c]])
  | .policy, .policy policy => some (.applyTelemetryPolicy policy, [.policy], [])
  | .checkExpiration c, .now time =>
    if userExpired c time then some (.refuse c (.userExpired c.user), [], [])
    else some (.readLimit c, [.checkAndAdd c (s.tracker.maxIps.lookup c.user)], [])
  | .checkAndAdd c limit, .go =>
    match (s.tracker.addWithin limit c.user c.ip).2 with
    | .ok _ => some (.addIp c limit, [.checkTcpConns c], [])
    | .error _ => some (.refuseIp c limit (.connectionLimitExceeded c.user), [], [])
  | .checkTcpConns c, .go =>
    if tcpConnsReached c s.stats then
      some (.refuseTracked c (.connectionLimitExceeded c.user), [], [])
    else some (.passTcpConns c, [.checkDataQuota c], [])
  | .checkDataQuota c, .go =>
    if dataQuotaReached c s.stats then some (.refuseTracked c (.dataQuotaExceeded c.user), [], [])
    else some (.passDataQuota c, [.setUp c], [])
  | .setUp c, .go => some (.incrementUserCurrConnects c, [.relay c], [])
  | .setUp c, .failed =>
    if viaMiddleProxy mePool c then none else some (.setUpFailed c, [], [[.removeIp c]])
  | .relay c, .octets fromClient toClient =>
    some (.addUserOctets c fromClient toClient, [.relay c], [])
  | .relay c, .go => some (.decrementUserCurrConnects c, [], [[.removeIp c]])
  | .removeIp c, .go => some (.removeIp c, [], [])
  | _, _ => none

def effect (op : Op) (s : LimitState) : LimitState :=
  match op with
  | .applyTelemetryPolicy policy => { s with stats := s.stats.applyTelemetryPolicy policy }
  | .addIp c limit | .refuseIp c limit _ =>
    { s with tracker := (s.tracker.addWithin limit c.user c.ip).1 }
  | .incrementUserCurrConnects c =>
    { s with stats := s.stats.incrementUserCurrConnects c.user }
  | .addUserOctets c fromClient toClient =>
    { s with stats := (s.stats.addUserOctetsFrom c.user fromClient).addUserOctetsTo c.user toClient }
  | .decrementUserCurrConnects c =>
    { s with stats := s.stats.decrementUserCurrConnects c.user }
  | .removeIp c => { s with tracker := s.tracker.removeIp c.user c.ip }
  | .accept _ | .refuse _ _ | .readLimit _ | .refuseTracked _ _ | .passTcpConns _
  | .passDataQuota _ | .setUpFailed _ => s

def program (mePool : Bool) : Program LimitState Frame Op Answer := ⟨exec mePool, effect⟩

/-- At the start the tracker has the limits of the configuration, and there is no connection. -/
def start (limits : UserMap ℕ) : Schemes.Config LimitState Frame Op :=
  ⟨⟨UserIpTracker.new.loadLimits limits, .new⟩, [[.listener], [.policy]], []⟩

/-! ### What a step can do -/

/-- The operation of a frame in state `s`, and the frames that are there after it. -/
inductive Does (s : LimitState) : Frame → Op → List Frame → Prop where
  | accept (c) : Does s .listener (.accept c) [.listener, .checkExpiration c]
  | policy (policy) : Does s .policy (.applyTelemetryPolicy policy) [.policy]
  | expired (c) : Does s (.checkExpiration c) (.refuse c (.userExpired c.user)) []
  | readLimit (c) : Does s (.checkExpiration c) (.readLimit c)
      [.checkAndAdd c (s.tracker.maxIps.lookup c.user)]
  | addIp (c limit) (h : (s.tracker.addWithin limit c.user c.ip).2 = .ok ()) :
      Does s (.checkAndAdd c limit) (.addIp c limit) [.checkTcpConns c]
  | refuseIp (c limit reason) (h : (s.tracker.addWithin limit c.user c.ip).2 = .error reason) :
      Does s (.checkAndAdd c limit) (.refuseIp c limit (.connectionLimitExceeded c.user)) []
  | tcpLimit (c) : Does s (.checkTcpConns c)
      (.refuseTracked c (.connectionLimitExceeded c.user)) []
  | passTcpConns (c) (h : tcpConnsReached c s.stats = false) :
      Does s (.checkTcpConns c) (.passTcpConns c) [.checkDataQuota c]
  | dataQuota (c) : Does s (.checkDataQuota c) (.refuseTracked c (.dataQuotaExceeded c.user)) []
  | passDataQuota (c) : Does s (.checkDataQuota c) (.passDataQuota c) [.setUp c]
  | setUpFailed (c) : Does s (.setUp c) (.setUpFailed c) [.removeIp c]
  | startRelay (c) : Does s (.setUp c) (.incrementUserCurrConnects c) [.relay c]
  | octets (c fromClient toClient) :
      Does s (.relay c) (.addUserOctets c fromClient toClient) [.relay c]
  | endRelay (c) : Does s (.relay c) (.decrementUserCurrConnects c) [.removeIp c]
  | removeIp (c) : Does s (.removeIp c) (.removeIp c) []

theorem exec_does {mePool : Bool} {s : LimitState} {f : Frame} {a : Answer} {op : Op}
    {fs : List Frame} {spawned : List (List Frame)}
    (h : exec mePool s f a = some (op, fs, spawned)) : Does s f op (fs ++ spawned.flatten) := by
  revert h
  fun_cases exec mePool s f a with
  | case1 c =>
    rintro ⟨⟩
    exact .accept c
  | case2 policy =>
    rintro ⟨⟩
    exact .policy policy
  | case3 c time hexpired =>
    rintro ⟨⟩
    exact .expired c
  | case4 c time hvalid =>
    rintro ⟨⟩
    exact .readLimit c
  | case5 c limit u hok =>
    rintro ⟨⟩
    exact .addIp c limit hok
  | case6 c limit reason herror =>
    rintro ⟨⟩
    exact .refuseIp c limit reason herror
  | case7 c hreached =>
    rintro ⟨⟩
    exact .tcpLimit c
  | case8 c hbelow =>
    rintro ⟨⟩
    exact .passTcpConns c (by simpa using hbelow)
  | case9 c hreached =>
    rintro ⟨⟩
    exact .dataQuota c
  | case10 c hbelow =>
    rintro ⟨⟩
    exact .passDataQuota c
  | case11 c =>
    rintro ⟨⟩
    exact .startRelay c
  | case12 c hmiddle => rintro ⟨⟩
  | case13 c hdirect =>
    rintro ⟨⟩
    exact .setUpFailed c
  | case14 c fromClient toClient =>
    rintro ⟨⟩
    exact .octets c fromClient toClient
  | case15 c =>
    rintro ⟨⟩
    exact .endRelay c
  | case16 c =>
    rintro ⟨⟩
    exact .removeIp c
  | case17 => rintro ⟨⟩

/-! ### The tracked addresses -/

/-- The address a task is connected from, from `check_and_add` until it is refused or removes it. -/
def Frame.holds (user : String) : Frame → Multiset IpAddr
  | .checkTcpConns c | .checkDataQuota c | .setUp c | .relay c | .removeIp c =>
    if c.user = user then {c.ip} else 0
  | .listener | .policy | .checkExpiration _ | .checkAndAdd _ _ => 0

/-- The addresses of the user's admitted and unfinished connections, one for each connection. -/
def connectedFrom (user : String) (frames : Multiset Frame) : Multiset IpAddr :=
  holdings (Frame.holds user) frames

/-- An address is taken out for the last connection from it only, and a connection that is refused
    after its address was added is not the only one from there. -/
def KeepsTrack (user : String) (held : Multiset IpAddr) : Op → Bool
  | .removeIp c => c.user ≠ user || held.count c.ip = 1
  | .refuseTracked c _ => c.user ≠ user || 2 ≤ held.count c.ip
  | _ => true

section
variable {user : String} {s : LimitState} {f : Frame} {op : Op} {fs : List Frame} {R : Multiset Frame}

@[simp] theorem connectedFrom_cons :
    connectedFrom user (f ::ₘ R) = f.holds user + connectedFrom user R := holdings_cons

@[simp] theorem connectedFrom_nil_add :
    connectedFrom user (([] : List Frame) + R) = connectedFrom user R := holdings_nil_add

@[simp] theorem connectedFrom_cons_add :
    connectedFrom user ((f :: fs : List Frame) + R) =
      f.holds user + connectedFrom user ((fs : Multiset Frame) + R) := holdings_cons_add

theorem toFinset_cons_eq_iff {α : Type} [DecidableEq α] {a : α} {m : Multiset α} :
    (a ::ₘ m).toFinset = m.toFinset ↔ 2 ≤ (a ::ₘ m).count a := by
  rw [Multiset.toFinset_cons, Finset.insert_eq_self, Multiset.mem_toFinset,
    Multiset.count_cons_self, ← Multiset.one_le_count_iff_mem]
  omega

/-- A connection that is refused after its address was added leaves the address behind. -/
theorem refuseTracked_iff {c : Connection} {error : LimitError} {tracked : Finset IpAddr}
    {H : Multiset IpAddr}
    (h : tracked = ((if c.user = user then {c.ip} else 0) + H).toFinset) :
    tracked = H.toFinset ↔ KeepsTrack user ((if c.user = user then {c.ip} else 0) + H)
      (.refuseTracked c error) = true := by
  subst h
  by_cases hu : c.user = user
  · simp only [hu, if_true, KeepsTrack, Multiset.singleton_add, toFinset_cons_eq_iff]
    simp
  · simp [hu, KeepsTrack]

/-- A step keeps the tracked addresses exact exactly if it meets `KeepsTrack`. -/
theorem does_tracks (hdoes : Does s f op fs)
    (h : s.tracker.getActiveIps user = (connectedFrom user (f ::ₘ R)).toFinset) :
    (effect op s).tracker.getActiveIps user = (connectedFrom user ((fs : Multiset Frame) + R)).toFinset
      ↔ KeepsTrack user (connectedFrom user (f ::ₘ R)) op = true := by
  cases hdoes with
  | addIp c limit hok =>
    refine iff_of_true ?_ rfl
    simp only [effect]
    rw [UserIpTracker.addWithin_ok _ _ _ _ _ hok]
    by_cases hu : c.user = user
    · simp_all [Frame.holds]
    · simp_all [Frame.holds, Ne.symm hu]
  | refuseIp c limit reason herror =>
    refine iff_of_true ?_ rfl
    simp only [effect]
    rw [UserIpTracker.addWithin_error _ _ _ _ _ herror]
    simpa [Frame.holds] using h
  | tcpLimit c =>
    simp only [effect, connectedFrom_cons, connectedFrom_nil_add, Frame.holds] at h ⊢
    exact refuseTracked_iff h
  | dataQuota c =>
    simp only [effect, connectedFrom_cons, connectedFrom_nil_add, Frame.holds] at h ⊢
    exact refuseTracked_iff h
  | removeIp c =>
    simp only [effect, UserIpTracker.getActiveIps_removeIp, connectedFrom_cons,
      connectedFrom_nil_add, Frame.holds] at h ⊢
    by_cases hu : c.user = user
    · subst hu
      simp only [if_true, Multiset.singleton_add] at h ⊢
      simp [h, KeepsTrack]
    · simp [h, hu, Ne.symm hu, KeepsTrack]
  -- the other steps neither touch the tracker nor end a connection
  | _ => exact iff_of_true (by simpa [effect, Frame.holds] using h) rfl

/-- The tracked addresses are exactly those with an admitted and unfinished connection, and no more
    than the limit allows. -/
def Exact (limits : UserMap ℕ) (user : String) (s : LimitState) (frames : Multiset Frame) : Prop :=
  s.tracker.getActiveIps user = (connectedFrom user frames).toFinset ∧
    ∀ n, limits.lookup user = some n → (connectedFrom user frames).toFinset.card ≤ n

/-- The limit is the one of the start, wherever it was read, and what is tracked is within it. -/
structure Within (limits : UserMap ℕ) (user : String) (s : LimitState) (frames : Multiset Frame) :
    Prop where
  maxIps : s.tracker.maxIps = limits
  read : ∀ c limit, .checkAndAdd c limit ∈ frames → limit = limits.lookup c.user
  card : ∀ n, limits.lookup user = some n → (s.tracker.getActiveIps user).card ≤ n

theorem effect_maxIps : (effect op s).tracker.maxIps = s.tracker.maxIps := by
  cases op <;> simp [effect]

theorem within_of_does {limits : UserMap ℕ} (hdoes : Does s f op fs)
    (h : Within limits user s (f ::ₘ R)) :
    Within limits user (effect op s) ((fs : Multiset Frame) + R) where
  maxIps := effect_maxIps.trans h.maxIps
  read := by
    intro c limit hmem
    rcases Multiset.mem_add.mp hmem with hnew | hold
    · cases hdoes with
      | readLimit c' =>
        obtain ⟨rfl, rfl⟩ : c = c' ∧ limit = s.tracker.maxIps.lookup c'.user := by simpa using hnew
        rw [h.maxIps]
      | _ => simp at hnew
    · exact h.read c limit (Multiset.mem_cons_of_mem hold)
  card := by
    intro n hn
    have hcard := h.card n hn
    cases hdoes with
    | addIp c limit hok =>
      by_cases hu : user = c.user
      · subst hu
        obtain rfl := (h.read c limit (Multiset.mem_cons_self ..)).trans hn
        exact UserIpTracker.card_addWithin _ _ _ hcard
      · simp only [effect, UserIpTracker.addWithin_other _ _ _ _ _ hu]
        exact hcard
    | refuseIp c limit reason herror =>
      simp only [effect, UserIpTracker.addWithin_error _ _ _ _ _ herror]
      exact hcard
    | removeIp c =>
      simp only [effect, UserIpTracker.getActiveIps_removeIp]
      split
      · next hu =>
        subst hu
        exact (Finset.card_erase_le).trans hcard
      · exact hcard
    | _ => exact hcard

end

/-- The tracked addresses of a user are those of the user's admitted and unfinished connections, and
    within the user's limit, in all states of a run exactly if every removal is for the last
    connection from its address and no connection is refused after its address was added unless there
    is another one from it. -/
theorem tracked_ips_exact (mePool : Bool) (limits : UserMap ℕ) (user : String)
    (ls : List (ℕ × Answer)) {c : Schemes.Config LimitState Frame Op}
    (hrun : run (program mePool).step (start limits) ls = some c) :
    (∀ ls', ls' <+: ls → ∀ c', run (program mePool).step (start limits) ls' = some c' →
        Exact limits user c'.shared c'.frames) ↔
      (program mePool).Meets (fun c => KeepsTrack user (connectedFrom user c.frames)) (start limits)
        ls := by
  have hstart : Within limits user (start limits).shared (start limits).frames := by
    refine ⟨?_, ?_, ?_⟩
    · exact Finmap.union_empty
    · intro c limit hmem
      simp [start, Schemes.Config.frames] at hmem
    · intro n _
      exact Nat.zero_le n
  have hexact : Exact limits user (start limits).shared (start limits).frames :=
    ⟨rfl, fun n _ => Nat.zero_le n⟩
  refine Program.interleave_iff (K := fun _ _ _ => true)
    (G := fun _ frames => KeepsTrack user (connectedFrom user frames)) ?_ ?_ ls hstart hexact
    (Program.meets_true ls _) hrun
  · intro s f R a op fs spawned hexec hI _
    exact within_of_does (exec_does hexec) hI
  · intro s f R a op fs spawned hexec hI _ hP
    have hdoes := exec_does hexec
    have hiff := does_tracks (R := R) hdoes hP.1
    constructor
    · exact fun hP' => hiff.mp hP'.1
    · intro hkeep
      have htracked := hiff.mpr hkeep
      exact ⟨htracked, fun n hn => htracked ▸ (within_of_does hdoes hI).card n hn⟩

/-- Alice, from the address that ends in `host`, with at most one TCP connection. -/
def alice (host : UInt8) : Connection :=
  ⟨"alice", .v4 ⟨[10, 0, 0, host], rfl⟩,
    { access := { userMaxTcpConns := (∅ : UserMap ℕ).insert "alice" 1 } }⟩

/-- The steps of task `i` from its acceptance to its relay. -/
def admitted (i : ℕ) (c : Connection) : List (ℕ × Answer) :=
  [(0, .accept c), (i, .now 0), (i, .go), (i, .go), (i, .go), (i, .go)]

/-- One address is allowed: the connection from another one is refused. -/
theorem tracked_ips_exact_second_address :
    let limits : UserMap ℕ := (∅ : UserMap ℕ).insert "alice" 1
    let ls := admitted 2 (alice 1) ++ [(0, .accept (alice 2)), (3, .now 0), (3, .go)]
    ∃ cfg, run (program true).step (start limits) ls = some cfg ∧
      cfg.shared.tracker.getActiveIps "alice" = {(alice 1).ip} ∧
      Exact limits "alice" cfg.shared cfg.frames := by
  intro limits ls
  have heval : (run (program true).step (start limits) ls).map
      (·.shared.tracker.getActiveIps "alice") = some {(alice 1).ip} := by decide +kernel
  obtain ⟨cfg, hrun, htracked⟩ := Option.map_eq_some_iff.mp heval
  exact ⟨cfg, hrun, htracked, (tracked_ips_exact true limits "alice" ls hrun).mpr (by decide +kernel)
    ls List.prefix_rfl cfg hrun⟩

/-- Two connections from one address: when the first has ended, its address is not tracked any more,
    and a connection from a second address is admitted next to the one that still runs. -/
theorem removal_forgets_live_address :
    let limits : UserMap ℕ := (∅ : UserMap ℕ).insert "alice" 1
    let c := fun host => { alice host with config := {} }
    let ls := admitted 2 (c 1) ++ admitted 3 (c 1) ++ [(2, .go), (4, .go)] ++ admitted 5 (c 2)
    ∃ cfg, run (program true).step (start limits) ls = some cfg ∧
      cfg.shared.tracker.getActiveIps "alice" = {(alice 2).ip} ∧
      (connectedFrom "alice" cfg.frames).toFinset = {(alice 1).ip, (alice 2).ip} ∧
      ¬ Exact limits "alice" cfg.shared cfg.frames := by
  intro limits c ls
  have heval : (run (program true).step (start limits) ls).map (fun cfg =>
      (cfg.shared.tracker.getActiveIps "alice", (connectedFrom "alice" cfg.frames).toFinset)) =
      some ({(alice 2).ip}, {(alice 1).ip, (alice 2).ip}) := by decide +kernel
  obtain ⟨cfg, hrun, hcfg⟩ := Option.map_eq_some_iff.mp heval
  obtain ⟨htracked, hheld⟩ := Prod.mk.inj hcfg
  refine ⟨cfg, hrun, htracked, hheld, fun hexact => ?_⟩
  have hcard := hexact.2 1 rfl
  rw [hheld] at hcard
  exact absurd hcard (by decide)

/-! ### The number of TCP connections -/

/-- Past the check of the TCP limit, and not counted yet. -/
def Frame.settingUp (user : String) : Frame → ℕ
  | .checkDataQuota c | .setUp c => if c.user = user then 1 else 0
  | _ => 0

def Frame.relaying (user : String) : Frame → ℕ
  | .relay c => if c.user = user then 1 else 0
  | _ => 0

/-- Past the check of the TCP limit, and not ended. -/
def Frame.passed (user : String) : Frame → ℕ
  | .checkDataQuota c | .setUp c | .relay c => if c.user = user then 1 else 0
  | _ => 0

def total (part : Frame → ℕ) (frames : Multiset Frame) : ℕ := (frames.map part).sum

/-- Per-user telemetry stays on, and every connection of the user has `user_max_tcp_conns = n`. -/
def FixedTcpLimit (user : String) (n : ℕ) : Op → Bool
  | .accept c => c.user ≠ user || c.config.access.userMaxTcpConns.lookup user = some n
  | .applyTelemetryPolicy policy => policy.userEnabled
  | _ => true

/-- A connection that passes the check leaves room for those that are still setting up. -/
def RoomForSetUp (user : String) (n : ℕ) (s : LimitState) (frames : Multiset Frame) : Op → Bool
  | .passTcpConns c => c.user ≠ user ||
      s.stats.getUserCurrConnects user + total (Frame.settingUp user) frames < n
  | _ => true

/-- The counter is the number of relays. -/
structure Counted (user : String) (s : LimitState) (frames : Multiset Frame) : Prop where
  enabled : s.stats.telemetryUserEnabled = true
  curr : s.stats.getUserCurrConnects user = total (Frame.relaying user) frames

section
variable {user : String} {n : ℕ} {s : LimitState} {f : Frame} {op : Op} {fs : List Frame}
  {R : Multiset Frame} {part : Frame → ℕ}

@[simp] theorem total_cons : total part (f ::ₘ R) = part f + total part R := by
  rw [total, Multiset.map_cons, Multiset.sum_cons, total]

@[simp] theorem total_nil_add : total part (([] : List Frame) + R) = total part R := by simp

@[simp] theorem total_cons_add :
    total part ((f :: fs : List Frame) + R) = part f + total part ((fs : Multiset Frame) + R) := by
  rw [← Multiset.cons_coe, Multiset.cons_add, total_cons]

theorem total_passed (user : String) (frames : Multiset Frame) : total (Frame.passed user) frames =
    total (Frame.settingUp user) frames + total (Frame.relaying user) frames := by
  rw [total, total, total, ← Multiset.sum_map_add]
  congr 1
  refine Multiset.map_congr rfl fun f _ => ?_
  cases f <;> simp [Frame.passed, Frame.settingUp, Frame.relaying]

theorem effect_enabled (hK : FixedTcpLimit user n op = true)
    (h : s.stats.telemetryUserEnabled = true) : (effect op s).stats.telemetryUserEnabled = true := by
  cases op with
  | applyTelemetryPolicy policy => exact hK
  | _ => simp [effect, h]

theorem counted_of_does (hdoes : Does s f op fs) (hK : FixedTcpLimit user n op = true)
    (h : Counted user s (f ::ₘ R)) :
    Counted user (effect op s) ((fs : Multiset Frame) + R) := by
  obtain ⟨henabled, hcurr⟩ := h
  refine ⟨effect_enabled hK henabled, ?_⟩
  rw [total_cons] at hcurr
  cases hdoes with
  | startRelay c =>
    simp only [effect, Stats.incrementUserCurrConnects_curr, hcurr, total_cons_add, total_nil_add,
      Frame.relaying, henabled, and_true, eq_comm (a := user), Nat.zero_add]
    exact Nat.add_comm ..
  | octets c fromClient toClient =>
    simpa only [effect, Stats.addUserOctetsTo_curr, Stats.addUserOctetsFrom_curr, total_cons_add,
      total_nil_add] using hcurr
  | endRelay c =>
    simp only [effect, Stats.decrementUserCurrConnects_curr, hcurr, total_cons_add, total_nil_add,
      Frame.relaying, eq_comm (a := user), Nat.zero_add]
    exact Nat.add_sub_cancel_left ..
  | _ => simpa [effect, Frame.relaying] using hcurr

/-- A step keeps the number of connections within the limit exactly if it meets `RoomForSetUp`. -/
theorem does_passed_le (hdoes : Does s f op fs) (hcounted : Counted user s (f ::ₘ R))
    (h : total (Frame.passed user) (f ::ₘ R) ≤ n) :
    total (Frame.passed user) ((fs : Multiset Frame) + R) ≤ n ↔
      RoomForSetUp user n s (f ::ₘ R) op = true := by
  cases hdoes with
  | passTcpConns c hbelow =>
    have hcurr := hcounted.curr
    have hsum := total_passed user (.checkTcpConns c ::ₘ R)
    simp only [total_cons, Frame.passed, Frame.settingUp, Frame.relaying, Nat.zero_add] at hcurr hsum h
    by_cases hu : c.user = user
    · simp [RoomForSetUp, Frame.passed, Frame.settingUp, hu]
      omega
    · simpa [RoomForSetUp, Frame.passed, hu] using h
  | _ =>
    refine iff_of_true ?_ rfl
    simp [Frame.passed] at h ⊢
    omega

end

/-- With per-user telemetry on and `user_max_tcp_conns = n`, at most `n` connections of the user are
    past the check and not ended in all states of a run, exactly if no connection passes the check
    while those that run and those that are still setting up already fill the limit. -/
theorem tcp_conns_bounded_iff (mePool : Bool) (limits : UserMap ℕ) (user : String) (n : ℕ)
    (ls : List (ℕ × Answer)) {c : Schemes.Config LimitState Frame Op}
    (hfixed : (program mePool).Meets (fun _ => FixedTcpLimit user n) (start limits) ls)
    (hrun : run (program mePool).step (start limits) ls = some c) :
    (∀ ls', ls' <+: ls → ∀ c', run (program mePool).step (start limits) ls' = some c' →
        total (Frame.passed user) c'.frames ≤ n) ↔
      (program mePool).Meets (fun c => RoomForSetUp user n c.shared c.frames) (start limits) ls := by
  have hstart : Counted user (start limits).shared (start limits).frames := ⟨rfl, rfl⟩
  refine Program.interleave_iff (K := fun _ _ => FixedTcpLimit user n)
    (P := fun _ frames => total (Frame.passed user) frames ≤ n) ?_ ?_ ls hstart (Nat.zero_le n)
    hfixed hrun
  · intro s f R a op fs spawned hexec hI hK
    exact counted_of_does (exec_does hexec) hK hI
  · intro s f R a op fs spawned hexec hI _ hP
    exact does_passed_le (exec_does hexec) hI hP

/-- Two connections one after the other, each within the limit. -/
theorem tcp_conns_bounded_in_turn :
    let ls := admitted 2 (alice 1) ++ [(2, .go)] ++ admitted 4 (alice 1)
    ∃ cfg, run (program true).step (start ∅) ls = some cfg ∧
      total (Frame.relaying "alice") cfg.frames = 1 ∧ total (Frame.passed "alice") cfg.frames ≤ 1 := by
  intro ls
  have heval : (run (program true).step (start ∅) ls).map
      (fun cfg => total (Frame.relaying "alice") cfg.frames) = some 1 := by decide +kernel
  obtain ⟨cfg, hrun, hrelays⟩ := Option.map_eq_some_iff.mp heval
  exact ⟨cfg, hrun, hrelays, (tcp_conns_bounded_iff true ∅ "alice" 1 ls (by decide +kernel) hrun).mpr
    (by decide +kernel) ls List.prefix_rfl cfg hrun⟩

/-- One connection is allowed. The second one passes the check while the first is setting up. -/
theorem tcp_limit_passed_twice :
    let ls := [(0, .accept (alice 1)), (0, .accept (alice 1)), (2, .now 0), (3, .now 0), (2, .go),
      (3, .go), (2, .go), (3, .go), (2, .go), (3, .go), (2, .go), (3, .go)]
    (program true).Meets (fun _ => FixedTcpLimit "alice" 1) (start ∅) ls ∧
      ∃ cfg, run (program true).step (start ∅) ls = some cfg ∧
        total (Frame.relaying "alice") cfg.frames = 2 ∧
        ¬ total (Frame.passed "alice") cfg.frames ≤ 1 := by
  intro ls
  have heval : (run (program true).step (start ∅) ls).map (fun cfg =>
      (total (Frame.relaying "alice") cfg.frames, total (Frame.passed "alice") cfg.frames)) =
      some (2, 2) := by decide +kernel
  obtain ⟨cfg, hrun, hcfg⟩ := Option.map_eq_some_iff.mp heval
  obtain ⟨hrelays, hpassed⟩ := Prod.mk.inj hcfg
  exact ⟨by decide +kernel, cfg, hrun, hrelays, by omega⟩

end MtProxy.Proxy.UserLimits
