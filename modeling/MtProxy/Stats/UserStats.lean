import Mathlib.Data.Finmap
import MtProxy.Schemes.Run

/-! The per-user counters of `Stats`. `increment_user_curr_connects` counts a relay only while
    per-user telemetry is on, `decrement_user_curr_connects` always takes one off:

        start u:  on  ──▶ curr + 1            end u:  curr ≠ 0 ──▶ curr - 1
                  off ──▶ curr                        curr = 0 ──▶ curr

    So the end of a relay that was never counted is taken off the count of another one.
    `curr_connects_truthful` says in which runs this does not happen. -/

namespace MtProxy
open Schemes

/-- `HashMap<String, V>` and `DashMap<String, V>`, with the users' names as keys. -/
abbrev UserMap (V : Type) := Finmap (fun _ : String => V)

inductive MeTelemetryLevel where
  | silent | normal | debug
  deriving DecidableEq

structure TelemetryPolicy where
  coreEnabled : Bool
  userEnabled : Bool
  meLevel : MeTelemetryLevel
  deriving DecidableEq

/-- `TelemetryPolicy::default`. -/
def TelemetryPolicy.default : TelemetryPolicy := ⟨true, true, .normal⟩

/-- The counters the limits of a user are checked against. -/
structure UserStats where
  currConnects : ℕ := 0
  octetsFromClient : ℕ := 0
  octetsToClient : ℕ := 0
  deriving DecidableEq

structure Stats where
  telemetryCoreEnabled : Bool
  telemetryUserEnabled : Bool
  telemetryMeLevel : MeTelemetryLevel
  userStats : UserMap UserStats

namespace Stats

def applyTelemetryPolicy (s : Stats) (policy : TelemetryPolicy) : Stats :=
  { s with telemetryCoreEnabled := policy.coreEnabled
           telemetryUserEnabled := policy.userEnabled
           telemetryMeLevel := policy.meLevel }

def new : Stats := (⟨false, false, .silent, ∅⟩ : Stats).applyTelemetryPolicy TelemetryPolicy.default

/-- `entry(user).or_default()`, updated. -/
def updateEntry (s : Stats) (user : String) (f : UserStats → UserStats) : Stats :=
  { s with userStats := s.userStats.insert user (f ((s.userStats.lookup user).getD {})) }

def incrementUserCurrConnects (s : Stats) (user : String) : Stats :=
  if s.telemetryUserEnabled then
    s.updateEntry user fun u => { u with currConnects := u.currConnects + 1 }
  else s

/-- The compare-and-exchange loop ends with one off the counter, or with the counter found at zero. -/
def decrementUserCurrConnects (s : Stats) (user : String) : Stats :=
  match s.userStats.lookup user with
  | some _ => s.updateEntry user fun u =>
      if u.currConnects = 0 then u else { u with currConnects := u.currConnects - 1 }
  | none => s

def getUserCurrConnects (s : Stats) (user : String) : ℕ :=
  ((s.userStats.lookup user).map (·.currConnects)).getD 0

def addUserOctetsFrom (s : Stats) (user : String) (bytes : ℕ) : Stats :=
  if s.telemetryUserEnabled then
    s.updateEntry user fun u => { u with octetsFromClient := u.octetsFromClient + bytes }
  else s

def addUserOctetsTo (s : Stats) (user : String) (bytes : ℕ) : Stats :=
  if s.telemetryUserEnabled then
    s.updateEntry user fun u => { u with octetsToClient := u.octetsToClient + bytes }
  else s

def getUserTotalOctets (s : Stats) (user : String) : ℕ :=
  ((s.userStats.lookup user).map fun u => u.octetsFromClient + u.octetsToClient).getD 0

/-! ### What the operations do to the counter of live connections -/

section
variable (s : Stats) (user other : String)

@[simp] theorem applyTelemetryPolicy_curr (policy : TelemetryPolicy) :
    (s.applyTelemetryPolicy policy).getUserCurrConnects user = s.getUserCurrConnects user := rfl

@[simp] theorem applyTelemetryPolicy_enabled (policy : TelemetryPolicy) :
    (s.applyTelemetryPolicy policy).telemetryUserEnabled = policy.userEnabled := rfl

@[simp] theorem updateEntry_enabled (f : UserStats → UserStats) :
    (s.updateEntry user f).telemetryUserEnabled = s.telemetryUserEnabled := rfl

theorem updateEntry_curr (f : UserStats → UserStats) :
    (s.updateEntry user f).getUserCurrConnects other =
      if other = user then (f ((s.userStats.lookup user).getD {})).currConnects
      else s.getUserCurrConnects other := by
  split
  · next h =>
    subst h
    simp [getUserCurrConnects, updateEntry]
  · next h => simp [getUserCurrConnects, updateEntry, Finmap.lookup_insert_of_ne _ h]

theorem curr_eq_entry :
    ((s.userStats.lookup user).getD {}).currConnects = s.getUserCurrConnects user := by
  cases h : s.userStats.lookup user <;> simp [getUserCurrConnects, h]

theorem incrementUserCurrConnects_curr :
    (s.incrementUserCurrConnects user).getUserCurrConnects other =
      s.getUserCurrConnects other +
        if other = user ∧ s.telemetryUserEnabled = true then 1 else 0 := by
  unfold incrementUserCurrConnects
  split
  · next hon =>
    rw [updateEntry_curr, curr_eq_entry]
    split <;> simp_all
  · next hoff => simp [hoff]

@[simp] theorem incrementUserCurrConnects_enabled :
    (s.incrementUserCurrConnects user).telemetryUserEnabled = s.telemetryUserEnabled := by
  unfold incrementUserCurrConnects
  split <;> rfl

theorem decrementUserCurrConnects_curr :
    (s.decrementUserCurrConnects user).getUserCurrConnects other =
      s.getUserCurrConnects other - if other = user then 1 else 0 := by
  unfold decrementUserCurrConnects
  split
  · next entry hentry =>
    rw [updateEntry_curr]
    split
    · next h =>
      subst h
      simp only [hentry, Option.getD_some, getUserCurrConnects, Option.map_some]
      split <;> simp_all
    · simp
  · next hnone =>
    split
    · next h =>
      subst h
      simp [getUserCurrConnects, hnone]
    · simp

@[simp] theorem decrementUserCurrConnects_enabled :
    (s.decrementUserCurrConnects user).telemetryUserEnabled = s.telemetryUserEnabled := by
  unfold decrementUserCurrConnects
  split <;> rfl

theorem addUserOctetsFrom_curr (bytes : ℕ) :
    (s.addUserOctetsFrom user bytes).getUserCurrConnects other = s.getUserCurrConnects other := by
  unfold addUserOctetsFrom
  split
  · rw [updateEntry_curr]
    split
    · next h => rw [h, curr_eq_entry]
    · rfl
  · rfl

theorem addUserOctetsTo_curr (bytes : ℕ) :
    (s.addUserOctetsTo user bytes).getUserCurrConnects other = s.getUserCurrConnects other := by
  unfold addUserOctetsTo
  split
  · rw [updateEntry_curr]
    split
    · next h => rw [h, curr_eq_entry]
    · rfl
  · rfl

@[simp] theorem addUserOctetsFrom_enabled (bytes : ℕ) :
    (s.addUserOctetsFrom user bytes).telemetryUserEnabled = s.telemetryUserEnabled := by
  unfold addUserOctetsFrom
  split <;> rfl

@[simp] theorem addUserOctetsTo_enabled (bytes : ℕ) :
    (s.addUserOctetsTo user bytes).telemetryUserEnabled = s.telemetryUserEnabled := by
  unfold addUserOctetsTo
  split <;> rfl

/-! ### What they do to the octets -/

theorem updateEntry_total (f : UserStats → UserStats) (n : ℕ)
    (hf : ∀ u : UserStats, (f u).octetsFromClient + (f u).octetsToClient =
      u.octetsFromClient + u.octetsToClient + n) :
    (s.updateEntry user f).getUserTotalOctets other =
      s.getUserTotalOctets other + if other = user then n else 0 := by
  by_cases h : other = user
  · subst h
    cases hentry : s.userStats.lookup other <;>
      simp [getUserTotalOctets, updateEntry, hentry, hf]
  · simp [getUserTotalOctets, updateEntry, Finmap.lookup_insert_of_ne _ h, h]

theorem addUserOctetsFrom_total (bytes : ℕ) :
    (s.addUserOctetsFrom user bytes).getUserTotalOctets other =
      s.getUserTotalOctets other +
        if other = user ∧ s.telemetryUserEnabled = true then bytes else 0 := by
  unfold addUserOctetsFrom
  split
  · next hon =>
    rw [updateEntry_total s user other _ bytes (fun u => by simp only; omega)]
    simp [hon]
  · next hoff => simp [hoff]

theorem addUserOctetsTo_total (bytes : ℕ) :
    (s.addUserOctetsTo user bytes).getUserTotalOctets other =
      s.getUserTotalOctets other +
        if other = user ∧ s.telemetryUserEnabled = true then bytes else 0 := by
  unfold addUserOctetsTo
  split
  · next hon =>
    rw [updateEntry_total s user other _ bytes (fun u => by simp only; omega)]
    simp [hon]
  · next hoff => simp [hoff]

end

end Stats

/-! ### Relays that start and end while the telemetry policy changes -/

/-- A running relay, and whether its start was counted. -/
structure Relay where
  user : String
  counted : Bool
  deriving DecidableEq

structure RelayState where
  stats : Stats
  relays : List Relay

inductive RelayEvent where
  | start (user : String)
  | finish (i : ℕ)
  | applyTelemetryPolicy (policy : TelemetryPolicy)

/-- An end is the end of one of the running relays. -/
def relayStep (s : RelayState) : RelayEvent → Option RelayState
  | .start user =>
    some ⟨s.stats.incrementUserCurrConnects user,
      s.relays ++ [⟨user, s.stats.telemetryUserEnabled⟩]⟩
  | .finish i =>
    (s.relays[i]?).map fun r => ⟨s.stats.decrementUserCurrConnects r.user, s.relays.eraseIdx i⟩
  | .applyTelemetryPolicy policy => some { s with stats := s.stats.applyTelemetryPolicy policy }

/-- The running relays of `user` that were started while telemetry was on. -/
def RelayState.counted (s : RelayState) (user : String) : ℕ := s.relays.count ⟨user, true⟩

/-- A relay of `user` that was not counted does not end before the counted ones. -/
def EndsUncounted (user : String) (s : RelayState) : RelayEvent → Prop
  | .finish i => s.relays[i]? = some ⟨user, false⟩ → s.counted user = 0
  | _ => True

instance (user : String) (s : RelayState) (e : RelayEvent) : Decidable (EndsUncounted user s e) :=
  match e with
  | .start _ => inferInstanceAs (Decidable True)
  | .finish _ => inferInstanceAs (Decidable (_ → _))
  | .applyTelemetryPolicy _ => inferInstanceAs (Decidable True)

def RelayState.Truthful (user : String) (s : RelayState) : Prop :=
  s.stats.getUserCurrConnects user = s.counted user

section
variable {user : String} {s s' : RelayState} {e : RelayEvent}

theorem counted_start (owner : String) (b : Bool) (relays : List Relay) :
    (relays ++ [(⟨owner, b⟩ : Relay)]).count ⟨user, true⟩ =
      relays.count ⟨user, true⟩ + if user = owner ∧ b = true then 1 else 0 := by
  rw [List.count_append, List.count_singleton]
  simp only [beq_iff_eq, Relay.mk.injEq, eq_comm (a := owner)]

theorem counted_finish (user : String) {relays : List Relay} {i : ℕ} {r : Relay} (h : relays[i]? = some r) :
    (relays.eraseIdx i).count ⟨user, true⟩ + (if r = ⟨user, true⟩ then 1 else 0) =
      relays.count ⟨user, true⟩ := by
  obtain ⟨hi, rfl⟩ := List.getElem?_eq_some_iff.mp h
  rw [← (List.getElem_cons_eraseIdx_perm hi).count_eq, List.count_cons]
  simp only [beq_iff_eq]

/-- The counter is exact after a step exactly if the step is no end of an uncounted relay while
    counted ones run. -/
theorem relayStep_truthful (h : s.Truthful user) (hstep : relayStep s e = some s') :
    s'.Truthful user ↔ EndsUncounted user s e := by
  cases e with
  | start owner =>
    obtain rfl := Option.some.inj hstep
    refine iff_of_true ?_ trivial
    rw [RelayState.Truthful, Stats.incrementUserCurrConnects_curr, RelayState.counted,
      counted_start, h, RelayState.counted]
  | finish i =>
    obtain ⟨r, hr, rfl⟩ := Option.map_eq_some_iff.mp hstep
    have hcount := counted_finish user hr
    have hcurr : s.stats.getUserCurrConnects user = s.relays.count ⟨user, true⟩ := h
    obtain ⟨owner, counted⟩ := r
    simp only [RelayState.Truthful, RelayState.counted, EndsUncounted,
      Stats.decrementUserCurrConnects_curr, hr, hcurr]
    by_cases how : owner = user
    · subst how
      cases counted with
      | true => simp at hcount ⊢; omega
      | false => simp at hcount ⊢; omega
    · simp [how] at hcount ⊢
      rw [if_neg (Ne.symm how)]
      omega
  | applyTelemetryPolicy policy =>
    obtain rfl := Option.some.inj hstep
    exact iff_of_true h trivial

/-- Relays started with telemetry off that never end while relays of the user started with telemetry
    on still run: then the counter is the number of the latter whenever telemetry is on. The condition
    is the exact one for the counter to be that number in all states of the run. -/
theorem curr_connects_truthful (user : String) (es : List RelayEvent) {s : RelayState}
    (hrun : run relayStep ⟨.new, []⟩ es = some s) :
    (RunMeets relayStep (EndsUncounted user) ⟨.new, []⟩ es →
        ∀ es', es' <+: es → ∀ s', run relayStep ⟨.new, []⟩ es' = some s' →
          s'.stats.telemetryUserEnabled = true →
          s'.stats.getUserCurrConnects user = s'.counted user) ∧
      ((∀ es', es' <+: es → ∀ s', run relayStep ⟨.new, []⟩ es' = some s' →
          s'.stats.getUserCurrConnects user = s'.counted user) ↔
        RunMeets relayStep (EndsUncounted user) ⟨.new, []⟩ es) := by
  have hinit : RelayState.Truthful user ⟨.new, []⟩ := rfl
  have hiff := runMeets_iff (I := fun _ => True) (P := RelayState.Truthful user)
    (fun _ _ _ _ _ => trivial) (fun _ _ _ _ hs hstep => relayStep_truthful hs hstep) es trivial
    hinit hrun
  exact ⟨fun hmeets es' hpre s' hrun' _ => hiff.mpr hmeets es' hpre s' hrun', hiff⟩

/-- Telemetry is switched off and on again between the starts of two relays, and the first one ends. -/
theorem curr_connects_truthful_toggled :
    let es := [.start "alice", .applyTelemetryPolicy ⟨true, false, .normal⟩, .start "alice",
      .applyTelemetryPolicy .default, .finish 0]
    ∃ s, run relayStep ⟨.new, []⟩ es = some s ∧ s.relays = [⟨"alice", false⟩] ∧
      s.stats.getUserCurrConnects "alice" = s.counted "alice" := by
  intro es
  have heval : (run relayStep ⟨.new, []⟩ es).map
      (fun s => (s.relays, s.stats.telemetryUserEnabled)) = some ([⟨"alice", false⟩], true) := by
    decide
  obtain ⟨s, hrun, hs⟩ := Option.map_eq_some_iff.mp heval
  obtain ⟨hrelays, hon⟩ := Prod.mk.inj hs
  exact ⟨s, hrun, hrelays, (curr_connects_truthful "alice" es hrun).1 (by decide) es
    List.prefix_rfl s hrun hon⟩

/-- The relay that was not counted ends first: one relay runs, and the counter is at zero. -/
theorem uncounted_end_lowers_counter :
    ¬ ∀ (user : String) (es : List RelayEvent) (s : RelayState),
      run relayStep ⟨.new, []⟩ es = some s → s.stats.telemetryUserEnabled = true →
      s.stats.getUserCurrConnects user = s.counted user := by
  intro h
  have hbad := h "alice" [.start "alice", .applyTelemetryPolicy ⟨true, false, .normal⟩,
    .start "alice", .applyTelemetryPolicy .default, .finish 1] _ rfl rfl
  exact absurd hbad (by decide)

end

end MtProxy
