import MtProxy.MiddleProxy.AdaptiveFloor
import MtProxy.Schemes.Backoff

/-! `me_health_monitor`: what `check_family` does for one DC group after another, with what it keeps of
    each between the rounds.

        endpoints    alive        outage      round
        1            0            enter       one connect, backed off between the bounds of the outage
        any          < required   leave       reconnect what is missing, backed off from base to cap
        any          ≥ required   leave       perhaps rotate the shadow writer

    A reconnect and the attempts in an outage have a backoff each, and each group has its own. The first
    one is kept over outages and over rounds that found nothing to do; the second one is thrown away at
    the end of the outage. -/

namespace MtProxy.MiddleProxy.Health
open Schemes Reinit Config

structure HealthStats where
  outageEnter : ℕ
  outageExit : ℕ
  reconnectAttempt : ℕ
  reconnectSuccess : ℕ
  outageReconnectAttempt : ℕ
  outageReconnectSuccess : ℕ
  quarantineBypass : ℕ
  shadowRotate : ℕ
  shadowRotateSkippedQuarantine : ℕ

/-- What is kept between the rounds. `backoff` and `next_attempt` are always written together, as are
    `outage_backoff` and `outage_next_attempt`. The attempts so far, newest first, and those of the
    present outage are kept for the specification. -/
structure HealthState where
  reconnect : FloorKey → Backoff
  inflight : FloorKey → ℕ
  outage : FloorKey → Backoff
  singleEndpointOutage : Finset FloorKey
  shadowRotateDeadline : FloorKey → Option ℕ
  floor : FloorMaps
  stats : HealthStats
  reconnects : FloorKey → List Attempt
  outages : FloorKey → List Attempt

def HealthState.new : HealthState :=
  ⟨fun _ => .new, fun _ => 0, fun _ => .new, ∅, fun _ => none, .new, ⟨0, 0, 0, 0, 0, 0, 0, 0, 0⟩,
    fun _ => [], fun _ => []⟩

/-- A DC group in a round: what is found, the settings that may change, the time, how the connects turn
    out and the jitter that is drawn. The time is in whole milliseconds, as all delays are; the source
    compares `Instant`s, and those may be due a part of a millisecond later. -/
structure DcRound where
  key : FloorKey
  call : FloorCall
  pool : ReinitPool
  minWritersSingleEndpoint : UInt8
  adaptiveFloorIdle : ℕ
  adaptiveFloorRecoverGrace : ℕ
  outageModeEnabled : Bool
  outageBackoffMinMs : ℕ
  outageBackoffMaxMs : ℕ
  outageDisableQuarantine : Bool
  shadowRotateEverySecs : ℕ
  refillInflight : Bool
  quarantined : Bool
  now : ℕ
  connected : ℕ → Bool
  jitter : ∀ n, Fin (n + 1)

namespace DcRound
variable (r : DcRound)

def alive : ℕ :=
  (r.call.endpoints.map fun addr => ((r.call.liveWriterIdsByAddr addr).map List.length).getD 0).sum

/-- `single_endpoint_outage_backoff_bounds_ms`. -/
def outageBounds : ℕ × ℕ :=
  if r.outageBackoffMinMs ≤ r.outageBackoffMaxMs then (r.outageBackoffMinMs, r.outageBackoffMaxMs)
  else (r.outageBackoffMaxMs, r.outageBackoffMinMs)

def inOutage : Bool :=
  r.call.endpoints.length = 1 && r.outageModeEnabled && r.alive = 0

end DcRound

/-- A part of a pass over a family: the maps of the adaptive floor are cleared in static mode, and then
    the groups are checked. -/
inductive HealthStep where
  | clearAdaptive
  | checkDc (r : DcRound)

/-! ### A round -/

def shadowRotateRetryMs : ℕ := 30 * 1000

def enterOutage (key : FloorKey) (s : HealthState) : HealthState :=
  if key ∈ s.singleEndpointOutage then s
  else { s with
    singleEndpointOutage := insert key s.singleEndpointOutage
    stats := { s.stats with outageEnter := s.stats.outageEnter + 1 } }

def leaveOutage (key : FloorKey) (s : HealthState) : HealthState :=
  if key ∈ s.singleEndpointOutage then { s with
    singleEndpointOutage := s.singleEndpointOutage.erase key
    stats := { s.stats with outageExit := s.stats.outageExit + 1 }
    outage := Function.update s.outage key .new
    outages := Function.update s.outages key []
    shadowRotateDeadline := Function.update s.shadowRotateDeadline key none
    floor := ⟨Function.update s.floor.idleSince key none,
      Function.update s.floor.recoverUntil key none⟩ }
  else s

def recoverSingleEndpointOutage (r : DcRound) (s : HealthState) : HealthState :=
  if ¬ (s.outage r.key).Due r.now then s
  else
    let ok := r.connected 0
    let a : Attempt := ⟨r.now, r.outageBounds.1, r.outageBounds.2, ok⟩
    { s with
      outage := Function.update s.outage r.key ((s.outage r.key).after a r.jitter)
      outages := Function.update s.outages r.key (a :: s.outages r.key)
      stats := { s.stats with
        outageReconnectAttempt := s.stats.outageReconnectAttempt + 1
        quarantineBypass := s.stats.quarantineBypass + if r.outageDisableQuarantine then 1 else 0
        outageReconnectSuccess := s.stats.outageReconnectSuccess + if ok then 1 else 0
        reconnectSuccess := s.stats.reconnectSuccess + if ok then 1 else 0
        reconnectAttempt := s.stats.reconnectAttempt + if ok then 0 else 1 } }

/-- The writer that is replaced drains elsewhere; here it leaves a deadline. -/
def maybeRotateSingleEndpointShadow (r : DcRound) (required : ℕ) (s : HealthState) : HealthState :=
  let interval := r.shadowRotateEverySecs * 1000
  let again := fun deadline stats =>
    { s with shadowRotateDeadline := Function.update s.shadowRotateDeadline r.key (some deadline), stats }
  if r.call.endpoints.length ≠ 1 ∨ r.alive < required then s
  else if r.shadowRotateEverySecs = 0 then s
  else if ∃ deadline ∈ s.shadowRotateDeadline r.key, r.now < deadline then s
  else if r.quarantined then
    again (r.now + shadowRotateRetryMs) { s.stats with
      shadowRotateSkippedQuarantine := s.stats.shadowRotateSkippedQuarantine + 1 }
  else
    match r.call.endpoints[0]?.bind r.call.liveWriterIdsByAddr with
    | none => again (r.now + shadowRotateRetryMs) s.stats
    | some writerIds =>
      if ¬ writerIds.any r.call.isWriterEmpty then again (r.now + shadowRotateRetryMs) s.stats
      else if ¬ r.connected 0 then again (r.now + min interval shadowRotateRetryMs) s.stats
      else again (r.now + interval) { s.stats with shadowRotate := s.stats.shadowRotate + 1 }

section
variable (base cap maxConcurrent : ℕ)

/-- The end of a round: `required` is more than what is alive. -/
def reconnectMissing (r : DcRound) (required : ℕ) (s : HealthState) : HealthState :=
  if ¬ (s.reconnect r.key).Due r.now then s
  else if max maxConcurrent 1 ≤ s.inflight r.key then s
  else if r.refillInflight then s
  else
    let missing := required - r.alive
    let inflight := Function.update s.inflight r.key (s.inflight r.key + 1)
    let restored := (List.range missing).countP r.connected
    let a : Attempt := ⟨r.now, base, cap, decide (required ≤ r.alive + restored)⟩
    { s with
      inflight := Function.update inflight r.key (inflight r.key - 1)
      reconnect := Function.update s.reconnect r.key ((s.reconnect r.key).after a r.jitter)
      reconnects := Function.update s.reconnects r.key (a :: s.reconnects r.key)
      stats := { s.stats with
        reconnectSuccess := s.stats.reconnectSuccess + restored
        reconnectAttempt := s.stats.reconnectAttempt + (missing - restored) } }

/-- The writers a group needs, and the maps of the adaptive floor after the question. -/
def requiredFor (r : DcRound) (s : HealthState) : ℕ × FloorMaps :=
  let reduced := shouldReduceFloorForIdle r.adaptiveFloorIdle r.adaptiveFloorRecoverGrace r.key r.call
    s.floor
  (requiredWritersForDcWithFloorMode r.pool r.call.floorMode r.minWritersSingleEndpoint
    r.call.endpoints.length reduced.1, reduced.2)

/-- The body of the loop of `check_family`. -/
def checkDc (r : DcRound) (s : HealthState) : HealthState :=
  if r.call.endpoints = [] then s
  else
    let required := (requiredFor r s).1
    let s := { s with floor := (requiredFor r s).2 }
    if r.inOutage then recoverSingleEndpointOutage r (enterOutage r.key s)
    else if required ≤ r.alive then
      maybeRotateSingleEndpointShadow r required (leaveOutage r.key s)
    else reconnectMissing base cap maxConcurrent r required (leaveOutage r.key s)

def healthStep (s : HealthState) : HealthStep → HealthState
  | .clearAdaptive => { s with floor := .new }
  | .checkDc r => checkDc base cap maxConcurrent r s

def healthRun (steps : List HealthStep) : HealthState :=
  steps.foldl (healthStep base cap maxConcurrent) .new

end

/-! ### The invariant -/

/-- What is kept of each group stands for its attempts, and these were apart. -/
structure Inv (base cap : ℕ) (s : HealthState) : Prop where
  reconnect : ∀ key, Describes (s.reconnects key) (s.reconnect key)
  spaced : ∀ key, Spaced (s.reconnects key)
  bounds : ∀ key, ∀ a ∈ s.reconnects key, a.lo = base ∧ a.hi = cap
  idle : ∀ key, s.inflight key = 0
  outage : ∀ key, Describes (s.outages key) (s.outage key)
  outageSpaced : ∀ key, Spaced (s.outages key)
  calm : ∀ key, key ∉ s.singleEndpointOutage → s.outages key = []
  entered : s.stats.outageEnter = s.stats.outageExit + s.singleEndpointOutage.card

section
variable {base cap maxConcurrent : ℕ} {s : HealthState} {r : DcRound} {key : FloorKey}

theorem inv_new : Inv base cap .new where
  reconnect _ := .new
  spaced _ := trivial
  bounds _ a ha := by cases ha
  idle _ := rfl
  outage _ := .new
  outageSpaced _ := trivial
  calm _ _ := rfl
  entered := rfl

/-- The maps of the adaptive floor, the deadlines of the rotation and the other counters do not matter. -/
theorem Inv.congr (h : Inv base cap s) (floor : FloorMaps)
    (shadowRotateDeadline : FloorKey → Option ℕ) (stats : HealthStats)
    (henter : stats.outageEnter = s.stats.outageEnter)
    (hexit : stats.outageExit = s.stats.outageExit) :
    Inv base cap { s with floor, shadowRotateDeadline, stats } where
  reconnect := h.reconnect
  spaced := h.spaced
  bounds := h.bounds
  idle := h.idle
  outage := h.outage
  outageSpaced := h.outageSpaced
  calm := h.calm
  entered := by rw [henter, hexit, h.entered]

theorem Inv.enterOutage (h : Inv base cap s) (key : FloorKey) : Inv base cap (enterOutage key s) := by
  unfold Health.enterOutage
  split
  · exact h
  · rename_i hkey
    refine ⟨h.reconnect, h.spaced, h.bounds, h.idle, h.outage, h.outageSpaced, ?_, ?_⟩
    · intro key' hkey'
      exact h.calm key' (fun hmem => hkey' (Finset.mem_insert_of_mem hmem))
    · have hcard := Finset.card_insert_of_notMem hkey
      have hentered := h.entered
      simp only [hcard]
      omega

theorem Inv.leaveOutage (h : Inv base cap s) (key : FloorKey) : Inv base cap (leaveOutage key s) := by
  unfold Health.leaveOutage
  split
  · rename_i hkey
    refine ⟨h.reconnect, h.spaced, h.bounds, h.idle, ?_, ?_, ?_, ?_⟩
    · intro key'
      by_cases hkey' : key' = key
      · subst hkey'
        simpa using Describes.new
      · simpa [hkey'] using h.outage key'
    · intro key'
      by_cases hkey' : key' = key
      · subst hkey'
        simp [Spaced]
      · simpa [hkey'] using h.outageSpaced key'
    · intro key' hnot
      by_cases hkey' : key' = key
      · simp [hkey']
      · have hcalm := h.calm key' (fun hmem => hnot (Finset.mem_erase.mpr ⟨hkey', hmem⟩))
        simpa [hkey'] using hcalm
    · have hcard := Finset.card_erase_add_one hkey
      have hentered := h.entered
      simp only
      omega
  · exact h

theorem Inv.recoverSingleEndpointOutage (h : Inv base cap s)
    (hkey : r.key ∈ s.singleEndpointOutage) :
    Inv base cap (recoverSingleEndpointOutage r s) := by
  unfold Health.recoverSingleEndpointOutage
  split
  · exact h
  · rename_i hdue
    have hdue := not_not.mp hdue
    refine ⟨h.reconnect, h.spaced, h.bounds, h.idle, ?_, ?_, ?_, h.entered⟩
    · intro key
      by_cases hkey' : key = r.key
      · subst hkey'
        simpa using (h.outage r.key).attempt _ r.jitter
      · simpa [hkey'] using h.outage key
    · intro key
      by_cases hkey' : key = r.key
      · subst hkey'
        simpa using (h.outage r.key).spaced (h.outageSpaced r.key) hdue
      · simpa [hkey'] using h.outageSpaced key
    · intro key hnot
      have hkey' : key ≠ r.key := by
        rintro rfl
        exact hnot hkey
      simpa [hkey'] using h.calm key hnot

theorem Inv.maybeRotate (h : Inv base cap s) (required : ℕ) :
    Inv base cap (maybeRotateSingleEndpointShadow r required s) := by
  unfold maybeRotateSingleEndpointShadow
  dsimp only
  split_ifs <;> first
    | exact h
    | exact h.congr s.floor _ _ rfl rfl
    | split <;> [skip; split_ifs] <;> exact h.congr s.floor _ _ rfl rfl

/-- Whether the floor is there again after a reconnect. -/
def DcRound.restores (r : DcRound) (required : ℕ) : Bool :=
  decide (required ≤ r.alive + (List.range (required - r.alive)).countP r.connected)

/-- Nothing but the backoff and a refill under way holds a reconnect back: the gate for concurrent
    attempts is open in every round, for the rounds of a group do not overlap. -/
theorem Inv.reconnects_of_due (h : Inv base cap s) (hdue : (s.reconnect r.key).Due r.now)
    (hrefill : r.refillInflight = false) (required : ℕ) :
    (reconnectMissing base cap maxConcurrent r required s).reconnects r.key =
      ⟨r.now, base, cap, r.restores required⟩ :: s.reconnects r.key := by
  have hidle : ¬ max maxConcurrent 1 ≤ s.inflight r.key := by
    rw [h.idle]
    omega
  rw [reconnectMissing, if_neg (not_not.mpr hdue), if_neg hidle, if_neg (by simp [hrefill])]
  exact Function.update_self ..

theorem Inv.reconnectMissing (h : Inv base cap s) (required : ℕ) :
    Inv base cap (reconnectMissing base cap maxConcurrent r required s) := by
  unfold Health.reconnectMissing
  split
  · exact h
  · rename_i hdue
    have hdue := not_not.mp hdue
    split
    · exact h
    split
    · exact h
    dsimp only
    refine ⟨?_, ?_, ?_, ?_, h.outage, h.outageSpaced, h.calm, h.entered⟩
    · intro key
      by_cases hkey : key = r.key
      · subst hkey
        simpa using (h.reconnect r.key).attempt _ r.jitter
      · simpa [hkey] using h.reconnect key
    · intro key
      by_cases hkey : key = r.key
      · subst hkey
        simpa using (h.reconnect r.key).spaced (h.spaced r.key) hdue
      · simpa [hkey] using h.spaced key
    · intro key a ha
      dsimp only at ha
      by_cases hkey : key = r.key
      · subst hkey
        rw [Function.update_self] at ha
        rcases List.mem_cons.mp ha with rfl | ha
        · exact ⟨rfl, rfl⟩
        · exact h.bounds r.key a ha
      · rw [Function.update_of_ne hkey] at ha
        exact h.bounds key a ha
    · intro key
      by_cases hkey : key = r.key
      · subst hkey
        simp [h.idle]
      · simp [hkey, h.idle]

/-! ### The rounds -/

theorem mem_enterOutage (key : FloorKey) (s : HealthState) :
    key ∈ (enterOutage key s).singleEndpointOutage := by
  unfold enterOutage
  split
  · assumption
  · exact Finset.mem_insert_self key _

theorem Inv.checkDc (h : Inv base cap s) (r : DcRound) :
    Inv base cap (checkDc base cap maxConcurrent r s) := by
  unfold Health.checkDc
  have hfloor : Inv base cap { s with floor := (requiredFor r s).2 } :=
    h.congr _ s.shadowRotateDeadline s.stats rfl rfl
  split
  · exact h
  · dsimp only
    split
    · exact (hfloor.enterOutage r.key).recoverSingleEndpointOutage (mem_enterOutage r.key _)
    · split
      · exact (hfloor.leaveOutage r.key).maybeRotate _
      · exact (hfloor.leaveOutage r.key).reconnectMissing _

theorem Inv.healthStep (h : Inv base cap s) (step : HealthStep) :
    Inv base cap (healthStep base cap maxConcurrent s step) := by
  cases step with
  | clearAdaptive => exact h.congr _ s.shadowRotateDeadline s.stats rfl rfl
  | checkDc r => exact h.checkDc r

theorem inv_healthRun (base cap maxConcurrent : ℕ) (steps : List HealthStep) :
    Inv base cap (healthRun base cap maxConcurrent steps) := by
  have hfold : ∀ (steps : List HealthStep) (s : HealthState), Inv base cap s →
      Inv base cap (steps.foldl (Health.healthStep base cap maxConcurrent) s) := by
    intro steps
    induction steps with
    | nil => exact fun s hs => hs
    | cons step steps ih => exact fun s hs => ih _ (hs.healthStep step)
  exact hfold steps .new inv_new

/-- A group that is below its floor and not in an outage. -/
def BelowFloor (r : DcRound) (s : HealthState) : Prop :=
  r.call.endpoints ≠ [] ∧ r.inOutage = false ∧ r.alive < (requiredFor r s).1

theorem leaveOutage_reconnect (key : FloorKey) (s : HealthState) :
    (leaveOutage key s).reconnect = s.reconnect ∧ (leaveOutage key s).reconnects = s.reconnects := by
  unfold leaveOutage
  split <;> exact ⟨rfl, rfl⟩

/-- The reconnects of every group are apart by delays that double from the base to the cap with every
    one that fails to restore the floor; and in every round that finds a group below its floor a
    reconnect is made, once the delay and its jitter can be over and no refill is under way. -/
theorem reconnects_back_off (base cap maxConcurrent : ℕ) (steps : List HealthStep) (key : FloorKey) :
    let s := healthRun base cap maxConcurrent steps
    Spaced (s.reconnects key) ∧
      (∀ as, as <:+ s.reconnects key → as ≠ [] →
        delayOf as = some (if failures as = 0 then base else min (2 ^ failures as * base) cap)) ∧
      ∀ r : DcRound, r.key = key → BelowFloor r s → r.refillInflight = false →
        (∀ a ∈ (s.reconnects key).head?, ∀ delay ∈ delayOf (s.reconnects key),
          a.time + (delay + slack delay) ≤ r.now) →
        (checkDc base cap maxConcurrent r s).reconnects key =
          ⟨r.now, base, cap, r.restores (requiredFor r s).1⟩ :: s.reconnects key := by
  intro s
  have hinv : Inv base cap s := inv_healthRun base cap maxConcurrent steps
  refine ⟨hinv.spaced key, ?_, ?_⟩
  · intro as hsuffix hne
    exact delayOf_eq (fun a ha => hinv.bounds key a (hsuffix.mem ha)) hne
  · rintro r rfl ⟨hne, houtage, hbelow⟩ hrefill hlate
    have hdue : (s.reconnect r.key).Due r.now := (hinv.reconnect r.key).due hlate
    have hfloor : Inv base cap { s with floor := (requiredFor r s).2 } :=
      hinv.congr _ s.shadowRotateDeadline s.stats rfl rfl
    obtain ⟨hreconnect, hreconnects⟩ :=
      leaveOutage_reconnect r.key { s with floor := (requiredFor r s).2 }
    rw [checkDc, if_neg hne]
    dsimp only
    rw [houtage, if_neg (by simp), if_neg (Nat.not_le.mpr hbelow)]
    rw [(hfloor.leaveOutage r.key).reconnects_of_due (by rwa [hreconnect]) hrefill, hreconnects]

/-! ### The outages -/

theorem singleEndpointOutage_recover (r : DcRound) (s : HealthState) :
    (recoverSingleEndpointOutage r s).singleEndpointOutage = s.singleEndpointOutage := by
  unfold recoverSingleEndpointOutage
  split <;> rfl

theorem singleEndpointOutage_rotate (r : DcRound) (required : ℕ) (s : HealthState) :
    (maybeRotateSingleEndpointShadow r required s).singleEndpointOutage = s.singleEndpointOutage := by
  unfold maybeRotateSingleEndpointShadow
  dsimp only
  split_ifs <;> first
    | rfl
    | split <;> [skip; split_ifs] <;> rfl

theorem singleEndpointOutage_reconnect (r : DcRound) (required : ℕ) (s : HealthState) :
    (reconnectMissing base cap maxConcurrent r required s).singleEndpointOutage =
      s.singleEndpointOutage := by
  unfold reconnectMissing
  split
  · rfl
  split
  · rfl
  split <;> rfl

theorem singleEndpointOutage_enter (key : FloorKey) (s : HealthState) :
    (enterOutage key s).singleEndpointOutage = insert key s.singleEndpointOutage := by
  unfold enterOutage
  split
  · rename_i hkey
    exact (Finset.insert_eq_of_mem hkey).symm
  · rfl

theorem singleEndpointOutage_leave (key : FloorKey) (s : HealthState) :
    (leaveOutage key s).singleEndpointOutage = s.singleEndpointOutage.erase key := by
  unfold leaveOutage
  split
  · rfl
  · rename_i hkey
    exact (Finset.erase_eq_of_notMem hkey).symm

/-- A round puts its group into the set or takes it out, as it finds it. -/
theorem singleEndpointOutage_checkDc (hne : r.call.endpoints ≠ []) :
    (checkDc base cap maxConcurrent r s).singleEndpointOutage =
      if r.inOutage then insert r.key s.singleEndpointOutage
      else s.singleEndpointOutage.erase r.key := by
  rw [checkDc, if_neg hne]
  dsimp only
  split
  · rw [singleEndpointOutage_recover, singleEndpointOutage_enter]
  · split
    · rw [singleEndpointOutage_rotate, singleEndpointOutage_leave]
    · rw [singleEndpointOutage_reconnect, singleEndpointOutage_leave]

/-- The round of a step, if it is one that checks the group. -/
def checked (key : FloorKey) : HealthStep → Option DcRound
  | .checkDc r => if r.key = key ∧ r.call.endpoints ≠ [] then some r else none
  | .clearAdaptive => none

/-- The set holds the groups that were found in an outage when they were last checked. -/
theorem mem_singleEndpointOutage_iff (base cap maxConcurrent : ℕ) (steps : List HealthStep)
    (key : FloorKey) :
    key ∈ (healthRun base cap maxConcurrent steps).singleEndpointOutage ↔
      ∃ r ∈ (steps.filterMap (checked key)).getLast?, r.inOutage = true := by
  induction steps using List.reverseRecOn with
  | nil => simp [healthRun, HealthState.new]
  | append_singleton steps step ih =>
    rw [healthRun, List.foldl_append, List.foldl_cons, List.foldl_nil, List.filterMap_append]
    change key ∈ (healthStep base cap maxConcurrent (healthRun base cap maxConcurrent steps)
      step).singleEndpointOutage ↔ _
    cases step with
    | clearAdaptive => simpa [healthStep, checked] using ih
    | checkDc r =>
      by_cases hne : r.call.endpoints = []
      · simpa [healthStep, checkDc, checked, hne] using ih
      · rw [healthStep, singleEndpointOutage_checkDc hne]
        by_cases hkey : r.key = key
        · subst hkey
          cases hout : r.inOutage <;> simp [checked, hne, hout]
        · cases hout : r.inOutage <;> simpa [checked, hkey, Ne.symm hkey] using ih

theorem enterOutage_outage (key : FloorKey) (s : HealthState) :
    (enterOutage key s).outage = s.outage ∧ (enterOutage key s).outages = s.outages := by
  unfold enterOutage
  split <;> exact ⟨rfl, rfl⟩

/-- A group is in the set of outages exactly if it was found in one when it was last checked, and the
    counters of outages entered and left differ by the size of the set. The attempts of an outage are
    apart by delays that double between its bounds and go back to the lower one; no attempt is left out
    once it is sure to be due, and with the outage its backoff is gone. -/
theorem outages_tracked (base cap maxConcurrent : ℕ) (steps : List HealthStep) (key : FloorKey) :
    let s := healthRun base cap maxConcurrent steps
    (key ∈ s.singleEndpointOutage ↔
      ∃ r ∈ (steps.filterMap (checked key)).getLast?, r.inOutage = true) ∧
      s.stats.outageEnter = s.stats.outageExit + s.singleEndpointOutage.card ∧
      (key ∉ s.singleEndpointOutage → s.outage key = .new) ∧
      Spaced (s.outages key) ∧
      ∀ r : DcRound, r.key = key → r.call.endpoints ≠ [] → r.inOutage = true →
        (∀ a ∈ (s.outages key).head?, ∀ delay ∈ delayOf (s.outages key),
          a.time + (delay + slack delay) ≤ r.now) →
        (checkDc base cap maxConcurrent r s).outages key =
          ⟨r.now, r.outageBounds.1, r.outageBounds.2, r.connected 0⟩ :: s.outages key := by
  intro s
  have hinv : Inv base cap s := inv_healthRun base cap maxConcurrent steps
  refine ⟨mem_singleEndpointOutage_iff base cap maxConcurrent steps key, hinv.entered, ?_,
    hinv.outageSpaced key, ?_⟩
  · intro hkey
    have hdescribes := hinv.outage key
    rw [hinv.calm key hkey] at hdescribes
    generalize s.outage key = b at hdescribes
    cases hdescribes
    rfl
  · rintro r rfl hne houtage hlate
    have hdue : (s.outage r.key).Due r.now := (hinv.outage r.key).due hlate
    obtain ⟨houtageEq, houtages⟩ := enterOutage_outage r.key { s with floor := (requiredFor r s).2 }
    rw [checkDc, if_neg hne]
    dsimp only
    rw [if_pos houtage, recoverSingleEndpointOutage, houtageEq, if_neg (not_not.mpr hdue)]
    dsimp only
    rw [Function.update_self, houtages]

end

end MtProxy.MiddleProxy.Health
