import MtProxy.Stats.UserStats

/-! `relay_bidirectional`: `copy_bidirectional` between the client, behind `StatsIo`, and the server, with a
    watchdog beside it.

        client ──poll_read──▶ c2s, octets_from ─┐
                                                ├──▶ last activity ◀── watchdog, every 10 s
        client ◀──poll_write── s2c, octets_to ──┘

    What passes is counted twice, in the counters of the relay and, as long as the telemetry of users is
    on, in those of the user, which the data quota is checked against. Many relays share the counters of
    users. Times are in nanoseconds, the last activity is kept in whole milliseconds. -/

namespace MtProxy.Proxy.DirectRelay
open Schemes

def nanosPerMilli : ℕ := 1000000

/-- In milliseconds, as it is compared with an idle time. -/
def activityTimeout : ℕ := 1800 * 1000

def watchdogInterval : ℕ := 10 * 1000 * nanosPerMilli

structure SharedCounters where
  c2sBytes : ℕ
  s2cBytes : ℕ
  c2sOps : ℕ
  s2cOps : ℕ
  lastActivityMs : ℕ

namespace SharedCounters

def new : SharedCounters := ⟨0, 0, 0, 0, 0⟩

def touch (c : SharedCounters) (now epoch : ℕ) : SharedCounters :=
  { c with lastActivityMs := (now - epoch) / nanosPerMilli }

/-- In milliseconds. -/
def idleDuration (c : SharedCounters) (now epoch : ℕ) : ℕ :=
  (now - epoch) / nanosPerMilli - c.lastActivityMs

end SharedCounters

/-- What one completed poll of the client has passed on, and whether the user was charged for it. -/
structure Chunk where
  time : ℕ
  toClient : Bool
  bytes : ℕ
  charged : Bool

/-- How a relay has ended. -/
inductive RelayEnd where
  | finished
  | failed
  | activityTimeout (time : ℕ)

/-- A relay with the state of its watchdog; `chunks` is what has passed so far, newest first. -/
structure Relay where
  user : String
  epoch : ℕ
  counters : SharedCounters
  prevC2s : ℕ
  prevS2c : ℕ
  wakeAt : ℕ
  ended : Option RelayEnd
  chunks : List Chunk

/-- All relays that were ever started. -/
structure Relays where
  now : ℕ
  stats : Stats
  relays : List Relay

inductive Event where
  | advance (nanos : ℕ)
  | applyTelemetryPolicy (policy : TelemetryPolicy)
  | start (user : String)
  | pollRead (i bytes : ℕ)
  | pollWrite (i bytes : ℕ)
  | wake (i : ℕ)
  | copyDone (i : ℕ) (ok : Bool)

def newRelay (user : String) (now : ℕ) : Relay where
  user := user
  epoch := now
  counters := SharedCounters.new.touch now now
  prevC2s := 0
  prevS2c := 0
  wakeAt := now + watchdogInterval
  ended := none
  chunks := []

/-- `StatsIo::poll_read` with `bytes` more in the buffer; nothing happens at the end of the stream. -/
def pollRead (r : Relay) (stats : Stats) (now bytes : ℕ) : Relay × Stats :=
  if 0 < bytes then
    ({ r with
        counters := { r.counters with
          c2sBytes := r.counters.c2sBytes + bytes, c2sOps := r.counters.c2sOps + 1 }.touch now r.epoch
        chunks := ⟨now, false, bytes, stats.telemetryUserEnabled⟩ :: r.chunks },
      stats.addUserOctetsFrom r.user bytes)
  else (r, stats)

def pollWrite (r : Relay) (stats : Stats) (now bytes : ℕ) : Relay × Stats :=
  if 0 < bytes then
    ({ r with
        counters := { r.counters with
          s2cBytes := r.counters.s2cBytes + bytes, s2cOps := r.counters.s2cOps + 1 }.touch now r.epoch
        chunks := ⟨now, true, bytes, stats.telemetryUserEnabled⟩ :: r.chunks },
      stats.addUserOctetsTo r.user bytes)
  else (r, stats)

/-- A turn of the loop of the watchdog; the subtractions are those of the rates it logs. -/
def watchdogTurn (r : Relay) (now : ℕ) : Option Relay :=
  if activityTimeout ≤ r.counters.idleDuration now r.epoch then
    some { r with ended := some (.activityTimeout now) }
  else if r.prevC2s ≤ r.counters.c2sBytes ∧ r.prevS2c ≤ r.counters.s2cBytes then
    some { r with
      prevC2s := r.counters.c2sBytes, prevS2c := r.counters.s2cBytes, wakeAt := now + watchdogInterval }
  else none

/-- The relay at `i`, if it is still running. -/
def Relays.running (s : Relays) (i : ℕ) : Option Relay :=
  s.relays[i]?.bind fun r => if r.ended.isNone then some r else none

def Relays.put (s : Relays) (i : ℕ) (r : Relay × Stats) : Relays :=
  { s with stats := r.2, relays := s.relays.set i r.1 }

def step (s : Relays) : Event → Option Relays
  | .advance nanos => some { s with now := s.now + nanos }
  | .applyTelemetryPolicy policy => some { s with stats := s.stats.applyTelemetryPolicy policy }
  | .start user => some { s with relays := s.relays ++ [newRelay user s.now] }
  | .pollRead i bytes => (s.running i).map fun r => s.put i (pollRead r s.stats s.now bytes)
  | .pollWrite i bytes => (s.running i).map fun r => s.put i (pollWrite r s.stats s.now bytes)
  | .wake i => (s.running i).bind fun r =>
      if r.wakeAt ≤ s.now then (watchdogTurn r s.now).map fun r => s.put i (r, s.stats) else none
  | .copyDone i ok => (s.running i).map fun r =>
      s.put i ({ r with ended := some (if ok then .finished else .failed) }, s.stats)

/-! ### What the counters stand for -/

def octets (toClient : Bool) (chunks : List Chunk) : ℕ :=
  ((chunks.filter (·.toClient == toClient)).map (·.bytes)).sum

def ops (toClient : Bool) (chunks : List Chunk) : ℕ := chunks.countP (·.toClient == toClient)

def charged (chunks : List Chunk) : ℕ := ((chunks.filter (·.charged)).map (·.bytes)).sum

/-- When something has passed last, or the start. -/
def Relay.lastActivity (r : Relay) : ℕ := (r.chunks.head?.map (·.time)).getD r.epoch

/-- The counters of the relay agree with what has passed. -/
structure Counted (r : Relay) : Prop where
  c2sBytes : r.counters.c2sBytes = octets false r.chunks
  s2cBytes : r.counters.s2cBytes = octets true r.chunks
  c2sOps : r.counters.c2sOps = ops false r.chunks
  s2cOps : r.counters.s2cOps = ops true r.chunks
  activity : r.counters.lastActivityMs = (r.lastActivity - r.epoch) / nanosPerMilli

/-- The watchdog looked at the relay not long ago and found it active, or has ended it. -/
structure Watched (now : ℕ) (r : Relay) : Prop where
  epoch : r.epoch ≤ r.lastActivity
  past : r.lastActivity ≤ now
  prevC2s : r.prevC2s ≤ r.counters.c2sBytes
  prevS2c : r.prevS2c ≤ r.counters.s2cBytes
  looked : r.ended = none → ∃ t ≤ now, r.wakeAt = t + watchdogInterval ∧
    (t - r.epoch) / nanosPerMilli < r.counters.lastActivityMs + activityTimeout
  timedOut : ∀ t, r.ended = some (.activityTimeout t) →
    r.counters.lastActivityMs + activityTimeout ≤ (t - r.epoch) / nanosPerMilli

/-- What the user was charged by a relay. -/
def Relay.chargedTo (user : String) (r : Relay) : ℕ := if user = r.user then charged r.chunks else 0

structure Inv (s : Relays) : Prop where
  counted : ∀ r ∈ s.relays, Counted r
  watched : ∀ r ∈ s.relays, Watched s.now r
  total : ∀ user, s.stats.getUserTotalOctets user = (s.relays.map (Relay.chargedTo user)).sum

section
variable {s s' : Relays} {r : Relay} {now bytes : ℕ}

theorem running_some {i : ℕ} (h : s.running i = some r) : s.relays[i]? = some r ∧ r.ended = none := by
  obtain ⟨r', hr', hif⟩ := Option.bind_eq_some_iff.mp h
  split at hif
  · rename_i hended
    obtain rfl := Option.some.inj hif
    exact ⟨hr', Option.isNone_iff_eq_none.mp hended⟩
  · cases hif

theorem sum_map_set {α : Type*} (f : α → ℕ) {xs : List α} {i : ℕ} {a : α} (b : α)
    (h : xs[i]? = some a) : ((xs.set i b).map f).sum + f a = (xs.map f).sum + f b := by
  induction xs generalizing i with
  | nil => simp at h
  | cons x xs ih =>
    cases i with
    | zero =>
      obtain rfl : x = a := by simpa using h
      simp only [List.set_cons_zero, List.map_cons, List.sum_cons]
      omega
    | succ i =>
      have ih := ih (show xs[i]? = some a by simpa using h)
      simp only [List.set_cons_succ, List.map_cons, List.sum_cons]
      omega

theorem sum_chargedTo (user : String) (relays : List Relay) :
    (relays.map (Relay.chargedTo user)).sum =
      ((relays.filter (·.user = user)).map fun r => charged r.chunks).sum := by
  induction relays with
  | nil => rfl
  | cons r relays ih =>
    by_cases h : r.user = user
    · simp [Relay.chargedTo, h, ih]
    · simp [Relay.chargedTo, h, Ne.symm h, ih]

/-- A relay is replaced; the user is charged what it was charged. -/
theorem Inv.put (h : Inv s) {i : ℕ} (hi : s.relays[i]? = some r) {r' : Relay} {stats : Stats}
    (hcounted : Counted r') (hwatched : Watched s.now r')
    (htotal : ∀ user, stats.getUserTotalOctets user + r.chargedTo user =
      s.stats.getUserTotalOctets user + r'.chargedTo user) : Inv (s.put i (r', stats)) where
  counted q hq := by
    rcases List.mem_or_eq_of_mem_set hq with hq | rfl
    · exact h.counted q hq
    · exact hcounted
  watched q hq := by
    rcases List.mem_or_eq_of_mem_set hq with hq | rfl
    · exact h.watched q hq
    · exact hwatched
  total user := by
    have hset := sum_map_set (Relay.chargedTo user) r' hi
    have htotal := htotal user
    have hbefore := h.total user
    change stats.getUserTotalOctets user = _
    simp only [Relays.put]
    omega

theorem counted_new (user : String) (now : ℕ) : Counted (newRelay user now) := by
  refine ⟨rfl, rfl, rfl, rfl, ?_⟩
  simp [newRelay, SharedCounters.touch, Relay.lastActivity]

theorem watched_new (user : String) (now : ℕ) : Watched now (newRelay user now) where
  epoch := le_rfl
  past := le_rfl
  prevC2s := le_rfl
  prevS2c := le_rfl
  looked _ := ⟨now, le_rfl, rfl, by simp [newRelay, activityTimeout]⟩
  timedOut t ht := by cases ht

/-- A chunk passes in one of the directions. -/
theorem Watched.chunk (h : Watched now r) (hcounted : Counted r) (hended : r.ended = none)
    (counters : SharedCounters) (hc2s : r.counters.c2sBytes ≤ counters.c2sBytes)
    (hs2c : r.counters.s2cBytes ≤ counters.s2cBytes) (toClient charged : Bool) :
    Watched now { r with
      counters := counters.touch now r.epoch
      chunks := ⟨now, toClient, bytes, charged⟩ :: r.chunks } where
  epoch := h.epoch.trans h.past
  past := le_rfl
  prevC2s := h.prevC2s.trans hc2s
  prevS2c := h.prevS2c.trans hs2c
  looked _ := by
    obtain ⟨t, ht, hwake, hidle⟩ := h.looked hended
    refine ⟨t, ht, hwake, hidle.trans_le ?_⟩
    rw [hcounted.activity]
    have hpast := h.past
    exact Nat.add_le_add_right (Nat.div_le_div_right (Nat.sub_le_sub_right hpast _)) _
  timedOut t ht := by
    change r.ended = _ at ht
    rw [hended] at ht
    cases ht

theorem Inv.chunk_read (h : Inv s) {i : ℕ} (hrunning : s.running i = some r) :
    Inv (s.put i (pollRead r s.stats s.now bytes)) := by
  obtain ⟨hi, hended⟩ := running_some hrunning
  have hmem := List.mem_of_getElem? hi
  have hc := h.counted r hmem
  by_cases hbytes : 0 < bytes
  · rw [pollRead, if_pos hbytes]
    refine h.put hi ?_ ?_ fun user => ?_
    · constructor
      · simp [SharedCounters.touch, octets, hc.c2sBytes, Nat.add_comm]
      · simp [SharedCounters.touch, octets, hc.s2cBytes]
      · simp [SharedCounters.touch, ops, hc.c2sOps]
      · simp [SharedCounters.touch, ops, hc.s2cOps]
      · simp [SharedCounters.touch, Relay.lastActivity]
    · exact (h.watched r hmem).chunk hc hended
        { r.counters with c2sBytes := r.counters.c2sBytes + bytes, c2sOps := r.counters.c2sOps + 1 }
        (Nat.le_add_right _ _) le_rfl _ _
    · rw [Stats.addUserOctetsFrom_total, Relay.chargedTo, Relay.chargedTo]
      by_cases huser : user = r.user <;> cases hon : s.stats.telemetryUserEnabled <;>
        simp [huser, charged, Nat.add_assoc, Nat.add_left_comm, Nat.add_comm]
  · rw [pollRead, if_neg hbytes]
    exact h.put hi hc (h.watched r hmem) fun user => rfl

theorem Inv.chunk_write (h : Inv s) {i : ℕ} (hrunning : s.running i = some r) :
    Inv (s.put i (pollWrite r s.stats s.now bytes)) := by
  obtain ⟨hi, hended⟩ := running_some hrunning
  have hmem := List.mem_of_getElem? hi
  have hc := h.counted r hmem
  by_cases hbytes : 0 < bytes
  · rw [pollWrite, if_pos hbytes]
    refine h.put hi ?_ ?_ fun user => ?_
    · constructor
      · simp [SharedCounters.touch, octets, hc.c2sBytes]
      · simp [SharedCounters.touch, octets, hc.s2cBytes, Nat.add_comm]
      · simp [SharedCounters.touch, ops, hc.c2sOps]
      · simp [SharedCounters.touch, ops, hc.s2cOps]
      · simp [SharedCounters.touch, Relay.lastActivity]
    · exact (h.watched r hmem).chunk hc hended
        { r.counters with s2cBytes := r.counters.s2cBytes + bytes, s2cOps := r.counters.s2cOps + 1 }
        le_rfl (Nat.le_add_right _ _) _ _
    · rw [Stats.addUserOctetsTo_total, Relay.chargedTo, Relay.chargedTo]
      by_cases huser : user = r.user <;> cases hon : s.stats.telemetryUserEnabled <;>
        simp [huser, charged, Nat.add_assoc, Nat.add_left_comm, Nat.add_comm]
  · rw [pollWrite, if_neg hbytes]
    exact h.put hi hc (h.watched r hmem) fun user => rfl

/-- The watchdog ends the relay or has just found it active. -/
theorem Watched.turn (h : Watched now r) {r' : Relay} (hturn : watchdogTurn r now = some r') :
    Watched now r' := by
  unfold watchdogTurn at hturn
  split at hturn
  · rename_i hidle
    obtain rfl := Option.some.inj hturn
    refine ⟨h.epoch, h.past, h.prevC2s, h.prevS2c, fun hended => by simp at hended, fun t ht => ?_⟩
    obtain rfl : now = t := by simpa using ht
    rw [SharedCounters.idleDuration, activityTimeout] at hidle
    dsimp only [activityTimeout]
    omega
  · rename_i hidle
    split at hturn
    · obtain rfl := Option.some.inj hturn
      refine ⟨h.epoch, h.past, le_rfl, le_rfl, fun _ => ⟨now, le_rfl, rfl, ?_⟩, h.timedOut⟩
      rw [SharedCounters.idleDuration, activityTimeout] at hidle
      dsimp only [activityTimeout]
      omega
    · cases hturn

theorem watchdogTurn_counted {r' : Relay} (hturn : watchdogTurn r now = some r') :
    (Counted r → Counted r') ∧ ∀ user, r'.chargedTo user = r.chargedTo user := by
  unfold watchdogTurn at hturn
  split at hturn
  · obtain rfl := Option.some.inj hturn
    exact ⟨fun h => ⟨h.c2sBytes, h.s2cBytes, h.c2sOps, h.s2cOps, h.activity⟩, fun user => rfl⟩
  · split at hturn
    · obtain rfl := Option.some.inj hturn
      exact ⟨fun h => ⟨h.c2sBytes, h.s2cBytes, h.c2sOps, h.s2cOps, h.activity⟩, fun user => rfl⟩
    · cases hturn

theorem watchdogTurn_chunks {r' : Relay} (hturn : watchdogTurn r now = some r') : r'.chunks = r.chunks := by
  unfold watchdogTurn at hturn
  split at hturn
  · rw [← Option.some.inj hturn]
  · split at hturn
    · rw [← Option.some.inj hturn]
    · cases hturn

/-- The rates that the watchdog logs are never below zero. -/
theorem Watched.turn_isSome (h : Watched now r) : (watchdogTurn r now).isSome := by
  unfold watchdogTurn
  split
  · rfl
  · rw [if_pos ⟨h.prevC2s, h.prevS2c⟩]
    rfl

theorem Watched.done (h : Watched now r) (ok : Bool) :
    Watched now { r with ended := some (if ok then .finished else .failed) } := by
  refine ⟨h.epoch, h.past, h.prevC2s, h.prevS2c, fun hended => by simp at hended, fun t ht => ?_⟩
  cases ok <;> simp at ht

theorem Watched.mono (h : Watched now r) {later : ℕ} (hle : now ≤ later) : Watched later r where
  epoch := h.epoch
  past := h.past.trans hle
  prevC2s := h.prevC2s
  prevS2c := h.prevS2c
  looked hended := by
    obtain ⟨t, ht, hlooked⟩ := h.looked hended
    exact ⟨t, ht.trans hle, hlooked⟩
  timedOut := h.timedOut

theorem Inv.start (h : Inv s) (user : String) :
    Inv { s with relays := s.relays ++ [newRelay user s.now] } where
  counted r hr := by
    rcases List.mem_append.mp hr with hr | hr
    · exact h.counted r hr
    · obtain rfl := List.mem_singleton.mp hr
      exact counted_new user s.now
  watched r hr := by
    rcases List.mem_append.mp hr with hr | hr
    · exact h.watched r hr
    · obtain rfl := List.mem_singleton.mp hr
      exact watched_new user s.now
  total other := by
    have hnew : (newRelay user s.now).chargedTo other = 0 := by
      simp [Relay.chargedTo, newRelay, charged]
    simp only [List.map_append, List.sum_append, List.map_cons, List.map_nil, List.sum_singleton, hnew]
    exact h.total other

theorem Inv.step (h : Inv s) (e : Event) (hstep : step s e = some s') : Inv s' := by
  cases e with
  | advance nanos =>
    obtain rfl := Option.some.inj hstep
    exact ⟨h.counted, fun r hr => (h.watched r hr).mono (Nat.le_add_right _ _), h.total⟩
  | applyTelemetryPolicy policy =>
    obtain rfl := Option.some.inj hstep
    exact ⟨h.counted, h.watched, h.total⟩
  | start user =>
    obtain rfl := Option.some.inj hstep
    exact h.start user
  | pollRead i bytes =>
    obtain ⟨r, hrunning, rfl⟩ := Option.map_eq_some_iff.mp hstep
    exact h.chunk_read hrunning
  | pollWrite i bytes =>
    obtain ⟨r, hrunning, rfl⟩ := Option.map_eq_some_iff.mp hstep
    exact h.chunk_write hrunning
  | wake i =>
    obtain ⟨r, hrunning, hstep⟩ := Option.bind_eq_some_iff.mp hstep
    split at hstep
    · obtain ⟨r', hturn, rfl⟩ := Option.map_eq_some_iff.mp hstep
      obtain ⟨hi, -⟩ := running_some hrunning
      have hmem := List.mem_of_getElem? hi
      obtain ⟨hcounted, hcharged⟩ := watchdogTurn_counted hturn
      refine h.put hi (hcounted (h.counted r hmem)) ((h.watched r hmem).turn hturn) fun user => ?_
      rw [hcharged user]
    · cases hstep
  | copyDone i ok =>
    obtain ⟨r, hrunning, rfl⟩ := Option.map_eq_some_iff.mp hstep
    obtain ⟨hi, -⟩ := running_some hrunning
    have hmem := List.mem_of_getElem? hi
    have hc := h.counted r hmem
    exact h.put hi ⟨hc.c2sBytes, hc.s2cBytes, hc.c2sOps, hc.s2cOps, hc.activity⟩
      ((h.watched r hmem).done ok) fun user => rfl

/-! ### Runs -/

theorem inv_run {now₀ : ℕ} {es : List Event} (hrun : run step ⟨now₀, Stats.new, []⟩ es = some s) :
    Inv s := by
  refine run_invariant (fun s e s' h => h.step e) es ?_ hrun
  exact ⟨fun r hr => by simp at hr, fun r hr => by simp at hr, fun user => rfl⟩

/-- The telemetry of users is on, and was on whenever something passed. -/
structure AllCharged (s : Relays) : Prop where
  enabled : s.stats.telemetryUserEnabled = true
  chunks : ∀ r ∈ s.relays, ∀ c ∈ r.chunks, c.charged = true

def KeepsTelemetry : Event → Prop
  | .applyTelemetryPolicy policy => policy.userEnabled = true
  | _ => True

theorem AllCharged.put (h : AllCharged s) (i : ℕ) {r' : Relay} {stats : Stats}
    (hstats : stats.telemetryUserEnabled = s.stats.telemetryUserEnabled)
    (hchunks : ∀ c ∈ r'.chunks, c.charged = true) : AllCharged (s.put i (r', stats)) where
  enabled := hstats.trans h.enabled
  chunks q hq := by
    rcases List.mem_or_eq_of_mem_set hq with hq | rfl
    · exact h.chunks q hq
    · exact hchunks

theorem AllCharged.step (h : AllCharged s) (e : Event) (hkeeps : KeepsTelemetry e)
    (hstep : step s e = some s') : AllCharged s' := by
  have hmem {i : ℕ} {r : Relay} (hrunning : s.running i = some r) : ∀ c ∈ r.chunks, c.charged = true :=
    h.chunks r (List.mem_of_getElem? (running_some hrunning).1)
  cases e with
  | advance nanos =>
    obtain rfl := Option.some.inj hstep
    exact ⟨h.enabled, h.chunks⟩
  | applyTelemetryPolicy policy =>
    obtain rfl := Option.some.inj hstep
    exact ⟨hkeeps, h.chunks⟩
  | start user =>
    obtain rfl := Option.some.inj hstep
    refine ⟨h.enabled, fun r hr => ?_⟩
    rcases List.mem_append.mp hr with hr | hr
    · exact h.chunks r hr
    · obtain rfl := List.mem_singleton.mp hr
      simp [newRelay]
  | pollRead i bytes =>
    obtain ⟨r, hrunning, rfl⟩ := Option.map_eq_some_iff.mp hstep
    by_cases hbytes : 0 < bytes
    · rw [pollRead, if_pos hbytes]
      refine h.put i (Stats.addUserOctetsFrom_enabled ..) fun c hc => ?_
      rcases List.mem_cons.mp hc with rfl | hc
      · exact h.enabled
      · exact hmem hrunning c hc
    · rw [pollRead, if_neg hbytes]
      exact h.put i rfl (hmem hrunning)
  | pollWrite i bytes =>
    obtain ⟨r, hrunning, rfl⟩ := Option.map_eq_some_iff.mp hstep
    by_cases hbytes : 0 < bytes
    · rw [pollWrite, if_pos hbytes]
      refine h.put i (Stats.addUserOctetsTo_enabled ..) fun c hc => ?_
      rcases List.mem_cons.mp hc with rfl | hc
      · exact h.enabled
      · exact hmem hrunning c hc
    · rw [pollWrite, if_neg hbytes]
      exact h.put i rfl (hmem hrunning)
  | wake i =>
    obtain ⟨r, hrunning, hstep⟩ := Option.bind_eq_some_iff.mp hstep
    split at hstep
    · obtain ⟨r', hturn, rfl⟩ := Option.map_eq_some_iff.mp hstep
      refine h.put i rfl ?_
      rw [watchdogTurn_chunks hturn]
      exact hmem hrunning
    · cases hstep
  | copyDone i ok =>
    obtain ⟨r, hrunning, rfl⟩ := Option.map_eq_some_iff.mp hstep
    have hchunks := hmem hrunning
    exact h.put i rfl hchunks

/-- What was charged passed in one direction or the other. -/
theorem charged_eq_octets {chunks : List Chunk} (h : ∀ c ∈ chunks, c.charged = true) :
    charged chunks = octets false chunks + octets true chunks := by
  induction chunks with
  | nil => rfl
  | cons c chunks ih =>
    have ih := ih fun c' hc' => h c' (List.mem_cons_of_mem _ hc')
    have hc := h c List.mem_cons_self
    rw [charged, octets, octets] at ih ⊢
    cases hto : c.toClient <;> simp [hc, hto, ih] <;> omega

end

end MtProxy.Proxy.DirectRelay
