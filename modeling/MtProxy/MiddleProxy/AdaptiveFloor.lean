import MtProxy.Config.Types
import MtProxy.MiddleProxy.Selection
import MtProxy.Schemes.Streak

/-! `should_reduce_floor_for_idle`: when the health check lets a DC with one endpoint run on fewer
    writers. For each DC and family it keeps since when the DC is idle and until when it has to
    recover after a client was seen:

                     idle_since        recover_until      answer
        outside      removed           removed            no
        bound        removed           now + grace        no
        recovering   removed           kept               no
        quiet        kept, or now      removed            now - idle_since ≥ idle

    The two entries stand for conditions on the calls so far, `GraceAt` and `ClockAt`; the answer is yes
    exactly after a quiet streak that is long enough. -/

namespace MtProxy.MiddleProxy
open Schemes Reinit Config

abbrev FloorKey := ℤ × IpFamily

/-- The maps `adaptive_idle_since` and `adaptive_recover_until`. -/
structure FloorMaps where
  idleSince : FloorKey → Option ℕ
  recoverUntil : FloorKey → Option ℕ

def FloorMaps.new : FloorMaps := ⟨fun _ => none, fun _ => none⟩

/-- What a call finds: the floor mode, the endpoints of the DC, the live writers, what the registry
    answers about them, and the time. -/
structure FloorCall where
  floorMode : MeFloorMode
  endpoints : List SocketAddr
  liveWriterIdsByAddr : SocketAddr → Option (List ℕ)
  isWriterEmpty : ℕ → Bool
  now : ℕ

def hasBoundClientsOnEndpoint (isWriterEmpty : ℕ → Bool) : List ℕ → Bool
  | [] => false
  | writerId :: writerIds =>
    if !isWriterEmpty writerId then true else hasBoundClientsOnEndpoint isWriterEmpty writerIds

/-- Adaptive mode and exactly one endpoint. -/
def FloorCall.Inside (c : FloorCall) : Prop := c.endpoints.length = 1 ∧ c.floorMode = .adaptive

instance (c : FloorCall) : Decidable c.Inside := inferInstanceAs (Decidable (_ ∧ _))

/-- The writers on the one endpoint have clients. -/
def FloorCall.hasBoundClients (c : FloorCall) : Bool :=
  hasBoundClientsOnEndpoint c.isWriterEmpty
    ((c.endpoints[0]?.bind c.liveWriterIdsByAddr).getD [])

section
variable (idleDuration recoverGrace : ℕ) (key : FloorKey)

def shouldReduceFloorForIdle (c : FloorCall) (s : FloorMaps) : Bool × FloorMaps :=
  if c.endpoints.length ≠ 1 ∨ c.floorMode ≠ .adaptive then
    (false, ⟨Function.update s.idleSince key none, Function.update s.recoverUntil key none⟩)
  else if c.hasBoundClients then
    (false, ⟨Function.update s.idleSince key none,
      Function.update s.recoverUntil key (some (c.now + recoverGrace))⟩)
  else if ∃ recoverUntil ∈ s.recoverUntil key, c.now < recoverUntil then
    (false, { s with idleSince := Function.update s.idleSince key none })
  else
    let idleSince := (s.idleSince key).getD c.now
    (decide (idleDuration ≤ c.now - idleSince),
      ⟨Function.update s.idleSince key (some idleSince), Function.update s.recoverUntil key none⟩)

/-- The maps before call `n`. -/
def floorMapsAt (calls : ℕ → FloorCall) : ℕ → FloorMaps
  | 0 => .new
  | n + 1 => (shouldReduceFloorForIdle idleDuration recoverGrace key (calls n) (floorMapsAt calls n)).2

/-- What call `n` answers. -/
def reducesAt (calls : ℕ → FloorCall) (n : ℕ) : Bool :=
  (shouldReduceFloorForIdle idleDuration recoverGrace key (calls n)
    (floorMapsAt idleDuration recoverGrace key calls n)).1

end

/-- `required_writers_for_dc_with_floor_mode`. -/
def requiredWritersForDcWithFloorMode (s : ReinitPool) (floorMode : MeFloorMode)
    (minWritersSingleEndpoint : UInt8) (endpointCount : ℕ) (reduceForIdle : Bool) : ℕ :=
  let baseRequired := requiredWritersForDc s endpointCount
  if !reduceForIdle then baseRequired
  else if endpointCount ≠ 1 ∨ floorMode ≠ .adaptive then baseRequired
  else min baseRequired (max minWritersSingleEndpoint.toNat 1)

/-! ### The calls so far -/

/-- A call that saw a bound client. -/
def FloorCall.SawBound (c : FloorCall) : Prop := c.Inside ∧ c.hasBoundClients = true

/-- A call in the mode that saw none. -/
def FloorCall.SawNone (c : FloorCall) : Prop := c.Inside ∧ c.hasBoundClients = false

/-- Call `b` is the last one before `n` that saw a bound client since the last one outside the mode. -/
def LastBound (calls : ℕ → FloorCall) (b n : ℕ) : Prop :=
  b < n ∧ (calls b).SawBound ∧ ∀ i, b < i → i < n → (calls i).SawNone

/-- Call `n` saw no bound client, and the grace after the last one is over. -/
def QuietAt (recoverGrace : ℕ) (calls : ℕ → FloorCall) (n : ℕ) : Prop :=
  (calls n).SawNone ∧ ∀ b, LastBound calls b n → (calls b).now + recoverGrace ≤ (calls n).now

section
variable {calls : ℕ → FloorCall} {b b' n : ℕ}

theorem LastBound.unique (h : LastBound calls b n) (h' : LastBound calls b' n) : b = b' := by
  obtain ⟨hb, hbound, hnone⟩ := h
  obtain ⟨hb', hbound', hnone'⟩ := h'
  rcases lt_trichotomy b b' with hlt | heq | hgt
  · exact absurd (hnone b' hlt hb').2 (by simp [hbound'.2])
  · exact heq
  · exact absurd (hnone' b hgt hb).2 (by simp [hbound.2])

theorem LastBound.succ (h : LastBound calls b n) (hn : (calls n).SawNone) :
    LastBound calls b (n + 1) := by
  obtain ⟨hb, hbound, hnone⟩ := h
  refine ⟨Nat.lt_succ_of_lt hb, hbound, ?_⟩
  intro i hi hin
  rcases Nat.lt_succ_iff_lt_or_eq.mp hin with hlt | rfl
  · exact hnone i hi hlt
  · exact hn

/-- Before the next call, the last bound client is this call's or was there before. -/
theorem LastBound.cases (h : LastBound calls b (n + 1)) :
    (b = n ∧ (calls n).SawBound) ∨ (LastBound calls b n ∧ (calls n).SawNone) := by
  obtain ⟨hb, hbound, hnone⟩ := h
  rcases Nat.lt_succ_iff_lt_or_eq.mp hb with hlt | rfl
  · exact .inr ⟨⟨hlt, hbound, fun i hi hin => hnone i hi (Nat.lt_succ_of_lt hin)⟩,
      hnone n hlt (Nat.lt_succ_self n)⟩
  · exact .inl ⟨rfl, hbound⟩

variable {recoverGrace : ℕ} {recover : Option ℕ}

/-- What the entry of `recover_until` stands for before call `n`: the end of the grace after the last
    bound client, unless a call has already found it over. -/
structure GraceAt (recoverGrace : ℕ) (calls : ℕ → FloorCall) (n : ℕ) (recover : Option ℕ) :
    Prop where
  pending : ∀ r ∈ recover, ∃ b, LastBound calls b n ∧ (calls b).now + recoverGrace = r
  past : recover = none → ∀ b, LastBound calls b n →
    ∃ i < n, (calls b).now + recoverGrace ≤ (calls i).now

theorem GraceAt.zero : GraceAt recoverGrace calls 0 none where
  pending r hr := by cases hr
  past _ b hb := absurd hb.1 (Nat.not_lt_zero b)

theorem GraceAt.outside (hn : ¬ (calls n).Inside) : GraceAt recoverGrace calls (n + 1) none where
  pending r hr := by cases hr
  past _ b hb := by
    rcases hb.cases with ⟨-, hbound⟩ | ⟨-, hnone⟩
    · exact absurd hbound.1 hn
    · exact absurd hnone.1 hn

theorem GraceAt.bound (hn : (calls n).SawBound) :
    GraceAt recoverGrace calls (n + 1) (some ((calls n).now + recoverGrace)) where
  pending r hr := by
    obtain rfl := Option.some.inj hr
    exact ⟨n, ⟨Nat.lt_succ_self n, hn, fun i hi hin => absurd hin (by omega)⟩, rfl⟩
  past h := by cases h

/-- A call that sees no client leaves a grace that is running. -/
theorem GraceAt.keep (h : GraceAt recoverGrace calls n recover) (hn : (calls n).SawNone)
    (hsome : recover ≠ none) : GraceAt recoverGrace calls (n + 1) recover where
  pending r hr := by
    obtain ⟨b, hb, hbr⟩ := h.pending r hr
    exact ⟨b, hb.succ hn, hbr⟩
  past hnone := absurd hnone hsome

/-- A quiet call finds the grace over. -/
theorem GraceAt.quiet (hn : QuietAt recoverGrace calls n) :
    GraceAt recoverGrace calls (n + 1) none where
  pending r hr := by cases hr
  past _ b hb := by
    rcases hb.cases with ⟨-, hbound⟩ | ⟨hlast, -⟩
    · exact absurd hbound.2 (by simp [hn.1.2])
    · exact ⟨n, Nat.lt_succ_self n, hn.2 b hlast⟩

/-- The entry tells whether a call is quiet. -/
theorem GraceAt.quiet_iff (h : GraceAt recoverGrace calls n recover) (hn : (calls n).SawNone)
    (hmono : Monotone fun n => (calls n).now) :
    QuietAt recoverGrace calls n ↔ ¬ ∃ r ∈ recover, (calls n).now < r := by
  constructor
  · rintro ⟨-, hgrace⟩ ⟨r, hr, hlt⟩
    obtain ⟨b, hb, rfl⟩ := h.pending r hr
    exact absurd (hgrace b hb) (not_le.mpr hlt)
  · intro hnot
    refine ⟨hn, ?_⟩
    intro b hb
    cases hrec : recover with
    | none =>
      obtain ⟨i, hi, hle⟩ := h.past hrec b hb
      exact hle.trans (hmono hi.le)
    | some r =>
      obtain ⟨b', hb', rfl⟩ := h.pending r hrec
      obtain rfl := hb.unique hb'
      exact not_lt.mp fun hlt => hnot ⟨_, hrec, hlt⟩

end

/-! ### One call -/

section
variable {idleDuration recoverGrace : ℕ} {key : FloorKey} {calls : ℕ → FloorCall} {n : ℕ}
  {s : FloorMaps}

/-- Both entries of the key mean what they should before call `n`. -/
structure FloorAt (recoverGrace : ℕ) (key : FloorKey) (calls : ℕ → FloorCall) (n : ℕ)
    (s : FloorMaps) : Prop where
  idle : ClockAt (QuietAt recoverGrace calls) (fun n => (calls n).now) n (s.idleSince key)
  grace : GraceAt recoverGrace calls n (s.recoverUntil key)

/-- A call keeps the meaning of both entries, and its answer is the elapsed time of a quiet streak. -/
theorem shouldReduceFloorForIdle_step (h : FloorAt recoverGrace key calls n s)
    (hmono : Monotone fun n => (calls n).now) :
    FloorAt recoverGrace key calls (n + 1)
        (shouldReduceFloorForIdle idleDuration recoverGrace key (calls n) s).2 ∧
      ((shouldReduceFloorForIdle idleDuration recoverGrace key (calls n) s).1 = true ↔
        QuietAt recoverGrace calls n ∧
          idleDuration ≤ (calls n).now - (s.idleSince key).getD (calls n).now) := by
  unfold shouldReduceFloorForIdle
  split_ifs with houtside hbound hrecover
  · have hnot : ¬ (calls n).Inside := by
      rintro ⟨hone, hmode⟩
      rcases houtside with hne | hne
      · exact hne hone
      · exact hne hmode
    have hquiet : ¬ QuietAt recoverGrace calls n := fun hq => hnot hq.1.1
    refine ⟨⟨?_, ?_⟩, by simp [hquiet]⟩
    · simpa using ClockAt.stop hquiet
    · simpa using GraceAt.outside hnot
  all_goals
    have hin : (calls n).Inside := by
      rw [not_or, not_not, not_not] at houtside
      exact houtside
  · have hquiet : ¬ QuietAt recoverGrace calls n := by
      rintro ⟨⟨-, hnone⟩, -⟩
      rw [hbound] at hnone
      cases hnone
    refine ⟨⟨?_, ?_⟩, by simp [hquiet]⟩
    · simpa using ClockAt.stop hquiet
    · simpa using GraceAt.bound ⟨hin, hbound⟩
  · have hnone : (calls n).SawNone := ⟨hin, by simpa using hbound⟩
    have hquiet : ¬ QuietAt recoverGrace calls n := fun hq =>
      (h.grace.quiet_iff hnone hmono).mp hq hrecover
    have hsome : s.recoverUntil key ≠ none := by
      obtain ⟨r, hr, -⟩ := hrecover
      simp [Option.mem_def.mp hr]
    refine ⟨⟨?_, ?_⟩, by simp [hquiet]⟩
    · simpa using ClockAt.stop hquiet
    · exact h.grace.keep hnone hsome
  · have hnone : (calls n).SawNone := ⟨hin, by simpa using hbound⟩
    have hquiet : QuietAt recoverGrace calls n := (h.grace.quiet_iff hnone hmono).mpr hrecover
    refine ⟨⟨?_, ?_⟩, by simp [hquiet]⟩
    · simpa using h.idle.next hquiet fun u hu => hmono hu.le
    · simpa using GraceAt.quiet hquiet

variable (idleDuration recoverGrace key) in
theorem floorMapsAt_floorAt (hmono : Monotone fun n => (calls n).now) (n : ℕ) :
    FloorAt recoverGrace key calls n (floorMapsAt idleDuration recoverGrace key calls n) := by
  induction n with
  | zero => exact ⟨ClockAt.zero, GraceAt.zero⟩
  | succ n ih => exact (shouldReduceFloorForIdle_step ih hmono).1

end

/-- The required number of writers is lowered only on the answer yes. -/
theorem requiredWriters_lowered {s : ReinitPool} {floorMode : MeFloorMode}
    {minWritersSingleEndpoint : UInt8} {endpointCount : ℕ} {reduceForIdle : Bool}
    (h : requiredWritersForDcWithFloorMode s floorMode minWritersSingleEndpoint endpointCount
      reduceForIdle < requiredWritersForDc s endpointCount) : reduceForIdle = true := by
  cases reduceForIdle with
  | true => rfl
  | false => exact absurd h (lt_irrefl _)

/-- The floor is reduced exactly after a streak of quiet calls that is at least `idle` long, and the
    required number of writers is lowered only then. -/
theorem floor_reduced_after_idleness (idleDuration recoverGrace : ℕ) (key : FloorKey)
    (calls : ℕ → FloorCall) (hmono : Monotone fun n => (calls n).now) (t : ℕ) :
    (reducesAt idleDuration recoverGrace key calls t = true ↔
      ((calls t).floorMode = .adaptive ∧ (calls t).endpoints.length = 1 ∧
        (calls t).hasBoundClients = false) ∧
      ∃ u ≤ t, (calls u).now + idleDuration ≤ (calls t).now ∧ ∀ i, u ≤ i → i ≤ t →
        ((calls i).floorMode = .adaptive ∧ (calls i).endpoints.length = 1 ∧
          (calls i).hasBoundClients = false) ∧
        ∀ b, LastBound calls b i → (calls b).now + recoverGrace ≤ (calls i).now) ∧
    ∀ pool floorMode minWriters,
      requiredWritersForDcWithFloorMode pool floorMode minWriters (calls t).endpoints.length
          (reducesAt idleDuration recoverGrace key calls t) <
        requiredWritersForDc pool (calls t).endpoints.length →
      reducesAt idleDuration recoverGrace key calls t = true := by
  refine ⟨?_, fun _ _ _ => requiredWriters_lowered⟩
  have hat := floorMapsAt_floorAt idleDuration recoverGrace key hmono t
  have hquiet : ∀ i, QuietAt recoverGrace calls i ↔
      ((calls i).floorMode = .adaptive ∧ (calls i).endpoints.length = 1 ∧
        (calls i).hasBoundClients = false) ∧
      ∀ b, LastBound calls b i → (calls b).now + recoverGrace ≤ (calls i).now := by
    intro i
    unfold QuietAt FloorCall.SawNone FloorCall.Inside
    tauto
  rw [reducesAt, (shouldReduceFloorForIdle_step hat hmono).2]
  constructor
  · rintro ⟨hq, hlong⟩
    obtain ⟨u, hu, htime, hheld⟩ := (hat.idle.elapsed_iff hq fun u hu => hmono hu.le).mp hlong
    refine ⟨((hquiet t).mp hq).1, u, hu, htime, ?_⟩
    intro i hui hit
    exact (hquiet i).mp (hheld i hui (Nat.lt_succ_of_le hit))
  · rintro ⟨-, u, hu, htime, hall⟩
    have hq : QuietAt recoverGrace calls t := (hquiet t).mpr (hall t hu le_rfl)
    refine ⟨hq, (hat.idle.elapsed_iff hq fun u hu => hmono hu.le).mpr ⟨u, hu, htime, ?_⟩⟩
    intro i hui hit
    exact (hquiet i).mpr (hall i hui (Nat.lt_succ_iff.mp hit))

/-- A call on one endpoint with two writers, the second of which may have clients. -/
def twoWritersCall (clients : Bool) (now : ℕ) : FloorCall :=
  ⟨.adaptive, [⟨.v4 ⟨[149, 154, 175, 100], rfl⟩, 443⟩], fun _ => some [1, 2],
    fun w => !(clients && w = 2), now⟩

/-- Calls every 10, of which the first sees a client. -/
def clientAtFirst (n : ℕ) : FloorCall := twoWritersCall (n = 0) (10 * n)

/-- With a grace of 15 the streak begins at call 2, and call 4 is the first that is late enough for 20. -/
theorem floor_reduced_after_idleness_after_client :
    reducesAt 20 15 (2, .v4) clientAtFirst 3 = false ∧
      reducesAt 20 15 (2, .v4) clientAtFirst 4 = true := by
  have hmono : Monotone fun n => (clientAtFirst n).now := by
    intro m n hmn
    exact Nat.mul_le_mul_left 10 hmn
  have hfirst : LastBound clientAtFirst 0 1 :=
    ⟨Nat.one_pos, ⟨⟨rfl, rfl⟩, rfl⟩, fun i hi hi' => by omega⟩
  have hlast : ∀ b i, LastBound clientAtFirst b i → b = 0 := by
    rintro b i ⟨-, ⟨-, hbound⟩, -⟩
    by_contra hne
    rw [clientAtFirst, decide_eq_false hne] at hbound
    cases hbound
  constructor
  · refine Bool.eq_false_iff.mpr fun hyes => ?_
    obtain ⟨-, u, -, htime, hall⟩ :=
      (floor_reduced_after_idleness 20 15 (2, .v4) clientAtFirst hmono 3).1.mp hyes
    have hu : 10 * u + 20 ≤ 10 * 3 := htime
    have hgrace : 10 * 0 + 15 ≤ 10 * 1 := (hall 1 (by omega) (by decide)).2 0 hfirst
    omega
  · refine (floor_reduced_after_idleness 20 15 (2, .v4) clientAtFirst hmono 4).1.mpr ?_
    refine ⟨⟨rfl, rfl, rfl⟩, 2, by decide, le_rfl, ?_⟩
    intro i hi _
    have hne : i ≠ 0 := by omega
    refine ⟨⟨rfl, rfl, ?_⟩, ?_⟩
    · rw [clientAtFirst, decide_eq_false hne]
      rfl
    · intro b hb
      obtain rfl := hlast b i hb
      show 10 * 0 + 15 ≤ 10 * i
      omega

end MtProxy.MiddleProxy
