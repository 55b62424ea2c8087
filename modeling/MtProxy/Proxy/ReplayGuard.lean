import MtProxy.Proxy.Handshake
import MtProxy.Stats.ReplayRuns

/-! What the replay checker does for the handshakes, over every sequence of them.

        presented at t₁, inserted          presented again at t₂
        ────┬──────────────────────────────────┬────────────▶
            ╰── remembered until t₁ + window ──┴──╮
            ╰── timestamp suits the clock: less than 1801 s ─╯

    A ClientHello is accepted only once if the checker remembers it for as long as its timestamp
    suits the clock; a timestamp that counts from boot always does. And handshakes of strangers do
    not change what becomes of the others, unless they use up the capacity of a shard or present the
    same key shortly before. -/

namespace MtProxy.Proxy
open Schemes Crypto Protocol Stats Stats.ReplayChecker

/-! ### No ClientHello twice -/

section
variable {R W : Type} (env : Environment W) (config : ProxyConfig)

/-- The ClientHello gets past the replay check and the validation. -/
def passes (checker : ReplayChecker) (handshake : List UInt8) (now : Instant) : Bool :=
  !(checker.checkAndAdd env.hash (digestHalf handshake) now).1 &&
    (validateTlsHandshake env.sha256Hmac handshake config.secrets config.ignoreTimeSkew
      (env.unixTime now)).isSome

/-- In this run, some two presentations of the ClientHello both pass. -/
def PassesTwice (checker : ReplayChecker) (events : List (Event R W)) (handshake : List UInt8) :
    Prop :=
  ∃ pre r₁ w₁ p₁ t₁ mid r₂ w₂ p₂ t₂ post,
    events = pre ++ .tls handshake r₁ w₁ p₁ t₁ :: mid ++ .tls handshake r₂ w₂ p₂ t₂ :: post ∧
    passes env config (after (handle env config) checker pre) handshake t₁ = true ∧
    passes env config (after (handle env config) checker (pre ++ .tls handshake r₁ w₁ p₁ t₁ :: mid))
      handshake t₂ = true

/-- The clock is checked and advances together with the monotonic one, the window is no shorter than
    the allowed skew, the times do not decrease and no shard is over capacity. -/
structure Guarded (totalCapacity window : ℕ) (events : List (Event R W)) : Prop where
  checksTime : config.ignoreTimeSkew = false
  clocks : ∀ a b, env.wall a + b = env.wall b + a
  window_le : (timeSkewMax - timeSkewMin) * nanosPerSec ≤ window
  inOrder : (opsOf events).Pairwise (fun a b => b.key ≠ none → a.now ≤ b.now)
  withinCapacity : WithinCapacity env.hash (max (totalCapacity / numShards) 1) window
    (ReplayChecker.new totalCapacity window) (opsOf events)

end

section
variable {R W : Type} {env : Environment W} {config : ProxyConfig} {handshake : List UInt8}

/-- Whether the secrets of two users could both fit a ClientHello without giving it the same
    timestamp: their HMACs would agree in 28 bytes of 32. -/
def HmacsApart (env : Environment W) (config : ProxyConfig) (handshake : List UInt8) : Prop :=
  ∀ s₁ ∈ config.secrets.map Prod.snd, ∀ s₂ ∈ config.secrets.map Prod.snd,
    (env.sha256Hmac s₁ (hmacMessage handshake)).toList.take 28 =
      (env.sha256Hmac s₂ (hmacMessage handshake)).toList.take 28 →
    env.sha256Hmac s₁ (hmacMessage handshake) = env.sha256Hmac s₂ (hmacMessage handshake)

theorem timestampUnder_unique (hapart : HmacsApart env config handshake)
    (hlen : tlsDigestPos + tlsDigestLen ≤ handshake.length) {s₁ s₂ : List UInt8} {ts₁ ts₂ : ℕ}
    (hmem₁ : s₁ ∈ config.secrets.map Prod.snd) (hmem₂ : s₂ ∈ config.secrets.map Prod.snd)
    (h₁ : timestampUnder env.sha256Hmac handshake s₁ = some ts₁)
    (h₂ : timestampUnder env.sha256Hmac handshake s₂ = some ts₂) : ts₁ = ts₂ := by
  have heq := hapart s₁ hmem₁ s₂ hmem₂
    ((timestampUnder_some hlen h₁).symm.trans (timestampUnder_some hlen h₂))
  unfold timestampUnder at h₁ h₂
  rw [heq] at h₁
  exact Option.some.inj (h₁.symm.trans h₂)

/-- Two times that both suit one timestamp are less than 1801 seconds apart: the skew, and the
    fractions that the wall clock leaves out. -/
theorem timeOk_apart (hclocks : ∀ a b, env.wall a + b = env.wall b + a) {ts : ℕ} {t₁ t₂ : Instant}
    (hboot : isBootTime ts = false) (h₁ : timeOk false (env.unixTime t₁) ts = true)
    (h₂ : timeOk false (env.unixTime t₂) ts = true) : t₂ < t₁ + 1801 * nanosPerSec := by
  have hmin := ((timeOk_iff hboot).mp h₁).1
  have hmax := ((timeOk_iff hboot).mp h₂).2
  have hwall : env.wall t₂ < env.wall t₁ + 1801 * nanosPerSec := by
    simp only [Environment.unixTime, timeSkewMin, timeSkewMax, nanosPerSec] at hmin hmax ⊢
    omega
  have htogether := hclocks t₁ t₂
  refine Nat.lt_of_add_lt_add_left (n := env.wall t₁) ?_
  calc env.wall t₁ + t₂ = env.wall t₂ + t₁ := htogether
    _ < env.wall t₁ + 1801 * nanosPerSec + t₁ := Nat.add_lt_add_right hwall t₁
    _ = env.wall t₁ + (t₁ + 1801 * nanosPerSec) := by ring

/-- With a window of at least 1801 seconds, no ClientHello passes twice whose timestamp does not
    count from boot. -/
theorem hello_passes_once (env : Environment W) (config : ProxyConfig) (totalCapacity window : ℕ)
    (events : List (Event R W)) (hguarded : Guarded env config totalCapacity window events)
    (hwindow : 1801 * nanosPerSec ≤ window) (hrep : ∀ op ∈ opsOf events, window ≤ op.now)
    (handshake : List UInt8) (hapart : HmacsApart env config handshake)
    (hboot : ∀ secret ∈ config.secrets.map Prod.snd,
      ∀ timestamp ∈ timestampUnder env.sha256Hmac handshake secret, isBootTime timestamp = false) :
    ¬ PassesTwice env config (ReplayChecker.new totalCapacity window) events handshake := by
  rintro ⟨pre, r₁, w₁, p₁, t₁, mid, r₂, w₂, p₂, t₂, post, hevents, hfirst, hsecond⟩
  rw [passes, Bool.and_eq_true, hguarded.checksTime, after_handle] at hfirst hsecond
  obtain ⟨hlen, ts₁, htime₁, s₁, hmem₁, hts₁⟩ := validateTlsHandshake_some hfirst.2
  obtain ⟨-, ts₂, htime₂, s₂, hmem₂, hts₂⟩ := validateTlsHandshake_some hsecond.2
  obtain rfl := timestampUnder_unique hapart hlen.le hmem₁ hmem₂ hts₁ hts₂
  have hlt := timeOk_apart hguarded.clocks (hboot s₁ hmem₁ ts₁ hts₁) htime₁ htime₂
  have hop : ∀ r w p t, (Event.tls handshake r w p t : Event R W).op =
      some (.checkAndAdd (digestHalf handshake) t) := fun r w p t =>
    if_neg (Nat.not_lt.mpr (Nat.succ_le_of_lt hlen))
  have hpre : opsOf (pre ++ Event.tls handshake r₁ w₁ p₁ t₁ :: mid) =
      opsOf pre ++ .checkAndAdd (digestHalf handshake) t₁ :: opsOf mid := by
    simp [opsOf, List.filterMap_append, hop]
  have hops : opsOf events = opsOf pre ++ .checkAndAdd (digestHalf handshake) t₁ :: opsOf mid ++
      .checkAndAdd (digestHalf handshake) t₂ :: opsOf post := by
    rw [hevents, ← hpre]
    simp [opsOf, List.filterMap_append, hop]
  have hagain := checkAndAdd_again ⟨hguarded.inOrder, hrep⟩ (exact_new totalCapacity window)
    hguarded.withinCapacity hops (by simpa using hfirst.1)
    (.inr (hlt.le.trans (Nat.add_le_add_left hwindow t₁)))
  rw [hpre, hagain] at hsecond
  exact absurd hsecond.1 (by simp)

end

/-! ### Hellos that pass twice -/

/-- The first eleven bytes of a ClientHello of 517 bytes. -/
def helloStart : List UInt8 := [22, 3, 1, 2, 0, 1, 0, 1, 252, 3, 3]

/-- A ClientHello with this digest, an empty session id and nothing but zeros behind it. -/
def helloOf (digest : List UInt8) : List UInt8 := helloStart ++ digest ++ List.replicate 474 0

/-- HMAC-SHA256 of `helloOf` with a zeroed digest, under the secret `00 01 ⋯ 0f`. -/
def helloMac : List UInt8 :=
  [12, 241, 193, 149, 237, 240, 146, 146, 12, 192, 97, 57, 174, 119, 200, 95, 117, 60, 146, 41, 244,
    47, 116, 162, 44, 9, 243, 134, 52, 219, 60, 117]

theorem length_helloMac : helloMac.length = tlsDigestLen := rfl

theorem length_noMac : (List.replicate tlsDigestLen (0 : UInt8)).length = tlsDigestLen := rfl

/-- The hello of the user with that secret, at the given time of the client's clock. -/
def userHello (timestamp : ℕ) : List UInt8 :=
  helloOf (helloMac.take 28 ++ List.zipWith (· ^^^ ·) (helloMac.drop 28) (leBytes 4 timestamp))

/-- The HMAC as it is on these hellos. -/
def helloHmac (secret message : List UInt8) : Block UInt8 tlsDigestLen :=
  if secret = (List.range 16).map UInt8.ofNat ∧ message = helloOf (List.replicate tlsDigestLen 0)
  then ⟨helloMac, length_helloMac⟩ else ⟨List.replicate tlsDigestLen 0, length_noMac⟩

/-- An environment whose wall clock is ahead of the monotonic one by `offset`. -/
def helloEnv (offset : ℕ) : Environment Unit where
  hash := fun _ => 0
  sha256 := fun _ => ⟨List.replicate keyLen 0, length_noMac⟩
  sha256Hmac := helloHmac
  aes := fun _ _ _ => 0
  buildServerHello := fun _ _ _ _ _ => []
  writeAll := fun w _ => .ok w
  flush := .ok
  wall := fun now => now + offset

def helloConfig : ProxyConfig where
  users := [("user", "000102030405060708090a0b0c0d0e0f".toList)]
  ignoreTimeSkew := false
  classic := false
  secure := false
  tls := true
  cryptoPendingBuffer := 65536

/-- The same ClientHello at two times. -/
def twice (handshake : List UInt8) (t₁ t₂ : Instant) : List (Event Unit Unit) :=
  [.tls handshake () () samplePeer t₁, .tls handshake () () samplePeer t₂]

theorem passesTwice_of_both {env : Environment Unit} {config : ProxyConfig}
    {checker : ReplayChecker} {handshake : List UInt8} {t₁ t₂ : Instant}
    (h : (passes env config checker handshake t₁ &&
      passes env config (after (handle env config) checker
        [Event.tls handshake () () samplePeer t₁]) handshake t₂) = true) :
    PassesTwice env config checker (twice handshake t₁ t₂) handshake := by
  rw [Bool.and_eq_true] at h
  exact ⟨[], (), (), samplePeer, t₁, [], (), (), samplePeer, t₂, [], rfl, h.1, h.2⟩

theorem guarded_twice {offset totalCapacity window t₁ t₂ : ℕ} {handshake : List UInt8}
    {hmac : List UInt8 → List UInt8 → Block UInt8 tlsDigestLen} {config : ProxyConfig}
    (hchecks : config.ignoreTimeSkew = false) (hwindow : (timeSkewMax - timeSkewMin) * nanosPerSec ≤ window)
    (hops : (opsOf (twice handshake t₁ t₂)).Pairwise (fun a b => b.key ≠ none → a.now ≤ b.now))
    (hcap : ∀ n : Fin (opsOf (twice handshake t₁ t₂)).length,
      (opsOf (twice handshake t₁ t₂))[n].key ≠ none → ∀ i, (liveKeys window
        (opsOf (twice handshake t₁ t₂))[n].now ((after (call fun _ => 0)
          (ReplayChecker.new totalCapacity window)
          ((opsOf (twice handshake t₁ t₂)).take (n + 1))).shards i).inserted).card ≤
            max (totalCapacity / numShards) 1) :
    Guarded { helloEnv offset with sha256Hmac := hmac } config totalCapacity window
      (twice handshake t₁ t₂) :=
  ⟨hchecks, fun a b => by simp only [helloEnv]; omega, hwindow, hops, withinCapacity_of_take hcap⟩

/-- A hello with a timestamp from boot, again after 2000 seconds. -/
def bootRun : List (Event Unit Unit) :=
  twice (userHello 1000) (1700000000 * nanosPerSec) (1700002000 * nanosPerSec)

/-- A hello 1200 seconds ahead, again when it is half a second more than 600 seconds behind. -/
def halfSecondRun : List (Event Unit Unit) :=
  twice (userHello 1700001200) (1700000000 * nanosPerSec)
    (1700001800 * nanosPerSec + nanosPerSec / 2)

/-- A hello 10 seconds after the monotonic clock was started, and again 10 seconds later. -/
def earlyRun : List (Event Unit Unit) :=
  twice (userHello 1700000000) (10 * nanosPerSec) (20 * nanosPerSec)

/-- What the HMAC is under a second secret: the same but for the last four bytes, so that the hello of the
    first user is one of the second user a day later. -/
def twinMac : List UInt8 :=
  helloMac.take 28 ++ List.zipWith (· ^^^ ·) (helloMac.drop 28)
    (List.zipWith (· ^^^ ·) (leBytes 4 1700000000) (leBytes 4 1700086400))

theorem length_twinMac : twinMac.length = tlsDigestLen := by decide

def twinHmac (secret message : List UInt8) : Block UInt8 tlsDigestLen :=
  if secret = List.replicate 16 255 ∧ message = helloOf (List.replicate tlsDigestLen 0)
  then ⟨twinMac, length_twinMac⟩ else helloHmac secret message

def twinConfig : ProxyConfig :=
  { helloConfig with users := helloConfig.users ++ [("twin", List.replicate 32 'f')] }

/-- A hello of the one user, and a day later of the other. -/
def twinRun : List (Event Unit Unit) :=
  twice (userHello 1700000000) (1700000000 * nanosPerSec) (1700086400 * nanosPerSec)

/-- A timestamp that counts from boot suits the clock at any time; with a window of exactly the skew,
    half a second of it is left out by a clock of whole seconds; while the monotonic clock shows less
    than the window, everything is forgotten at once; and where the HMACs under two secrets agree in 28
    bytes, a hello has a timestamp under either. -/
theorem hello_passes_twice :
    (Guarded (helloEnv 0) helloConfig 64 (1800 * nanosPerSec) bootRun ∧
      PassesTwice (helloEnv 0) helloConfig (ReplayChecker.new 64 (1800 * nanosPerSec)) bootRun
        (userHello 1000)) ∧
    (Guarded (helloEnv 0) helloConfig 64 (1800 * nanosPerSec) halfSecondRun ∧
      PassesTwice (helloEnv 0) helloConfig (ReplayChecker.new 64 (1800 * nanosPerSec)) halfSecondRun
        (userHello 1700001200)) ∧
    (Guarded (helloEnv (1700000000 * nanosPerSec)) helloConfig 64 (3600 * nanosPerSec) earlyRun ∧
      PassesTwice (helloEnv (1700000000 * nanosPerSec)) helloConfig
        (ReplayChecker.new 64 (3600 * nanosPerSec)) earlyRun (userHello 1700000000)) ∧
    Guarded { helloEnv 0 with sha256Hmac := twinHmac } twinConfig 64 (3600 * nanosPerSec) twinRun ∧
      PassesTwice { helloEnv 0 with sha256Hmac := twinHmac } twinConfig
        (ReplayChecker.new 64 (3600 * nanosPerSec)) twinRun (userHello 1700000000) := by
  refine ⟨⟨guarded_twice rfl (by decide) (by decide +kernel) (by decide +kernel), ?_⟩,
    ⟨guarded_twice rfl (by decide) (by decide +kernel) (by decide +kernel), ?_⟩,
    ⟨guarded_twice rfl (by decide) (by decide +kernel) (by decide +kernel), ?_⟩,
    guarded_twice rfl (by decide) (by decide +kernel) (by decide +kernel), ?_⟩
  · exact passesTwice_of_both (by decide +kernel)
  · exact passesTwice_of_both (by decide +kernel)
  · exact passesTwice_of_both (by decide +kernel)
  · exact passesTwice_of_both (by decide +kernel)

theorem hello_passes_once_halfSecondRun :
    ¬ PassesTwice (helloEnv 0) helloConfig (ReplayChecker.new 64 (1801 * nanosPerSec)) halfSecondRun
      (userHello 1700001200) :=
  hello_passes_once (helloEnv 0) helloConfig 64 (1801 * nanosPerSec) halfSecondRun
    (guarded_twice rfl (by decide) (by decide +kernel) (by decide +kernel)) (le_refl _)
    (by decide +kernel) (userHello 1700001200) (by unfold HmacsApart; decide +kernel)
    (by decide +kernel)

/-! ### Strangers -/

def Reply.isSuccess {R W : Type} : Reply R W → Bool
  | .tls (.success _) => true
  | .mtproto (.success _) => true
  | _ => false

section
variable {R W : Type} (env : Environment W) (config : ProxyConfig)

/-- A handshake that fits no secret of the configuration. -/
def isStranger : Event R W → Bool
  | .tls handshake _ _ _ _ =>
    config.secrets.all fun user => (timestampUnder env.sha256Hmac handshake user.2).isNone
  | .mtproto handshake _ _ _ _ _ =>
    config.secrets.all fun user =>
      let (decKey, decIv) := deriveKey env (decPrekeyIv handshake) user.2
      let (decrypted, _) := (AesCtr.new env.aes decKey decIv).apply handshake.toList
      (ProtoTag.fromBytes (slice decrypted protoTagPos 4)).isNone
  | .cleanup _ _ => false

/-- The operations on the checker, with their marks. -/
def markedOps (run : Marked (Event R W)) : Marked Op :=
  run.filterMap fun marked => marked.2.op.map (Prod.mk marked.1)

theorem everything_markedOps (run : Marked (Event R W)) :
    everything (markedOps run) = opsOf (everything run) := by
  induction run with
  | nil => rfl
  | cons first run ih =>
    obtain ⟨m, e⟩ := first
    simp only [everything, markedOps, opsOf, List.map_cons, List.filterMap_cons] at ih ⊢
    cases e.op with
    | none => exact ih
    | some op => exact congrArg (op :: ·) ih

theorem common_markedOps (run : Marked (Event R W)) :
    common (markedOps run) = opsOf (common run) := by
  induction run with
  | nil => rfl
  | cons first run ih =>
    obtain ⟨m, e⟩ := first
    simp only [common, markedOps, opsOf, List.filterMap_cons, List.filter_cons] at ih ⊢
    cases m <;> cases h : e.op
    · exact ih
    · exact ih
    · simpa [h] using ih
    · simpa [h] using ih

/-- While no shard is over capacity, a handshake gets the same verdict and the same result with and
    without additional handshakes, if none of these presented its key within the window before. -/
theorem strangers_harmless (totalCapacity window : ℕ) (run : Marked (Event R W))
    (htimely : Timely window (opsOf (everything run)))
    (hcap : WithinCapacity env.hash (max (totalCapacity / numShards) 1) window
      (ReplayChecker.new totalCapacity window) (opsOf (everything run)))
    (hapart : KeysApart window (markedOps run)) :
    ∀ pre e post, run = pre ++ (true, e) :: post →
      let without := after (handle env config) (ReplayChecker.new totalCapacity window) (common pre)
      let within :=
        after (handle env config) (ReplayChecker.new totalCapacity window) (everything pre)
      verdict env without e = verdict env within e ∧
        (handle env config without e).1 = (handle env config within e).1 := by
  intro pre e post hrun without within
  have hverdict : verdict env without e = verdict env within e := by
    rw [verdict, verdict]
    cases hop : e.op with
    | none => rfl
    | some op =>
      have hmarked : markedOps run = markedOps pre ++ (true, op) :: markedOps post := by
        simp [hrun, markedOps, hop]
      rw [← everything_markedOps] at htimely hcap
      cases op with
      | checkAndAdd key now =>
        simp only [Option.bind_some, call, without, within, after_handle, ← everything_markedOps,
          ← common_markedOps]
        exact congrArg some (checkAndAdd_alike htimely (exact_new totalCapacity window) hcap hapart
          hmarked)
      | addOnly key now => rfl
      | cleanup idx now => rfl
  exact ⟨hverdict, handle_reply hverdict⟩

end

/-- The digest of a stranger: sixteen bytes of some other digest, and zeros. -/
def strangerHello (start : List UInt8) (now : Instant) : Event Unit Unit :=
  .tls (helloOf (start ++ List.replicate 16 0)) () () samplePeer now

def genuineHello (now : Instant) : Event Unit Unit :=
  .tls (userHello 1700000000) () () samplePeer now

def firstSecond : Instant := 1700000000 * nanosPerSec

/-- A stranger with the first half of the digest of a genuine hello. -/
def copiedRun : Marked (Event Unit Unit) :=
  [(false, strangerHello (helloMac.take 16) firstSecond),
    (true, genuineHello (firstSecond + nanosPerSec))]

/-- A stranger between a genuine hello and its replay, in a shard for one key. -/
def evictingRun : Marked (Event Unit Unit) :=
  [(true, genuineHello firstSecond),
    (false, strangerHello (List.replicate 16 1) (firstSecond + nanosPerSec)),
    (true, genuineHello (firstSecond + 2 * nanosPerSec))]

/-- A stranger between a genuine hello and its replay, while the monotonic clock shows less than a
    window of 100 seconds. -/
def startupRun : Marked (Event Unit Unit) :=
  [(true, genuineHello (10 * nanosPerSec)),
    (false, strangerHello (List.replicate 16 1) (20 * nanosPerSec)),
    (true, genuineHello (105 * nanosPerSec))]

/-- Verdict and success of a handshake after some others. -/
def outcome (offset totalCapacity window : ℕ) (events : List (Event Unit Unit))
    (e : Event Unit Unit) : Option Bool × Bool :=
  let checker := after (handle (helloEnv offset) helloConfig)
    (ReplayChecker.new totalCapacity window) events
  (verdict (helloEnv offset) checker e,
    (handle (helloEnv offset) helloConfig checker e).1.isSuccess)

/-- A stranger makes a genuine first hello be refused as a replay, and a replay be accepted: in a
    shard for one key, or where `now - window` is not representable. -/
theorem strangers_interfere :
    (∀ offset e, (false, e) ∈ copiedRun ++ evictingRun ++ startupRun →
      isStranger (helloEnv offset) helloConfig e = true) ∧
    (let e := genuineHello (firstSecond + nanosPerSec)
     outcome 0 64 (1800 * nanosPerSec) (common (copiedRun.take 1)) e = (some false, true) ∧
       outcome 0 64 (1800 * nanosPerSec) (everything (copiedRun.take 1)) e = (some true, false)) ∧
    (let e := genuineHello (firstSecond + 2 * nanosPerSec)
     outcome 0 64 (1800 * nanosPerSec) (common (evictingRun.take 2)) e = (some true, false) ∧
       outcome 0 64 (1800 * nanosPerSec) (everything (evictingRun.take 2)) e =
          (some false, true)) ∧
    (let e := genuineHello (105 * nanosPerSec)
     outcome firstSecond 128 (100 * nanosPerSec) (common (startupRun.take 2)) e =
          (some true, false) ∧
       outcome firstSecond 128 (100 * nanosPerSec) (everything (startupRun.take 2)) e =
          (some false, true)) := by
  refine ⟨?_, ⟨by decide +kernel, by decide +kernel⟩, ⟨by decide +kernel, by decide +kernel⟩,
    by decide +kernel, by decide +kernel⟩
  intro offset e he
  have hclock : isStranger (helloEnv offset) helloConfig e = isStranger (helloEnv 0) helloConfig e :=
    rfl
  rw [hclock]
  simp only [copiedRun, evictingRun, startupRun, List.cons_append, List.nil_append, List.mem_cons,
    Prod.mk.injEq, Bool.false_eq_true, false_and, true_and, List.not_mem_nil, or_false,
    false_or] at he
  rcases he with rfl | rfl | rfl
  · decide +kernel
  · decide +kernel
  · decide +kernel

/-- With room for both keys in the shard, the replay gets the same verdict. -/
theorem strangers_harmless_evictingRun :
    let start := ReplayChecker.new 128 (1800 * nanosPerSec)
    let e := genuineHello (firstSecond + 2 * nanosPerSec)
    verdict (helloEnv 0) (after (handle (helloEnv 0) helloConfig) start
      (common (evictingRun.take 2))) e =
        verdict (helloEnv 0) (after (handle (helloEnv 0) helloConfig) start
          (everything (evictingRun.take 2))) e :=
  (strangers_harmless (helloEnv 0) helloConfig 128 (1800 * nanosPerSec) evictingRun
    ⟨by decide +kernel, by decide +kernel⟩ (withinCapacity_of_take (by decide +kernel))
    (keysApart_of_pairwise (by decide +kernel)) (evictingRun.take 2)
    (genuineHello (firstSecond + 2 * nanosPerSec)) [] rfl).1

end MtProxy.Proxy
