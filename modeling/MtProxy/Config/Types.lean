import MtProxy.Stats.UserStats

/-! The configuration, as far as hot reload, the user limits and the checks of `validate` read it. The
    values of the fields are the source's defaults. -/

namespace MtProxy.Config
open Stats

inductive LogLevel where
  | debug | verbose | normal | silent
  deriving DecidableEq

inductive MeSocksKdfPolicy where
  | strict | compat
  deriving DecidableEq

inductive MeFloorMode where
  | static | adaptive
  deriving DecidableEq

/-- An `f32` between 0 and 1, by its bits: `load` rejects all others, NaN included. The two zeros
    are different bits of equal numbers. -/
structure UnitF32 where
  bits : UInt32
  valid : bits ≤ 0x3f800000 ∨ bits = 0x80000000
  deriving DecidableEq

namespace UnitF32

def fourFifths : UnitF32 :=
  ⟨0x3f4ccccd, .inl (UInt32.le_iff_toNat_le.mpr (Nat.le_of_ble_eq_true rfl))⟩

/-- The bits of the number, with one zero only. -/
def value (x : UnitF32) : UInt32 := if x.bits = 0x80000000 then 0 else x.bits

/-- The comparison of the numbers. -/
def eq (x y : UnitF32) : Bool := x.value = y.value

end UnitF32

structure ProxyModes where
  classic : Bool := false
  secure : Bool := false
  tls : Bool := true
  deriving DecidableEq

structure TelemetryConfig where
  coreEnabled : Bool := true
  userEnabled : Bool := true
  meLevel : MeTelemetryLevel := .normal
  deriving DecidableEq

/-- `TelemetryPolicy::from_config`. -/
def TelemetryConfig.policy (cfg : TelemetryConfig) : TelemetryPolicy :=
  ⟨cfg.coreEnabled, cfg.userEnabled, cfg.meLevel⟩

structure GeneralConfig where
  modes : ProxyModes := {}
  useMiddleProxy : Bool := true
  adTag : Option String := none
  middleProxyPoolSize : ℕ := 8
  meKeepaliveEnabled : Bool := true
  meKeepaliveIntervalSecs : ℕ := 8
  meKeepaliveJitterSecs : ℕ := 2
  meKeepalivePayloadRandom : Bool := true
  desyncAllFull : Bool := false
  hardswap : Bool := true
  meFloorMode : MeFloorMode := .static
  meAdaptiveFloorIdleSecs : ℕ := 90
  meAdaptiveFloorMinWritersSingleEndpoint : UInt8 := 1
  meAdaptiveFloorRecoverGraceSecs : ℕ := 180
  logLevel : LogLevel := .normal
  telemetry : TelemetryConfig := {}
  meSocksKdfPolicy : MeSocksKdfPolicy := .strict
  meRouteBackpressureBaseTimeoutMs : ℕ := 25
  meRouteBackpressureHighTimeoutMs : ℕ := 120
  meRouteBackpressureHighWatermarkPct : UInt8 := 80
  updateEvery : Option ℕ := some 300
  mePoolDrainTtlSecs : ℕ := 90
  mePoolMinFreshRatio : UnitF32 := .fourFifths
  meReinitDrainTimeoutSecs : ℕ := 120
  proxySecretAutoReloadSecs : ℕ := 3600
  proxyConfigAutoReloadSecs : ℕ := 3600
  deriving DecidableEq

/-- `update_every` has priority over the two legacy intervals. -/
def GeneralConfig.effectiveUpdateEverySecs (cfg : GeneralConfig) : ℕ :=
  cfg.updateEvery.getD (min cfg.proxySecretAutoReloadSecs cfg.proxyConfigAutoReloadSecs)

def defaultStunServers : List String :=
  ["stun.l.google.com:5349", "stun1.l.google.com:3478", "stun.gmx.net:3478",
    "stun.l.google.com:19302", "stun.1und1.de:3478", "stun1.l.google.com:19302",
    "stun2.l.google.com:19302", "stun3.l.google.com:19302", "stun4.l.google.com:19302",
    "stun.services.mozilla.com:3478", "stun.stunprotocol.org:3478", "stun.nextcloud.com:3478",
    "stun.voip.eutelia.it:3478"]

structure NetworkConfig where
  ipv4 : Bool := true
  ipv6 : Option Bool := some false
  prefer : UInt8 := 4
  multipath : Bool := false
  stunUse : Bool := true
  stunServers : List String := defaultStunServers
  stunTcpFallback : Bool := true
  httpIpDetectUrls : List String := ["https://ifconfig.me/ip", "https://api.ipify.org"]
  cachePublicIpPath : String := "cache/public_ip.txt"
  dnsOverrides : List String := []
  deriving DecidableEq

structure AntiCensorshipConfig where
  tlsDomain : String := "petrovich.ru"
  tlsDomains : List String := []
  mask : Bool := true
  maskHost : Option String := none
  maskPort : UInt16 := 443
  maskUnixSock : Option String := none
  fakeCertLen : ℕ := 2048
  tlsEmulation : Bool := true
  tlsFrontDir : String := "tlsfront"
  serverHelloDelayMinMs : ℕ := 0
  serverHelloDelayMaxMs : ℕ := 0
  tlsNewSessionTickets : UInt8 := 0
  tlsFullCertTtlSecs : ℕ := 90
  alpnEnforce : Bool := true
  maskProxyProtocol : UInt8 := 0
  deriving DecidableEq

/-- The expirations are instants of the wall clock, in nanoseconds. -/
structure AccessConfig where
  users : UserMap String := (∅ : UserMap String).insert "default" "00000000000000000000000000000000"
  userAdTags : UserMap String := ∅
  userMaxTcpConns : UserMap ℕ := ∅
  userExpirations : UserMap ℤ := ∅
  userDataQuota : UserMap ℕ := ∅
  userMaxUniqueIps : UserMap ℕ := ∅
  replayCheckLen : ℕ := 65536
  replayWindowSecs : ℕ := 1800
  ignoreTimeSkew : Bool := false
  deriving DecidableEq

/-- Of `server` the port only. -/
structure ProxyConfig where
  general : GeneralConfig := {}
  network : NetworkConfig := {}
  serverPort : UInt16 := 443
  censorship : AntiCensorshipConfig := {}
  access : AccessConfig := {}
  deriving DecidableEq

end MtProxy.Config
