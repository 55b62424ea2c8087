import MtProxy.Config.Types
import MtProxy.Network.DnsOverrides

/-! `reload_config`: a changed configuration file is loaded, validated and compared with the visible
    configuration in the hot fields; if these differ, it is published.

        file ──load──▶ ──validate──▶ hot fields differ? ──▶ publish the whole file
          │ error         │ error      │ no
          ▼               ▼            ▼
                     keep the visible one

    The comparison is of the hot fields only, but what is published is everything the file says, the
    settings that take a restart included. -/

namespace MtProxy.Config
open Schemes Network

structure HotFields where
  logLevel : LogLevel
  adTag : Option String
  dnsOverrides : List String
  middleProxyPoolSize : ℕ
  desyncAllFull : Bool
  updateEverySecs : ℕ
  hardswap : Bool
  mePoolDrainTtlSecs : ℕ
  mePoolMinFreshRatio : UnitF32
  meReinitDrainTimeoutSecs : ℕ
  meKeepaliveEnabled : Bool
  meKeepaliveIntervalSecs : ℕ
  meKeepaliveJitterSecs : ℕ
  meKeepalivePayloadRandom : Bool
  telemetryCoreEnabled : Bool
  telemetryUserEnabled : Bool
  telemetryMeLevel : MeTelemetryLevel
  meSocksKdfPolicy : MeSocksKdfPolicy
  meFloorMode : MeFloorMode
  meAdaptiveFloorIdleSecs : ℕ
  meAdaptiveFloorMinWritersSingleEndpoint : UInt8
  meAdaptiveFloorRecoverGraceSecs : ℕ
  meRouteBackpressureBaseTimeoutMs : ℕ
  meRouteBackpressureHighTimeoutMs : ℕ
  meRouteBackpressureHighWatermarkPct : UInt8
  access : AccessConfig
  deriving DecidableEq

namespace HotFields

def fromConfig (cfg : ProxyConfig) : HotFields where
  logLevel := cfg.general.logLevel
  adTag := cfg.general.adTag
  dnsOverrides := cfg.network.dnsOverrides
  middleProxyPoolSize := cfg.general.middleProxyPoolSize
  desyncAllFull := cfg.general.desyncAllFull
  updateEverySecs := cfg.general.effectiveUpdateEverySecs
  hardswap := cfg.general.hardswap
  mePoolDrainTtlSecs := cfg.general.mePoolDrainTtlSecs
  mePoolMinFreshRatio := cfg.general.mePoolMinFreshRatio
  meReinitDrainTimeoutSecs := cfg.general.meReinitDrainTimeoutSecs
  meKeepaliveEnabled := cfg.general.meKeepaliveEnabled
  meKeepaliveIntervalSecs := cfg.general.meKeepaliveIntervalSecs
  meKeepaliveJitterSecs := cfg.general.meKeepaliveJitterSecs
  meKeepalivePayloadRandom := cfg.general.meKeepalivePayloadRandom
  telemetryCoreEnabled := cfg.general.telemetry.coreEnabled
  telemetryUserEnabled := cfg.general.telemetry.userEnabled
  telemetryMeLevel := cfg.general.telemetry.meLevel
  meSocksKdfPolicy := cfg.general.meSocksKdfPolicy
  meFloorMode := cfg.general.meFloorMode
  meAdaptiveFloorIdleSecs := cfg.general.meAdaptiveFloorIdleSecs
  meAdaptiveFloorMinWritersSingleEndpoint := cfg.general.meAdaptiveFloorMinWritersSingleEndpoint
  meAdaptiveFloorRecoverGraceSecs := cfg.general.meAdaptiveFloorRecoverGraceSecs
  meRouteBackpressureBaseTimeoutMs := cfg.general.meRouteBackpressureBaseTimeoutMs
  meRouteBackpressureHighTimeoutMs := cfg.general.meRouteBackpressureHighTimeoutMs
  meRouteBackpressureHighWatermarkPct := cfg.general.meRouteBackpressureHighWatermarkPct
  access := cfg.access

/-- The derived `PartialEq`: the ratio is compared as a number. -/
def eq (a b : HotFields) : Bool :=
  a.mePoolMinFreshRatio.eq b.mePoolMinFreshRatio &&
    { a with mePoolMinFreshRatio := b.mePoolMinFreshRatio } = b

theorem eq_refl (a : HotFields) : a.eq a = true := by simp [eq, UnitF32.eq]

end HotFields

/-! ### Validation -/

/-- What `validate` finds wrong. With invalid ad tags the message names the first user in the order
    of the map. -/
inductive ConfigError where
  | noUsers
  | noModes
  | invalidTlsDomain (domain : String)
  | invalidAdTags (users : Finset String)
  | dnsOverrides (message : String)
  deriving DecidableEq

def isAsciiHexdigit (c : Char) : Bool :=
  c.isDigit || ('a' ≤ c && c ≤ 'f') || ('A' ≤ c && c ≤ 'F')

/-- The length is in bytes: with a longer character the second check fails. -/
def isValidAdTag (tag : String) : Bool := tag.utf8ByteSize = 32 && tag.toList.all isAsciiHexdigit

def invalidAdTags (tags : UserMap String) : Finset String :=
  tags.keys.filter fun user => (tags.lookup user).any fun tag => !isValidAdTag tag

section
variable (parsers : AddrParsers)

def ProxyConfig.validate (cfg : ProxyConfig) : Except ConfigError Unit :=
  if cfg.access.users = ∅ then .error .noUsers
  else if !cfg.general.modes.classic && !cfg.general.modes.secure && !cfg.general.modes.tls then
    .error .noModes
  else if cfg.censorship.tlsDomain.toList.contains ' ' || cfg.censorship.tlsDomain.toList.contains '/'
  then .error (.invalidTlsDomain cfg.censorship.tlsDomain)
  else if invalidAdTags cfg.access.userAdTags ≠ ∅ then
    .error (.invalidAdTags (invalidAdTags cfg.access.userAdTags))
  else (validateEntries parsers cfg.network.dnsOverrides).mapError .dnsOverrides

/-- What a reload sets: the two watch channels and the runtime DNS overrides. -/
structure Watched where
  config : ProxyConfig
  logLevel : LogLevel
  overrides : OverrideMap

/-- What `ProxyConfig::load` returns for the file, with its error message. -/
abbrev LoadedFile := Except String ProxyConfig

/-- `config_tx.send`, after the log level was sent if it changed. -/
def publish (s : Watched) (oldHot newHot : HotFields) (newCfg : ProxyConfig) (overrides : OverrideMap) :
    Watched :=
  ⟨newCfg, if oldHot.logLevel ≠ newHot.logLevel then newHot.logLevel else s.logLevel, overrides⟩

def reloadConfig (s : Watched) (file : LoadedFile) : Watched :=
  match file with
  | .error _ => s
  | .ok newCfg =>
    match newCfg.validate parsers with
    | .error _ => s
    | .ok _ =>
      let oldHot := HotFields.fromConfig s.config
      let newHot := HotFields.fromConfig newCfg
      if oldHot.eq newHot then s
      else if oldHot.dnsOverrides ≠ newHot.dnsOverrides then
        match installEntries parsers newHot.dnsOverrides with
        | .error _ => s
        | .ok overrides => publish s oldHot newHot newCfg overrides
      else publish s oldHot newHot newCfg s.overrides

/-! ### What is visible after a reload -/

/-- The configuration of a file that loads and validates. -/
def accepted (file : LoadedFile) : Option ProxyConfig :=
  match file with
  | .error _ => none
  | .ok cfg => if cfg.validate parsers = .ok () then some cfg else none

def sameHotFields (old new : ProxyConfig) : Bool :=
  (HotFields.fromConfig old).eq (HotFields.fromConfig new)

theorem validateEntries_of_validate {cfg : ProxyConfig} (h : cfg.validate parsers = .ok ()) :
    validateEntries parsers cfg.network.dnsOverrides = .ok () := by
  unfold ProxyConfig.validate at h
  split at h
  · cases h
  · split at h
    · cases h
    · split at h
      · cases h
      · split at h
        · cases h
        · cases hentries : validateEntries parsers cfg.network.dnsOverrides with
          | error e => rw [hentries] at h; cases h
          | ok u => rfl

/-- A file that is accepted becomes visible if its hot fields differ. -/
theorem reloadConfig_config (s : Watched) (file : LoadedFile) :
    (reloadConfig parsers s file).config =
      match accepted parsers file with
      | none => s.config
      | some cfg => if sameHotFields s.config cfg then s.config else cfg := by
  cases file with
  | error e => rfl
  | ok cfg =>
    cases hvalid : cfg.validate parsers with
    | error e => simp [reloadConfig, accepted, hvalid]
    | ok u =>
      obtain ⟨overrides, hinstall⟩ :=
        installEntries_of_validated parsers (validateEntries_of_validate parsers hvalid)
      have hentries : (HotFields.fromConfig cfg).dnsOverrides = cfg.network.dnsOverrides := rfl
      simp only [reloadConfig, accepted, hvalid, if_true, hentries, hinstall]
      cases hsame : sameHotFields s.config cfg with
      | true =>
        have heq : (HotFields.fromConfig s.config).eq (HotFields.fromConfig cfg) = true := hsame
        simp only [heq, if_true]
      | false =>
        have hne : (HotFields.fromConfig s.config).eq (HotFields.fromConfig cfg) = false := hsame
        simp only [hne, Bool.false_eq_true, if_false]
        split <;> rfl

/-- The settings that are documented as not applied without a restart. -/
def restartOnly (cfg : ProxyConfig) : UInt16 × AntiCensorshipConfig × NetworkConfig × Bool :=
  (cfg.serverPort, cfg.censorship, { cfg.network with dnsOverrides := [] },
    cfg.general.useMiddleProxy)

/-- The watched state after some reloads, and the last file that was accepted. -/
structure Reloads where
  watched : Watched
  last : ProxyConfig

def reload (s : Reloads) (file : LoadedFile) : Reloads :=
  ⟨reloadConfig parsers s.watched file, (accepted parsers file).getD s.last⟩

def reloads (initial : Watched) (files : List LoadedFile) : Reloads :=
  files.foldl (reload parsers) ⟨initial, initial.config⟩

/-- A file that is published has the restart-only settings of `initial`. -/
def KeepsRestartOnly (initial : ProxyConfig) (s : Reloads) (file : LoadedFile) : Prop :=
  ∀ cfg ∈ accepted parsers file, sameHotFields s.watched.config cfg = false →
    restartOnly cfg = restartOnly initial

/-- The visible configuration has the restart-only settings of `initial` and the hot fields of the
    last accepted file. -/
def AppliesHotOnly (initial : ProxyConfig) (s : Reloads) : Prop :=
  restartOnly s.watched.config = restartOnly initial ∧ sameHotFields s.watched.config s.last = true

section
variable {parsers}

theorem run_reload (parsers : AddrParsers) (s : Reloads) (files : List LoadedFile) :
    run (fun s file => some (reload parsers s file)) s files =
      some (files.foldl (reload parsers) s) := by
  induction files generalizing s with
  | nil => rfl
  | cons file files ih => exact ih (reload parsers s file)

theorem reload_appliesHotOnly {initial : ProxyConfig} {s : Reloads} {file : LoadedFile}
    (h : AppliesHotOnly initial s) :
    AppliesHotOnly initial (reload parsers s file) ↔ KeepsRestartOnly parsers initial s file := by
  simp only [AppliesHotOnly, KeepsRestartOnly, reload, reloadConfig_config]
  cases haccepted : accepted parsers file with
  | none => exact iff_of_true h (by simp)
  | some cfg =>
    simp only [Option.getD_some, Option.mem_some_iff, forall_eq']
    cases hsame : sameHotFields s.watched.config cfg with
    | true => simpa [hsame] using h.1
    | false => simp [sameHotFields, HotFields.eq_refl]

end

/-- The restart-only settings stay as they were at the start, and the visible hot fields are those of
    the last file that loaded and validated, after all reloads exactly if every file with other hot
    fields than the visible ones has the restart-only settings of the start. -/
theorem hot_reload_applies_hot_fields_only_iff (initial : Watched) (files : List LoadedFile) :
    (∀ files', files' <+: files → AppliesHotOnly initial.config (reloads parsers initial files')) ↔
      RunMeets (fun s file => some (reload parsers s file)) (KeepsRestartOnly parsers initial.config)
        ⟨initial, initial.config⟩ files := by
  have hstart : AppliesHotOnly initial.config ⟨initial, initial.config⟩ :=
    ⟨rfl, HotFields.eq_refl _⟩
  have hiff := runMeets_iff (I := fun _ => True) (P := AppliesHotOnly initial.config)
    (fun _ _ _ _ _ => trivial)
    (fun s file s' _ hs hstep => Option.some.inj hstep ▸ reload_appliesHotOnly hs) files trivial hstart
    (run_reload parsers _ files)
  rw [← hiff]
  refine forall₂_congr fun files' _ => ?_
  simp only [run_reload, Option.some.injEq, forall_eq', reloads]

/-- The log level and the port change in one file. -/
theorem port_changes_with_log_level :
    let parsers : AddrParsers := ⟨fun _ => none, fun _ => none⟩
    let file : ProxyConfig := { general := { logLevel := .debug }, serverPort := 8443 }
    let s := reloads parsers ⟨{}, .normal, ∅⟩ [.ok file]
    s.watched.config.serverPort = 8443 ∧ ¬ AppliesHotOnly {} s := by
  intro parsers file s
  have hconfig : s.watched.config = file := by decide +kernel
  refine ⟨by rw [hconfig], fun h => ?_⟩
  have hport := congrArg Prod.fst h.1
  rw [hconfig] at hport
  exact absurd hport (by decide)

end

end MtProxy.Config
