import MtProxy.Config.HotReload
import MtProxy.IpTracker

/-! What `main` wires together around the configuration: the tracker gets its limits at the start, the
    watcher publishes reloaded files, and a task applies the telemetry policy of what is published.

        config ──▶ load_limits ──▶ max_ips ──▶ check_and_add
          │
          └─▶ watch ──reload──▶ watch ──▶ apply_telemetry_policy

    Nothing leads from the watch to `max_ips`. -/

namespace MtProxy
open Schemes Network MtProxy.Config
open MiddleProxy (IpAddr)

structure ProxyState where
  watched : Watched
  tracker : UserIpTracker
  stats : Stats

/-- The part of `main` before the first connection. -/
def startup (config : ProxyConfig) (overrides : OverrideMap) : ProxyState where
  watched := ⟨config, config.general.logLevel, overrides⟩
  tracker := UserIpTracker.new.loadLimits config.access.userMaxUniqueIps
  stats := Stats.new.applyTelemetryPolicy config.general.telemetry.policy

/-- A reload of the file, the configuration task taking notice of a change, and clients that come and
    go. -/
inductive MainEvent where
  | reload (file : LoadedFile)
  | configChanged
  | connect (user : String) (ip : IpAddr)
  | disconnect (user : String) (ip : IpAddr)

section
variable (parsers : AddrParsers)

/-- Of what the configuration task applies, the policy of the counters. -/
def mainStep (s : ProxyState) : MainEvent → Option ProxyState
  | .reload file => some { s with watched := reloadConfig parsers s.watched file }
  | .configChanged =>
    some { s with stats := s.stats.applyTelemetryPolicy s.watched.config.general.telemetry.policy }
  | .connect user ip => some { s with tracker := (s.tracker.checkAndAdd user ip).1 }
  | .disconnect user ip => some { s with tracker := s.tracker.removeIp user ip }

/-- The published limit of the user is what `check_and_add` decides with. -/
def EnforcesPublished (user : String) (s : ProxyState) : Prop :=
  s.tracker.getUserLimit user = s.watched.config.access.userMaxUniqueIps.lookup user ∧
    ∀ ip, s.tracker.checkAndAdd user ip =
      s.tracker.addWithin (s.watched.config.access.userMaxUniqueIps.lookup user) user ip

/-- A file that is published has the limit of the start for the user. -/
def KeepsLimit (user : String) (start : ProxyConfig) (s : ProxyState) : MainEvent → Prop
  | .reload file => ∀ cfg ∈ accepted parsers file, sameHotFields s.watched.config cfg = false →
      cfg.access.userMaxUniqueIps.lookup user = start.access.userMaxUniqueIps.lookup user
  | _ => True

section
variable {parsers} {user : String} {start : ProxyConfig} {s s' : ProxyState} {e : MainEvent}

/-- No step changes the limits of the tracker. -/
theorem mainStep_maxIps (hstep : mainStep parsers s e = some s') :
    s'.tracker.maxIps = s.tracker.maxIps := by
  cases e with
  | reload file => obtain rfl := Option.some.inj hstep; rfl
  | configChanged => obtain rfl := Option.some.inj hstep; rfl
  | connect user ip =>
    obtain rfl := Option.some.inj hstep
    exact UserIpTracker.addWithin_maxIps ..
  | disconnect user ip =>
    obtain rfl := Option.some.inj hstep
    exact UserIpTracker.removeIp_maxIps ..

theorem enforcesPublished_iff :
    EnforcesPublished user s ↔
      s.tracker.getUserLimit user = s.watched.config.access.userMaxUniqueIps.lookup user := by
  refine ⟨And.left, fun h => ⟨h, fun ip => ?_⟩⟩
  rw [← h]
  rfl

theorem mainStep_enforces (hlimits : s.tracker.maxIps = start.access.userMaxUniqueIps)
    (h : EnforcesPublished user s) (hstep : mainStep parsers s e = some s') :
    EnforcesPublished user s' ↔ KeepsLimit parsers user start s e := by
  have hlimits' := (mainStep_maxIps hstep).trans hlimits
  have hsame := enforcesPublished_iff.mp h
  rw [enforcesPublished_iff, UserIpTracker.getUserLimit, hlimits']
  rw [UserIpTracker.getUserLimit, hlimits] at hsame
  cases e with
  | reload file =>
    obtain rfl := Option.some.inj hstep
    simp only [KeepsLimit, reloadConfig_config]
    cases haccepted : accepted parsers file with
    | none => exact iff_of_true hsame (by simp)
    | some cfg =>
      simp only [Option.mem_some_iff, forall_eq']
      cases hhot : sameHotFields s.watched.config cfg with
      | true => simpa [hhot] using hsame
      | false => simp [eq_comm]
  | configChanged => obtain rfl := Option.some.inj hstep; exact iff_of_true hsame trivial
  | connect user ip => obtain rfl := Option.some.inj hstep; exact iff_of_true hsame trivial
  | disconnect user ip => obtain rfl := Option.some.inj hstep; exact iff_of_true hsame trivial

end

/-- `check_and_add` decides with the limit of the published configuration in all states of a run
    exactly if every published file has the user's limit of the start. -/
theorem published_ip_limit_enforced_iff (user : String) (config : ProxyConfig)
    (overrides : OverrideMap) (es : List MainEvent) {s : ProxyState}
    (hrun : run (mainStep parsers) (startup config overrides) es = some s) :
    (∀ es', es' <+: es → ∀ s', run (mainStep parsers) (startup config overrides) es' = some s' →
        EnforcesPublished user s') ↔
      RunMeets (mainStep parsers) (KeepsLimit parsers user config) (startup config overrides) es := by
  have hlimits : (startup config overrides).tracker.maxIps = config.access.userMaxUniqueIps :=
    Finmap.union_empty
  refine runMeets_iff (I := fun s => s.tracker.maxIps = config.access.userMaxUniqueIps) ?_ ?_ es
    hlimits ?_ hrun
  · intro s e s' hI hstep
    exact (mainStep_maxIps hstep).trans hI
  · intro s e s' hI hs hstep
    exact mainStep_enforces hI hs hstep
  · rw [enforcesPublished_iff, UserIpTracker.getUserLimit, hlimits]
    rfl

end

/-- The defaults, with a limit for alice. -/
def limited (n : ℕ) : ProxyConfig :=
  { access := { userMaxUniqueIps := (∅ : UserMap ℕ).insert "alice" n } }

/-- A reload that changes something else. -/
theorem published_ip_limit_enforced_log_level :
    let parsers : AddrParsers := ⟨fun _ => none, fun _ => none⟩
    let file : ProxyConfig := { limited 1 with general := { logLevel := .debug } }
    let es := [.reload (.ok file), .configChanged]
    ∃ s, run (mainStep parsers) (startup (limited 1) ∅) es = some s ∧
      s.watched.config = file ∧ EnforcesPublished "alice" s := by
  intro parsers file es
  have heval : (run (mainStep parsers) (startup (limited 1) ∅) es).map (·.watched.config) =
      some file := by decide +kernel
  obtain ⟨s, hrun, hconfig⟩ := Option.map_eq_some_iff.mp heval
  refine ⟨s, hrun, hconfig, (published_ip_limit_enforced_iff parsers "alice" (limited 1) ∅ es hrun).mpr
    ⟨?_, fun _ _ => ⟨trivial, fun _ _ => trivial⟩⟩ es List.prefix_rfl s hrun⟩
  intro cfg hcfg _
  have haccepted : accepted parsers (.ok file) = some file := by decide +kernel
  rw [haccepted, Option.mem_some_iff] at hcfg
  subst hcfg
  rfl

/-- A limit of one address is published, and a second address is let in. -/
theorem reloaded_ip_limit_ignored :
    let parsers : AddrParsers := ⟨fun _ => none, fun _ => none⟩
    let ip : UInt8 → IpAddr := fun host => .v4 ⟨[10, 0, 0, host], rfl⟩
    ∃ s, run (mainStep parsers) (startup {} ∅)
        [.reload (.ok (limited 1)), .configChanged, .connect "alice" (ip 1)] = some s ∧
      s.watched.config.access.userMaxUniqueIps.lookup "alice" = some 1 ∧
      (s.tracker.checkAndAdd "alice" (ip 2)).2 = .ok () ∧
      (s.tracker.addWithin (some 1) "alice" (ip 2)).2 =
        .error "IP limit reached for user 'alice': 1/1 unique IPs already connected" := by
  intro parsers ip
  have heval : (run (mainStep parsers) (startup {} ∅)
      [.reload (.ok (limited 1)), .configChanged, .connect "alice" (ip 1)]).map (fun s =>
        (s.watched.config.access.userMaxUniqueIps.lookup "alice",
          (s.tracker.checkAndAdd "alice" (ip 2)).2,
          (s.tracker.addWithin (some 1) "alice" (ip 2)).2)) =
      some (some 1, .ok (),
        .error "IP limit reached for user 'alice': 1/1 unique IPs already connected") := by
    decide +kernel
  obtain ⟨s, hrun, hs⟩ := Option.map_eq_some_iff.mp heval
  simp only [Prod.mk.injEq] at hs
  exact ⟨s, hrun, hs⟩

end MtProxy
