import MtProxy.MiddleProxy.PoolConfig
import MtProxy.MiddleProxy.Selection
import MtProxy.Schemes.Bytes
import MtProxy.Schemes.Streak

/-! `run_update_cycle`: what is fetched for the endpoint maps and for the secret goes through a gate
    before it reaches the pool. A snapshot is ready when the last so many have the same hash and
    that hash is not the one applied last:

        fetch ──guards──▶ observe ──hits──▶ stable ──applied?──▶ ready ──cooldown──▶ pool

    Each gate counts the hashes it has seen; its counter saturates, and no number of required hits
    is larger than what it can hold. The two families share the cooldown and are applied together.
    A cycle also lists what it applies, which the code does not keep. -/

namespace MtProxy.MiddleProxy
open Schemes

/-! ### The gate -/

structure StableSnapshot where
  candidateHash : Option UInt64
  candidateHits : UInt8
  appliedHash : Option UInt64
  deriving DecidableEq

namespace StableSnapshot

def new : StableSnapshot := ⟨none, 0, none⟩

def observe (s : StableSnapshot) (hash : UInt64) : UInt8 × StableSnapshot :=
  if s.candidateHash = some hash then
    let hits := UInt8.ofNat (min 255 (s.candidateHits.toNat + 1))
    (hits, { s with candidateHits := hits })
  else (1, { s with candidateHash := some hash, candidateHits := 1 })

def isApplied (s : StableSnapshot) (hash : UInt64) : Bool := s.appliedHash == some hash

def markApplied (s : StableSnapshot) (hash : UInt64) : StableSnapshot :=
  { s with appliedHash := some hash }

/-- The block that observes a hash: whether it is stable, and not the one applied last. -/
def gate (s : StableSnapshot) (requiredSnapshots : UInt8) (hash : UInt64) :
    Bool × StableSnapshot :=
  let (stableHits, s) := s.observe hash
  if stableHits.toNat < max requiredSnapshots.toNat 1 then (false, s)
  else if s.isApplied hash then (false, s)
  else (true, s)

end StableSnapshot

structure UpdaterState where
  configV4 : StableSnapshot
  configV6 : StableSnapshot
  secret : StableSnapshot
  lastMapApplyAt : Option ℕ

def UpdaterState.new : UpdaterState := ⟨.new, .new, .new, none⟩

def UpdaterState.config (state : UpdaterState) : IpFamily → StableSnapshot
  | .v4 => state.configV4
  | .v6 => state.configV6

@[simp] theorem UpdaterState.config_secret (state : UpdaterState) (s : StableSnapshot)
    (family : IpFamily) : ({ state with secret := s } : UpdaterState).config family =
      state.config family := by
  cases family with
  | v4 => rfl
  | v6 => rfl

/-- `map_apply_cooldown_ready` at the instant `now`. -/
def mapApplyCooldownReady (lastApplied : Option ℕ) (cooldown now : ℕ) : Bool :=
  if cooldown = 0 then true
  else match lastApplied with
    | some ts => decide (cooldown ≤ now - ts)
    | none => true

/-! ### What is fetched -/

structure ProxyConfigData where
  map : EndpointMap
  defaultDc : Option ℤ
  httpStatus : UInt16
  proxyForLines : UInt32

/-- The fields of the general section that the updater reads. -/
structure UpdaterConfig where
  meConfigStableSnapshots : UInt8
  meConfigApplyCooldownSecs : UInt64
  meSnapshotRequireHttp2xx : Bool
  meSnapshotRejectEmptyMap : Bool
  meSnapshotMinProxyForLines : UInt32
  proxySecretStableSnapshots : UInt8
  proxySecretRotateRuntime : Bool
  proxySecretLenMax : ℕ

/-- The cooldown in nanoseconds, as the instants are. -/
def UpdaterConfig.applyCooldown (cfg : UpdaterConfig) : ℕ :=
  cfg.meConfigApplyCooldownSecs.toNat * 1000000000

/-- The seconds that `retry_fetch` waits after each attempt but the last. -/
def retryDelays : List ℕ := [1, 5, 15]

/-- `retry_fetch`: the first attempt that succeeds. -/
def retryFetch (fetchProxyConfig : ℕ → Option ProxyConfigData) : Option ProxyConfigData :=
  (List.range retryDelays.length).findSome? fetchProxyConfig

def snapshotPassesGuards (cfg : UpdaterConfig) (snapshot : ProxyConfigData) : Bool :=
  if cfg.meSnapshotRequireHttp2xx = true ∧
      ¬ (200 ≤ snapshot.httpStatus ∧ snapshot.httpStatus ≤ 299) then false
  else if snapshot.proxyForLines < cfg.meSnapshotMinProxyForLines then false
  else true

/-! ### The pool -/

structure SecretSnapshot where
  epoch : UInt64
  keySelector : UInt32
  secret : List UInt8
  deriving DecidableEq

/-- `update_secret`, and whether the secret was rotated. -/
def updateSecret (s : SecretSnapshot) (newSecret : List UInt8) : SecretSnapshot × Bool :=
  if newSecret.length < 32 then (s, false)
  else if s.secret ≠ newSecret then
    (⟨UInt64.ofNat (min (2 ^ 64 - 1) (s.epoch.toNat + 1)),
      if 4 ≤ newSecret.length then UInt32.ofNat (leVal (newSecret.take 4)) else 0, newSecret⟩, true)
  else (s, false)

/-- The part of the pool that the updater writes. -/
structure UpdaterPool where
  maps : ProxyMaps
  defaultDc : ℤ
  proxySecret : SecretSnapshot

def ProxyMaps.ofFamily (maps : ProxyMaps) : IpFamily → EndpointMap
  | .v4 => maps.proxyMapV4
  | .v6 => maps.proxyMapV6

/-! ### A cycle -/

/-- What a cycle finds: the configuration, the answers to its requests, the instants at which the
    cooldown is tested and the application noted, and the pool. -/
structure UpdateCycle where
  cfg : UpdaterConfig
  fetchProxyConfig : IpFamily → ℕ → Option ProxyConfigData
  downloadProxySecret : ℕ → Option (List UInt8)
  checkedAt : ℕ
  appliedAt : ℕ
  pool : UpdaterPool

/-- What a cycle does besides: a snapshot applied to its family, the trigger of a reinit, a call of
    `update_secret`. -/
inductive UpdaterCall where
  | applied (family : IpFamily) (snapshot : ProxyConfigData)
  | mapChanged
  | updateSecret (secret : List UInt8)

structure CycleEnd where
  state : UpdaterState
  pool : UpdaterPool
  calls : List UpdaterCall

section
variable (hashProxyConfig : ProxyConfigData → UInt64) (hashSecret : List UInt8 → UInt64)
  (order : KeyOrder)

/-- The block of one family: the snapshot that is ready. -/
def observeConfig (cfg : UpdaterConfig) (fetched : Option ProxyConfigData) (s : StableSnapshot) :
    Option (ProxyConfigData × UInt64) × StableSnapshot :=
  match fetched with
  | none => (none, s)
  | some snapshot =>
    if snapshotPassesGuards cfg snapshot then
      let hash := hashProxyConfig snapshot
      let (ready, s) := s.gate cfg.meConfigStableSnapshots hash
      (if ready then some (snapshot, hash) else none, s)
    else (none, s)

/-- The maps after an update, which is empty when no snapshot of a family is ready. -/
def applyUpdate (cfg : UpdaterConfig) (maps : ProxyMaps) (updateV4 : EndpointMap)
    (updateV6 : Option EndpointMap) : ProxyMaps × SnapshotApplyOutcome :=
  let updateIsEmpty := updateV4 = ∅ ∧ updateV6.getD ∅ = ∅
  if updateIsEmpty ∧ cfg.meSnapshotRejectEmptyMap = false then (maps, .appliedNoDelta)
  else updateProxyMaps order maps updateV4 updateV6

/-- The block that applies what is ready. -/
def applyReady (c : UpdateCycle) (ready : IpFamily → Option (ProxyConfigData × UInt64))
    (state : UpdaterState) (pool : UpdaterPool) : CycleEnd :=
  if (ready .v4).isSome ∨ (ready .v6).isSome then
    if mapApplyCooldownReady state.lastMapApplyAt c.cfg.applyCooldown c.checkedAt then
      let updateV4 := ((ready .v4).map (·.1.map)).getD ∅
      let updateV6 := (ready .v6).map (·.1.map)
      let (maps, applyOutcome) := applyUpdate order c.cfg pool.maps updateV4 updateV6
      if applyOutcome = .rejectedEmpty then ⟨state, { pool with maps := maps }, []⟩
      else
        let mark (family : IpFamily) : StableSnapshot :=
          ((ready family).map fun p => (state.config family).markApplied p.2).getD
            (state.config family)
        let defaultDc := ((ready .v4).bind (·.1.defaultDc)).getD pool.defaultDc
        let applied (family : IpFamily) : List UpdaterCall :=
          (ready family).toList.map fun p => .applied family p.1
        ⟨⟨mark .v4, mark .v6, state.secret, some c.appliedAt⟩,
          { pool with maps := maps, defaultDc := defaultDc },
          applied .v4 ++ applied .v6 ++ (if applyOutcome.changed then [.mapChanged] else [])⟩
    else ⟨state, pool, []⟩
  else ⟨state, pool, []⟩

/-- The block of the secret. -/
def observeSecret (c : UpdateCycle) (state : UpdaterState) (pool : UpdaterPool) : CycleEnd :=
  if c.cfg.proxySecretRotateRuntime then
    match c.downloadProxySecret c.cfg.proxySecretLenMax with
    | none => ⟨state, pool, []⟩
    | some secret =>
      let hash := hashSecret secret
      let (ready, s) := state.secret.gate c.cfg.proxySecretStableSnapshots hash
      if ready then
        ⟨{ state with secret := s.markApplied hash },
          { pool with proxySecret := (updateSecret pool.proxySecret secret).1 },
          [.updateSecret secret]⟩
      else ⟨{ state with secret := s }, pool, []⟩
  else ⟨state, pool, []⟩

def runUpdateCycle (c : UpdateCycle) (state : UpdaterState) : CycleEnd :=
  let (readyV4, configV4) :=
    observeConfig hashProxyConfig c.cfg (retryFetch (c.fetchProxyConfig .v4)) state.configV4
  let (readyV6, configV6) :=
    observeConfig hashProxyConfig c.cfg (retryFetch (c.fetchProxyConfig .v6)) state.configV6
  let ready : IpFamily → Option (ProxyConfigData × UInt64)
    | .v4 => readyV4
    | .v6 => readyV6
  let state := { state with configV4 := configV4, configV6 := configV6 }
  let mapsEnd := applyReady order c ready state c.pool
  let secretEnd := observeSecret hashSecret c mapsEnd.state mapsEnd.pool
  ⟨secretEnd.state, secretEnd.pool, mapsEnd.calls ++ secretEnd.calls⟩

/-- The state before cycle `n`. -/
def updaterAt (cycles : ℕ → UpdateCycle) : ℕ → UpdaterState
  | 0 => .new
  | n + 1 => (runUpdateCycle hashProxyConfig hashSecret order (cycles n) (updaterAt cycles n)).state

/-- Cycle `n`. -/
def cycleEndAt (cycles : ℕ → UpdateCycle) (n : ℕ) : CycleEnd :=
  runUpdateCycle hashProxyConfig hashSecret order (cycles n)
    (updaterAt hashProxyConfig hashSecret order cycles n)

end

/-! ### What a gate has seen -/

/-- The candidate of a gate is the hash seen last, counted as far as the counter goes. -/
structure StableSnapshot.Tracks (s : StableSnapshot) (seen : List UInt64) : Prop where
  candidate : s.candidateHash = seen.head?
  hits : s.candidateHits.toNat = min 255 (agreeing seen)

/-- So many hashes were seen, and the last ones are all `hash`. -/
def LastAgree (k : ℕ) (seen : List UInt64) (hash : UInt64) : Prop :=
  k ≤ seen.length ∧ ∀ h ∈ seen.take k, h = hash

section
variable {s : StableSnapshot} {seen : List UInt64}

theorem tracks_new : StableSnapshot.new.Tracks [] := ⟨rfl, rfl⟩

theorem StableSnapshot.Tracks.markApplied (h : s.Tracks seen) (hash : UInt64) :
    (s.markApplied hash).Tracks seen := ⟨h.candidate, h.hits⟩

theorem observe_appliedHash (s : StableSnapshot) (hash : UInt64) :
    (s.observe hash).2.appliedHash = s.appliedHash := by
  unfold StableSnapshot.observe
  split_ifs
  · rfl
  · rfl

/-- A hash is counted on, or starts a streak of its own. -/
theorem StableSnapshot.Tracks.observe (h : s.Tracks seen) (hash : UInt64) :
    (s.observe hash).2.Tracks (hash :: seen) ∧
      (s.observe hash).1.toNat = min 255 (agreeing (hash :: seen)) := by
  unfold StableSnapshot.observe
  -- the same hash again, up to what the counter holds, or a streak of one
  by_cases hcandidate : s.candidateHash = some hash
  · have hhead := h.candidate.symm.trans hcandidate
    obtain ⟨before, rfl⟩ := List.head?_eq_some_iff.mp hhead
    have hcount : (UInt8.ofNat (min 255 (s.candidateHits.toNat + 1))).toNat =
        min 255 (agreeing (hash :: hash :: before)) := by
      rw [h.hits, agreeing_cons_self, UInt8.toNat_ofNat']
      omega
    rw [if_pos hcandidate]
    exact ⟨⟨hcandidate, hcount⟩, hcount⟩
  · have hone : agreeing (hash :: seen) = 1 := by
      cases seen with
      | nil => rfl
      | cons b before =>
        refine agreeing_cons_ne ?_
        rintro rfl
        exact hcandidate h.candidate
    rw [if_neg hcandidate, hone]
    exact ⟨⟨rfl, by rw [hone]; rfl⟩, rfl⟩

/-- The gate opens for a hash on which the last observations agree, unless it is the one applied. -/
theorem StableSnapshot.Tracks.gate (h : s.Tracks seen) (requiredSnapshots : UInt8)
    (hash : UInt64) :
    (s.gate requiredSnapshots hash).2.Tracks (hash :: seen) ∧
      (s.gate requiredSnapshots hash).2.appliedHash = s.appliedHash ∧
      ((s.gate requiredSnapshots hash).1 = true ↔
        LastAgree (max requiredSnapshots.toNat 1) (hash :: seen) hash ∧
          s.appliedHash ≠ some hash) := by
  obtain ⟨htracks, hhits⟩ := h.observe hash
  have happlied := observe_appliedHash s hash
  have hrequired := requiredSnapshots.toNat_lt
  have hstable : ¬ (s.observe hash).1.toNat < max requiredSnapshots.toNat 1 ↔
      LastAgree (max requiredSnapshots.toNat 1) (hash :: seen) hash := by
    rw [LastAgree, ← le_agreeing_iff, hhits]
    omega
  have hisApplied : (s.observe hash).2.isApplied hash = true ↔ s.appliedHash = some hash := by
    rw [StableSnapshot.isApplied, happlied, beq_iff_eq]
  unfold StableSnapshot.gate
  simp only
  by_cases hhit : (s.observe hash).1.toNat < max requiredSnapshots.toNat 1
  · rw [if_pos hhit]
    exact ⟨htracks, happlied, iff_of_false (by simp) (fun hboth => hstable.mpr hboth.1 hhit)⟩
  rw [if_neg hhit]
  by_cases hdone : (s.observe hash).2.isApplied hash = true
  · rw [if_pos hdone]
    exact ⟨htracks, happlied, iff_of_false (by simp) (fun hboth => hboth.2 (hisApplied.mp hdone))⟩
  · rw [if_neg hdone]
    exact ⟨htracks, happlied, iff_of_true rfl ⟨hstable.mp hhit, mt hisApplied.mpr hdone⟩⟩

end

/-! ### One cycle -/

/-- The snapshot of a family that the guards let pass. -/
def UpdateCycle.passing (c : UpdateCycle) (family : IpFamily) : Option ProxyConfigData :=
  (retryFetch (c.fetchProxyConfig family)).filter (snapshotPassesGuards c.cfg)

/-- The secret that was downloaded. -/
def UpdateCycle.downloaded (c : UpdateCycle) : Option (List UInt8) :=
  if c.cfg.proxySecretRotateRuntime then c.downloadProxySecret c.cfg.proxySecretLenMax else none

section
variable (hashProxyConfig : ProxyConfigData → UInt64) (hashSecret : List UInt8 → UInt64)
  (order : KeyOrder)

/-- What the block of a family does to its gate. -/
theorem observeConfig_spec (c : UpdateCycle) (family : IpFamily) {s : StableSnapshot}
    {seen : List UInt64} (h : s.Tracks seen) :
    let r := observeConfig hashProxyConfig c.cfg (retryFetch (c.fetchProxyConfig family)) s
    let seen' := (c.passing family).toList.map hashProxyConfig ++ seen
    r.2.Tracks seen' ∧ r.2.appliedHash = s.appliedHash ∧ ∀ snapshot hash,
      r.1 = some (snapshot, hash) ↔ hash = hashProxyConfig snapshot ∧
        c.passing family = some snapshot ∧
        LastAgree (max c.cfg.meConfigStableSnapshots.toNat 1) seen' hash ∧
        s.appliedHash ≠ some hash := by
  intro r seen'
  unfold r seen' UpdateCycle.passing observeConfig
  cases hfetched : retryFetch (c.fetchProxyConfig family) with
  | none => simp [h]
  | some snapshot =>
    by_cases hguards : snapshotPassesGuards c.cfg snapshot = true
    · obtain ⟨htracks, happlied, hready⟩ :=
        h.gate c.cfg.meConfigStableSnapshots (hashProxyConfig snapshot)
      simp only [hguards, if_true, Option.filter_some, Option.toList_some, List.map_cons,
        List.map_nil, List.singleton_append]
      refine ⟨htracks, happlied, ?_⟩
      intro other hash
      constructor
      · intro hr
        split_ifs at hr with hopen
        obtain ⟨rfl, rfl⟩ := Prod.mk.inj (Option.some.inj hr)
        exact ⟨rfl, rfl, hready.mp hopen⟩
      · rintro ⟨rfl, hsame, hopen⟩
        obtain rfl := Option.some.inj hsame
        rw [if_pos (hready.mpr hopen)]
    · simp [hguards, Option.filter_some, h]

/-- What the block of the secret does to its gate, and when it calls `update_secret`. -/
theorem observeSecret_spec (c : UpdateCycle) (state : UpdaterState) (pool : UpdaterPool)
    {seen : List UInt64} (h : state.secret.Tracks seen) :
    let e := observeSecret hashSecret c state pool
    let seen' := c.downloaded.toList.map hashSecret ++ seen
    e.state.secret.Tracks seen' ∧ (∀ secret, .updateSecret secret ∈ e.calls ↔
        c.downloaded = some secret ∧
        LastAgree (max c.cfg.proxySecretStableSnapshots.toNat 1) seen' (hashSecret secret) ∧
        state.secret.appliedHash ≠ some (hashSecret secret)) ∧
      (∀ secret, .updateSecret secret ∈ e.calls →
        e.state.secret.appliedHash = some (hashSecret secret)) ∧
      ((∀ secret, .updateSecret secret ∉ e.calls) →
        e.state.secret.appliedHash = state.secret.appliedHash ∧
          e.pool.proxySecret = pool.proxySecret) := by
  intro e seen'
  unfold e seen' UpdateCycle.downloaded observeSecret
  by_cases hrotate : c.cfg.proxySecretRotateRuntime = true
  · simp only [if_pos hrotate]
    cases hdownload : c.downloadProxySecret c.cfg.proxySecretLenMax with
    | none => simp [h]
    | some secret =>
      obtain ⟨htracks, happlied, hready⟩ :=
        h.gate c.cfg.proxySecretStableSnapshots (hashSecret secret)
      simp only [Option.toList_some, List.map_cons, List.map_nil, List.singleton_append]
      by_cases hopen :
          (state.secret.gate c.cfg.proxySecretStableSnapshots (hashSecret secret)).1 = true
      · have hboth := hready.mp hopen
        simp only [if_pos hopen, List.mem_singleton, UpdaterCall.updateSecret.injEq]
        refine ⟨htracks.markApplied _, ?_, ?_, ?_⟩
        · intro other
          constructor
          · rintro rfl
            exact ⟨rfl, hboth⟩
          · rintro ⟨hsame, -⟩
            exact (Option.some.inj hsame).symm
        · rintro other rfl
          rfl
        · intro hnone
          exact absurd rfl (hnone secret)
      · simp only [if_neg hopen, List.not_mem_nil]
        refine ⟨htracks, ?_, ?_, fun _ => ⟨happlied, trivial⟩⟩
        · rintro other
          refine iff_of_false id ?_
          rintro ⟨hsame, hboth⟩
          obtain rfl := Option.some.inj hsame
          exact hopen (hready.mpr hboth)
        · rintro other hcall
          exact hcall.elim
  · simp only [if_neg hrotate]
    simp [h]

/-- What is applied to a family; empty when nothing is ready. -/
def updateOf (ready : IpFamily → Option (ProxyConfigData × UInt64)) (family : IpFamily) :
    EndpointMap :=
  ((ready family).map (·.1.map)).getD ∅

/-- What is ready is applied: the cooldown is over, and the snapshots are not rejected as empty. -/
def AppliesReady (c : UpdateCycle) (ready : IpFamily → Option (ProxyConfigData × UInt64))
    (state : UpdaterState) : Prop :=
  ((ready .v4).isSome ∨ (ready .v6).isSome) ∧
    mapApplyCooldownReady state.lastMapApplyAt c.cfg.applyCooldown c.checkedAt = true ∧
    ¬ ((updateOf ready .v4 = ∅ ∧ updateOf ready .v6 = ∅) ∧ c.cfg.meSnapshotRejectEmptyMap = true)

/-- A family keeps its map or gets the snapshot that is ready. -/
def MapUpdated (ready : IpFamily → Option (ProxyConfigData × UInt64)) (before after : ProxyMaps)
    (family : IpFamily) : Prop :=
  after.ofFamily family = before.ofFamily family ∨
    after.ofFamily family = afterSnapshot order (before.ofFamily family) (updateOf ready family)

/-- An update is rejected as empty, or applied to both families. -/
theorem applyUpdate_cases (cfg : UpdaterConfig) (maps : ProxyMaps)
    (ready : IpFamily → Option (ProxyConfigData × UInt64)) :
    let r := applyUpdate order cfg maps (updateOf ready .v4) ((ready .v6).map (·.1.map))
    let rejected := (updateOf ready .v4 = ∅ ∧ updateOf ready .v6 = ∅) ∧
      cfg.meSnapshotRejectEmptyMap = true
    rejected ∧ r = (maps, .rejectedEmpty) ∨
      ¬ rejected ∧ r.2 ≠ .rejectedEmpty ∧ ∀ family, MapUpdated order ready maps r.1 family := by
  intro r rejected
  have hv6 : ((ready .v6).map (·.1.map)).getD ∅ = updateOf ready .v6 := rfl
  unfold r applyUpdate
  simp only [hv6]
  by_cases hempty : updateOf ready .v4 = ∅ ∧ updateOf ready .v6 = ∅
  · -- nothing to apply: the pool would reject it, unless it is not even asked
    cases hreject : cfg.meSnapshotRejectEmptyMap with
    | true =>
      have hrejected : updateProxyMaps order maps (updateOf ready .v4)
          ((ready .v6).map (·.1.map)) = (maps, .rejectedEmpty) := if_pos hempty
      rw [if_neg (by simp), hrejected]
      exact .inl ⟨⟨hempty, hreject⟩, rfl⟩
    | false =>
      rw [if_pos ⟨hempty, rfl⟩]
      exact .inr ⟨by simp [rejected, hreject], by simp, fun _ => .inl rfl⟩
  · have hne : updateOf ready .v4 ≠ ∅ ∨ ((ready .v6).map (·.1.map)).getD ∅ ≠ ∅ := by
      rw [hv6]
      exact not_and_or.mp hempty
    rw [if_neg (fun h => hempty h.1), updateProxyMaps_eq order maps hne]
    refine .inr ⟨fun h => hempty h.1, ?_, ?_⟩
    · simp only
      split_ifs
      · simp
      · simp
    · intro family
      cases family with
      | v4 => exact .inr rfl
      | v6 => exact .inr rfl

/-- What is ready has been applied, to one family or to both. -/
structure ReadyApplied (c : UpdateCycle) (ready : IpFamily → Option (ProxyConfigData × UInt64))
    (state : UpdaterState) (pool : UpdaterPool) (e : CycleEnd) : Prop where
  applies : AppliesReady c ready state
  config : ∀ family, e.state.config family = ((ready family).map fun p =>
    (state.config family).markApplied p.2).getD (state.config family)
  secret : e.state.secret = state.secret
  lastMapApplyAt : e.state.lastMapApplyAt = some c.appliedAt
  maps : ∀ family, MapUpdated order ready pool.maps e.pool.maps family
  proxySecret : e.pool.proxySecret = pool.proxySecret
  applied_iff : ∀ family snapshot, .applied family snapshot ∈ e.calls ↔
    ∃ hash, ready family = some (snapshot, hash)
  no_secret : ∀ secret, .updateSecret secret ∉ e.calls

/-- What the block that applies can do. -/
theorem applyReady_cases (c : UpdateCycle) (ready : IpFamily → Option (ProxyConfigData × UInt64))
    (state : UpdaterState) (pool : UpdaterPool) :
    ¬ AppliesReady c ready state ∧ applyReady order c ready state pool = ⟨state, pool, []⟩ ∨
      ReadyApplied order c ready state pool (applyReady order c ready state pool) := by
  unfold applyReady
  by_cases hready : (ready .v4).isSome ∨ (ready .v6).isSome
  · rw [if_pos hready]
    by_cases hcooldown :
        mapApplyCooldownReady state.lastMapApplyAt c.cfg.applyCooldown c.checkedAt = true
    · rw [if_pos hcooldown]
      have hv4 : ((ready .v4).map (·.1.map)).getD ∅ = updateOf ready .v4 := rfl
      simp only [hv4]
      rcases applyUpdate_cases order c.cfg pool.maps ready with ⟨hrejected, hr⟩ | ⟨hnot, hr, hmaps⟩
      · rw [hr]
        exact .inl ⟨fun h => h.2.2 hrejected, rfl⟩
      · rw [if_neg hr]
        refine .inr ⟨⟨hready, hcooldown, hnot⟩, ?_, rfl, rfl, hmaps, rfl, ?_, ?_⟩
        · intro family
          cases family with
          | v4 => rfl
          | v6 => rfl
        · intro family snapshot
          have hchange : ∀ changed : Bool, UpdaterCall.applied family snapshot ∉
              (if changed then [.mapChanged] else [] : List UpdaterCall) := by
            rintro (_ | _)
            · simp
            · simp
          simp only [List.mem_append, hchange, or_false]
          cases family with
          | v4 => simp
          | v6 => simp
        · intro secret
          simp only [List.mem_append, List.mem_map, reduceCtorEq, and_false, exists_false, false_or]
          split_ifs
          · simp
          · simp
    · rw [if_neg hcooldown]
      exact .inl ⟨fun h => hcooldown h.2.1, rfl⟩
  · rw [if_neg hready]
    exact .inl ⟨fun h => hready h.1, rfl⟩

/-- The block of the secret leaves the maps and their gates alone. -/
theorem observeSecret_keeps (c : UpdateCycle) (state : UpdaterState) (pool : UpdaterPool) :
    let e := observeSecret hashSecret c state pool
    (∀ family, e.state.config family = state.config family) ∧
      e.state.lastMapApplyAt = state.lastMapApplyAt ∧ e.pool.maps = pool.maps ∧
      ∀ family snapshot, .applied family snapshot ∉ e.calls := by
  intro e
  unfold e observeSecret
  by_cases hrotate : c.cfg.proxySecretRotateRuntime = true
  · rw [if_pos hrotate]
    cases c.downloadProxySecret c.cfg.proxySecretLenMax with
    | none => simp
    | some secret =>
      simp only
      split_ifs with hopen
      · simp
      · simp
  · rw [if_neg hrotate]
    simp

/-- The snapshot of a family that is ready in a cycle. -/
def readyOf (c : UpdateCycle) (state : UpdaterState) (family : IpFamily) :
    Option (ProxyConfigData × UInt64) :=
  (observeConfig hashProxyConfig c.cfg (retryFetch (c.fetchProxyConfig family))
    (state.config family)).1

/-- The state once both families are observed. -/
def observed (c : UpdateCycle) (state : UpdaterState) : UpdaterState :=
  { state with
    configV4 := (observeConfig hashProxyConfig c.cfg (retryFetch (c.fetchProxyConfig .v4))
      state.configV4).2
    configV6 := (observeConfig hashProxyConfig c.cfg (retryFetch (c.fetchProxyConfig .v6))
      state.configV6).2 }

theorem observed_config (c : UpdateCycle) (state : UpdaterState) (family : IpFamily) :
    (observed hashProxyConfig c state).config family =
      (observeConfig hashProxyConfig c.cfg (retryFetch (c.fetchProxyConfig family))
        (state.config family)).2 := by
  cases family with
  | v4 => rfl
  | v6 => rfl

/-- A cycle, block by block: `m` is what there is before the secret is looked at. -/
theorem runUpdateCycle_blocks (c : UpdateCycle) (state : UpdaterState) :
    ∃ m, (¬ AppliesReady c (readyOf hashProxyConfig c state) (observed hashProxyConfig c state) ∧
          m = ⟨observed hashProxyConfig c state, c.pool, []⟩ ∨
        ReadyApplied order c (readyOf hashProxyConfig c state) (observed hashProxyConfig c state)
          c.pool m) ∧
      runUpdateCycle hashProxyConfig hashSecret order c state =
        ⟨(observeSecret hashSecret c m.state m.pool).state,
          (observeSecret hashSecret c m.state m.pool).pool,
          m.calls ++ (observeSecret hashSecret c m.state m.pool).calls⟩ := by
  refine ⟨_, applyReady_cases order c (readyOf hashProxyConfig c state)
    (observed hashProxyConfig c state) c.pool, ?_⟩
  have hready : readyOf hashProxyConfig c state = fun family => match family with
      | .v4 => readyOf hashProxyConfig c state .v4
      | .v6 => readyOf hashProxyConfig c state .v6 := by
    funext family
    cases family with
    | v4 => rfl
    | v6 => rfl
  rw [hready]
  rfl

/-- The gates have seen these hashes. -/
structure UpdaterState.Tracks (state : UpdaterState) (seen : IpFamily → List UInt64)
    (seenSecret : List UInt64) : Prop where
  config : ∀ family, (state.config family).Tracks (seen family)
  secret : state.secret.Tracks seenSecret

/-- The families in a cycle. -/
structure CycleMaps (c : UpdateCycle) (state : UpdaterState) (seen : IpFamily → List UInt64)
    (e : CycleEnd) (family : IpFamily) : Prop where
  tracks : (e.state.config family).Tracks
    ((c.passing family).toList.map hashProxyConfig ++ seen family)
  applied : ∀ snapshot, .applied family snapshot ∈ e.calls →
    (c.passing family = some snapshot ∧
      LastAgree (max c.cfg.meConfigStableSnapshots.toNat 1)
        ((c.passing family).toList.map hashProxyConfig ++ seen family) (hashProxyConfig snapshot) ∧
      (state.config family).appliedHash ≠ some (hashProxyConfig snapshot)) ∧
    mapApplyCooldownReady state.lastMapApplyAt c.cfg.applyCooldown c.checkedAt = true ∧
    (e.state.config family).appliedHash = some (hashProxyConfig snapshot) ∧
    e.state.lastMapApplyAt = some c.appliedAt
  kept : (∀ snapshot, .applied family snapshot ∉ e.calls) →
    (e.state.config family).appliedHash = (state.config family).appliedHash
  maps : e.pool.maps.ofFamily family = c.pool.maps.ofFamily family ∨
    e.pool.maps.ofFamily family = mirrorMap order (c.pool.maps.ofFamily family) ∨
    ∃ snapshot, .applied family snapshot ∈ e.calls ∧
      e.pool.maps.ofFamily family = mirrorMap order snapshot.map

variable {hashProxyConfig hashSecret order}

/-- What a family keeps or gets in the block that applies. -/
theorem MapUpdated.cases {ready : IpFamily → Option (ProxyConfigData × UInt64)}
    {before after : ProxyMaps} {family : IpFamily} (h : MapUpdated order ready before after family) :
    after.ofFamily family = before.ofFamily family ∨
      after.ofFamily family = mirrorMap order (before.ofFamily family) ∨
      ∃ snapshot hash, ready family = some (snapshot, hash) ∧
        after.ofFamily family = mirrorMap order snapshot.map := by
  rcases h with hsame | hafter
  · exact .inl hsame
  rw [afterSnapshot, replaceMap_fst] at hafter
  split_ifs at hafter with hempty
  · exact .inr (.inl hafter)
  · refine .inr (.inr ?_)
    cases hready : ready family with
    | none => exact absurd (by rw [updateOf, hready]; rfl) hempty
    | some p =>
      rw [updateOf, hready] at hafter
      exact ⟨p.1, p.2, rfl, hafter⟩

theorem runUpdateCycle_maps {c : UpdateCycle} {state : UpdaterState} {seen : IpFamily → List UInt64}
    {seenSecret : List UInt64} (h : state.Tracks seen seenSecret) (family : IpFamily) :
    CycleMaps hashProxyConfig order c state seen
      (runUpdateCycle hashProxyConfig hashSecret order c state) family := by
  obtain ⟨htracks, happliedHash, hready⟩ :=
    observeConfig_spec hashProxyConfig c family (h.config family)
  rw [← observed_config hashProxyConfig c state family] at htracks happliedHash
  obtain ⟨m, hblocks, heq⟩ := runUpdateCycle_blocks hashProxyConfig hashSecret order c state
  rw [heq]
  obtain ⟨hconfig, hlast, hmaps, hcalls⟩ := observeSecret_keeps hashSecret c m.state m.pool
  have hcall : ∀ snapshot, .applied family snapshot ∈
      m.calls ++ (observeSecret hashSecret c m.state m.pool).calls ↔
        .applied family snapshot ∈ m.calls := by
    intro snapshot
    rw [List.mem_append, or_iff_left (hcalls family snapshot)]
  rcases hblocks with ⟨-, rfl⟩ | happlied
  -- nothing is applied: the gates have observed, and that is all
  · refine ⟨?_, ?_, ?_, ?_⟩
    · rw [hconfig family]
      exact htracks
    · intro snapshot hmem
      rw [hcall snapshot] at hmem
      cases hmem
    · intro hnone
      rw [hconfig family, happliedHash]
    · exact .inl (by rw [hmaps])
  -- this family may be the one that is not ready
  · have hcallsM := happlied.applied_iff family
    refine ⟨?_, ?_, ?_, ?_⟩
    · rw [hconfig family, happlied.config family]
      cases readyOf hashProxyConfig c state family with
      | none => exact htracks
      | some p => exact htracks.markApplied p.2
    · intro snapshot hmem
      rw [hcall snapshot, hcallsM] at hmem
      obtain ⟨hash, hr⟩ := hmem
      obtain ⟨rfl, hstable⟩ := (hready snapshot hash).mp hr
      refine ⟨hstable, happlied.applies.2.1, ?_, hlast.trans happlied.lastMapApplyAt⟩
      rw [hconfig family, happlied.config family, hr]
      rfl
    · intro hnone
      rw [hconfig family, happlied.config family]
      cases hr : readyOf hashProxyConfig c state family with
      | none => exact happliedHash
      | some p => exact absurd ((hcall p.1).mpr ((hcallsM p.1).mpr ⟨p.2, hr⟩)) (hnone p.1)
    · rw [hmaps]
      rcases (happlied.maps family).cases with hsame | hmirror | ⟨snapshot, hash, hr, hafter⟩
      · exact .inl hsame
      · exact .inr (.inl hmirror)
      · exact .inr (.inr ⟨snapshot, (hcall snapshot).mpr ((hcallsM snapshot).mpr ⟨hash, hr⟩), hafter⟩)

/-- Without an application its time stays noted. -/
theorem runUpdateCycle_lastMapApplyAt {c : UpdateCycle} {state : UpdaterState}
    (hnone : ∀ family snapshot, .applied family snapshot ∉
      (runUpdateCycle hashProxyConfig hashSecret order c state).calls) :
    (runUpdateCycle hashProxyConfig hashSecret order c state).state.lastMapApplyAt =
      state.lastMapApplyAt := by
  obtain ⟨m, hblocks, heq⟩ := runUpdateCycle_blocks hashProxyConfig hashSecret order c state
  rw [heq] at hnone ⊢
  obtain ⟨-, hlast, -, -⟩ := observeSecret_keeps hashSecret c m.state m.pool
  rw [hlast]
  rcases hblocks with ⟨-, rfl⟩ | happlied
  · rfl
  · have hcall : ∀ family, (readyOf hashProxyConfig c state family).isSome = true → False := by
      intro family hsome
      obtain ⟨p, hp⟩ := Option.isSome_iff_exists.mp hsome
      exact hnone family p.1
        (List.mem_append_left _ ((happlied.applied_iff family p.1).mpr ⟨p.2, hp⟩))
    exact (happlied.applies.1.elim (hcall .v4) (hcall .v6)).elim

/-- The secret in a cycle. -/
structure CycleSecret (hashSecret : List UInt8 → UInt64) (c : UpdateCycle) (state : UpdaterState)
    (seen : List UInt64) (e : CycleEnd) : Prop where
  tracks : e.state.secret.Tracks (c.downloaded.toList.map hashSecret ++ seen)
  called : ∀ secret, .updateSecret secret ∈ e.calls →
    (c.downloaded = some secret ∧
      LastAgree (max c.cfg.proxySecretStableSnapshots.toNat 1)
        (c.downloaded.toList.map hashSecret ++ seen) (hashSecret secret) ∧
      state.secret.appliedHash ≠ some (hashSecret secret)) ∧
    e.state.secret.appliedHash = some (hashSecret secret)
  kept : (∀ secret, .updateSecret secret ∉ e.calls) →
    e.state.secret.appliedHash = state.secret.appliedHash ∧
      e.pool.proxySecret = c.pool.proxySecret

theorem runUpdateCycle_secret {c : UpdateCycle} {state : UpdaterState}
    {seen : IpFamily → List UInt64} {seenSecret : List UInt64} (h : state.Tracks seen seenSecret) :
    CycleSecret hashSecret c state seenSecret
      (runUpdateCycle hashProxyConfig hashSecret order c state) := by
  obtain ⟨m, hblocks, heq⟩ := runUpdateCycle_blocks hashProxyConfig hashSecret order c state
  rw [heq]
  have hkeeps : m.state.secret = state.secret ∧ m.pool.proxySecret = c.pool.proxySecret ∧
      ∀ secret, .updateSecret secret ∉ m.calls := by
    rcases hblocks with ⟨-, rfl⟩ | happlied
    · exact ⟨rfl, rfl, fun _ => List.not_mem_nil⟩
    · exact ⟨happlied.secret, happlied.proxySecret, happlied.no_secret⟩
  obtain ⟨hsecret, hpool, hnone⟩ := hkeeps
  have hcall : ∀ secret, .updateSecret secret ∈
      m.calls ++ (observeSecret hashSecret c m.state m.pool).calls ↔
        .updateSecret secret ∈ (observeSecret hashSecret c m.state m.pool).calls := by
    intro secret
    rw [List.mem_append, or_iff_right (hnone secret)]
  obtain ⟨htracks, hcalled, happlied, hkept⟩ :=
    observeSecret_spec hashSecret c m.state m.pool (hsecret ▸ h.secret)
  rw [hsecret] at hcalled hkept
  rw [hpool] at hkept
  refine ⟨htracks, ?_, ?_⟩
  · intro secret hmem
    rw [hcall secret] at hmem
    exact ⟨(hcalled secret).mp hmem, happlied secret hmem⟩
  · intro hno
    exact hkept fun secret hmem => hno secret ((hcall secret).mpr hmem)

end

/-! ### Runs -/

/-- The snapshots of a family that the guards let pass before cycle `n`, latest first. -/
def passed (cycles : ℕ → UpdateCycle) (family : IpFamily) : ℕ → List ProxyConfigData
  | 0 => []
  | n + 1 => ((cycles n).passing family).toList ++ passed cycles family n

/-- The secrets downloaded before cycle `n`, latest first. -/
def downloads (cycles : ℕ → UpdateCycle) : ℕ → List (List UInt8)
  | 0 => []
  | n + 1 => (cycles n).downloaded.toList ++ downloads cycles n

section
variable {hashProxyConfig : ProxyConfigData → UInt64} {hashSecret : List UInt8 → UInt64}
  {order : KeyOrder} {cycles : ℕ → UpdateCycle}

theorem updaterAt_tracks (n : ℕ) : (updaterAt hashProxyConfig hashSecret order cycles n).Tracks
    (fun family => (passed cycles family n).map hashProxyConfig)
    ((downloads cycles n).map hashSecret) := by
  induction n with
  | zero =>
    refine ⟨?_, tracks_new⟩
    intro family
    cases family with
    | v4 => exact tracks_new
    | v6 => exact tracks_new
  | succ n ih =>
    refine ⟨?_, ?_⟩
    · intro family
      rw [passed, List.map_append]
      exact (runUpdateCycle_maps ih family).tracks
    · rw [downloads, List.map_append]
      exact (runUpdateCycle_secret ih).tracks

end

/-! ### The promises of the gates -/

section
variable (hashProxyConfig : ProxyConfigData → UInt64) (hashSecret : List UInt8 → UInt64)
  (order : KeyOrder) (cycles : ℕ → UpdateCycle)

/-- Cycle `n` applies a snapshot to a family. -/
def AppliesAt (n : ℕ) (family : IpFamily) (snapshot : ProxyConfigData) : Prop :=
  .applied family snapshot ∈ (cycleEndAt hashProxyConfig hashSecret order cycles n).calls

/-- Cycle `n` calls `update_secret`. -/
def UpdatesSecretAt (n : ℕ) (secret : List UInt8) : Prop :=
  .updateSecret secret ∈ (cycleEndAt hashProxyConfig hashSecret order cycles n).calls

/-- Cycle `n` fetched a snapshot that the guards let pass, and so many such fetches agree on it. -/
def StableAt (n : ℕ) (family : IpFamily) (snapshot : ProxyConfigData) : Prop :=
  retryFetch ((cycles n).fetchProxyConfig family) = some snapshot ∧
    snapshotPassesGuards (cycles n).cfg snapshot = true ∧
    LastAgree (max (cycles n).cfg.meConfigStableSnapshots.toNat 1)
      ((passed cycles family (n + 1)).map hashProxyConfig) (hashProxyConfig snapshot)

/-- The map of a family at the end of cycle `n`. -/
def mapAfter (n : ℕ) (family : IpFamily) : EndpointMap :=
  (cycleEndAt hashProxyConfig hashSecret order cycles n).pool.maps.ofFamily family

/-- The hash recorded as applied to a family before cycle `n`. -/
def appliedHashAt (n : ℕ) (family : IpFamily) : Option UInt64 :=
  ((updaterAt hashProxyConfig hashSecret order cycles n).config family).appliedHash

/-- The map is that of before, at most completed. -/
def KeepsMap (n : ℕ) (family : IpFamily) : Prop :=
  mapAfter hashProxyConfig hashSecret order cycles n family = (cycles n).pool.maps.ofFamily family ∨
    mapAfter hashProxyConfig hashSecret order cycles n family =
      mirrorMap order ((cycles n).pool.maps.ofFamily family)

/-- What holds of a family in cycle `n`. -/
structure FamilyGate (n : ℕ) (family : IpFamily) : Prop where
  replaced : ¬ KeepsMap hashProxyConfig hashSecret order cycles n family → ∃ snapshot,
    AppliesAt hashProxyConfig hashSecret order cycles n family snapshot ∧
      mapAfter hashProxyConfig hashSecret order cycles n family = mirrorMap order snapshot.map
  stable : ∀ snapshot, AppliesAt hashProxyConfig hashSecret order cycles n family snapshot →
    StableAt hashProxyConfig cycles n family snapshot
  cooled : ∀ snapshot, AppliesAt hashProxyConfig hashSecret order cycles n family snapshot →
    ∀ m < n, (∃ other earlier, AppliesAt hashProxyConfig hashSecret order cycles m other earlier) →
      (∀ k, m < k → k < n → ∀ other between,
        ¬ AppliesAt hashProxyConfig hashSecret order cycles k other between) →
      (cycles n).cfg.applyCooldown = 0 ∨
        (cycles m).appliedAt + (cycles n).cfg.applyCooldown ≤ (cycles n).checkedAt
  recorded : ∀ snapshot, AppliesAt hashProxyConfig hashSecret order cycles n family snapshot →
    appliedHashAt hashProxyConfig hashSecret order cycles n family ≠
        some (hashProxyConfig snapshot) ∧
      appliedHashAt hashProxyConfig hashSecret order cycles (n + 1) family =
        some (hashProxyConfig snapshot)
  once : ∀ snapshot, AppliesAt hashProxyConfig hashSecret order cycles n family snapshot →
    ∀ m < n, ∀ earlier, AppliesAt hashProxyConfig hashSecret order cycles m family earlier →
      hashProxyConfig earlier = hashProxyConfig snapshot →
      ∃ k, m < k ∧ k < n ∧ ∃ another,
        AppliesAt hashProxyConfig hashSecret order cycles k family another ∧
          hashProxyConfig another ≠ hashProxyConfig snapshot
  unready : (∀ snapshot, ¬ StableAt hashProxyConfig cycles n family snapshot) →
    KeepsMap hashProxyConfig hashSecret order cycles n family ∧
      appliedHashAt hashProxyConfig hashSecret order cycles (n + 1) family =
        appliedHashAt hashProxyConfig hashSecret order cycles n family

/-- What holds of the secret in cycle `n`. -/
structure SecretGate (n : ℕ) : Prop where
  rotated : (cycleEndAt hashProxyConfig hashSecret order cycles n).pool.proxySecret ≠
      (cycles n).pool.proxySecret →
    ∃ secret, UpdatesSecretAt hashProxyConfig hashSecret order cycles n secret
  stable : ∀ secret, UpdatesSecretAt hashProxyConfig hashSecret order cycles n secret →
    (cycles n).downloaded = some secret ∧
      LastAgree (max (cycles n).cfg.proxySecretStableSnapshots.toNat 1)
        ((downloads cycles (n + 1)).map hashSecret) (hashSecret secret)
  once : ∀ secret, UpdatesSecretAt hashProxyConfig hashSecret order cycles n secret →
    ∀ m < n, ∀ earlier, UpdatesSecretAt hashProxyConfig hashSecret order cycles m earlier →
      hashSecret earlier = hashSecret secret →
      ∃ k, m < k ∧ k < n ∧ ∃ another,
        UpdatesSecretAt hashProxyConfig hashSecret order cycles k another ∧
          hashSecret another ≠ hashSecret secret

end

section
variable {hashProxyConfig : ProxyConfigData → UInt64} {hashSecret : List UInt8 → UInt64}
  {order : KeyOrder} {cycles : ℕ → UpdateCycle} {n : ℕ} {family : IpFamily}

theorem cycleMaps_at (n : ℕ) (family : IpFamily) :
    CycleMaps hashProxyConfig order (cycles n)
      (updaterAt hashProxyConfig hashSecret order cycles n)
      (fun family => (passed cycles family n).map hashProxyConfig)
      (cycleEndAt hashProxyConfig hashSecret order cycles n) family :=
  runUpdateCycle_maps (updaterAt_tracks n) family

theorem cycleSecret_at (n : ℕ) :
    CycleSecret hashSecret (cycles n) (updaterAt hashProxyConfig hashSecret order cycles n)
      ((downloads cycles n).map hashSecret)
      (cycleEndAt hashProxyConfig hashSecret order cycles n) :=
  runUpdateCycle_secret (updaterAt_tracks n)

theorem AppliesAt.stableAt {snapshot : ProxyConfigData}
    (h : AppliesAt hashProxyConfig hashSecret order cycles n family snapshot) :
    StableAt hashProxyConfig cycles n family snapshot := by
  obtain ⟨⟨hpassing, hagree, -⟩, -⟩ := (cycleMaps_at n family).applied snapshot h
  obtain ⟨hfetched, hguards⟩ := Option.filter_eq_some_iff.mp hpassing
  refine ⟨hfetched, hguards, ?_⟩
  rw [passed, List.map_append]
  exact hagree

/-- Applications write their time. -/
theorem writes_lastMapApplyAt :
    Writes (fun n => (updaterAt hashProxyConfig hashSecret order cycles n).lastMapApplyAt)
      (fun n t => t = (cycles n).appliedAt ∧
        ∃ other snapshot, AppliesAt hashProxyConfig hashSecret order cycles n other snapshot) := by
  constructor
  · rintro k _ ⟨rfl, other, snapshot, hk⟩
    exact ((cycleMaps_at k other).applied snapshot hk).2.2.2
  · intro k hno
    exact runUpdateCycle_lastMapApplyAt fun other snapshot hk => hno _ ⟨rfl, other, snapshot, hk⟩

/-- Applications to a family write the hash. -/
theorem writes_appliedHashAt :
    Writes (fun n => appliedHashAt hashProxyConfig hashSecret order cycles n family)
      (fun n hash => ∃ snapshot,
        AppliesAt hashProxyConfig hashSecret order cycles n family snapshot ∧
          hashProxyConfig snapshot = hash) := by
  constructor
  · rintro k _ ⟨snapshot, hk, rfl⟩
    exact ((cycleMaps_at k family).applied snapshot hk).2.2.1
  · intro k hno
    exact (cycleMaps_at k family).kept fun snapshot hk => hno _ ⟨snapshot, hk, rfl⟩

/-- Calls of `update_secret` write the hash. -/
theorem writes_secretHash :
    Writes (fun n => (updaterAt hashProxyConfig hashSecret order cycles n).secret.appliedHash)
      (fun n hash => ∃ secret,
        UpdatesSecretAt hashProxyConfig hashSecret order cycles n secret ∧
          hashSecret secret = hash) := by
  constructor
  · rintro k _ ⟨secret, hk, rfl⟩
    exact ((cycleSecret_at k).called secret hk).2
  · intro k hno
    exact ((cycleSecret_at k).kept fun secret hk => hno _ ⟨secret, hk, rfl⟩).1

theorem mapApplyCooldownReady_some {ts cooldown now : ℕ}
    (h : mapApplyCooldownReady (some ts) cooldown now = true) :
    cooldown = 0 ∨ ts + cooldown ≤ now := by
  unfold mapApplyCooldownReady at h
  split_ifs at h with hzero
  · exact .inl hzero
  · have hle := of_decide_eq_true h
    omega

theorem familyGate (n : ℕ) (family : IpFamily) :
    FamilyGate hashProxyConfig hashSecret order cycles n family := by
  have hcycle : CycleMaps hashProxyConfig order (cycles n)
      (updaterAt hashProxyConfig hashSecret order cycles n) _
      (cycleEndAt hashProxyConfig hashSecret order cycles n) family := cycleMaps_at n family
  constructor
  · intro hreplaced
    rcases hcycle.maps with hsame | hmirror | ⟨snapshot, happlies, hafter⟩
    · exact absurd (.inl hsame) hreplaced
    · exact absurd (.inr hmirror) hreplaced
    · exact ⟨snapshot, happlies, hafter⟩
  · intro snapshot happlies
    exact happlies.stableAt
  · intro snapshot happlies m hmn hm hbetween
    have hready := (hcycle.applied snapshot happlies).2.1
    have hnoted : (updaterAt hashProxyConfig hashSecret order cycles n).lastMapApplyAt =
        some (cycles m).appliedAt := by
      refine writes_lastMapApplyAt.last ⟨rfl, hm⟩ hmn ?_
      rintro k _ hk hkn ⟨-, other, between, happlies⟩
      exact absurd happlies (hbetween k hk hkn other between)
    rw [hnoted] at hready
    exact mapApplyCooldownReady_some hready
  · intro snapshot happlies
    obtain ⟨⟨-, -, hne⟩, -, hrecorded, -⟩ := hcycle.applied snapshot happlies
    exact ⟨hne, hrecorded⟩
  · intro snapshot happlies m hmn earlier hearlier hsame
    have hne := (hcycle.applied snapshot happlies).1.2.2
    obtain ⟨k, hk, hkn, _, ⟨another, hanother, rfl⟩, hother⟩ :=
      writes_appliedHashAt.between ⟨earlier, hearlier, hsame⟩ hmn hne
    exact ⟨k, hk, hkn, another, hanother, hother⟩
  · intro hunready
    have hno : ∀ snapshot, ¬ AppliesAt hashProxyConfig hashSecret order cycles n family snapshot :=
      fun snapshot happlies => hunready snapshot happlies.stableAt
    refine ⟨?_, hcycle.kept hno⟩
    rcases hcycle.maps with hsame | hmirror | ⟨snapshot, happlies, -⟩
    · exact .inl hsame
    · exact .inr hmirror
    · exact absurd happlies (hno snapshot)

theorem secretGate (n : ℕ) : SecretGate hashProxyConfig hashSecret order cycles n := by
  have hcycle : CycleSecret hashSecret (cycles n)
      (updaterAt hashProxyConfig hashSecret order cycles n) _
      (cycleEndAt hashProxyConfig hashSecret order cycles n) := cycleSecret_at n
  constructor
  · intro hrotated
    by_contra hnone
    exact hrotated (hcycle.kept fun secret hcalled => hnone ⟨secret, hcalled⟩).2
  · intro secret hcalled
    obtain ⟨⟨hdownloaded, hagree, -⟩, -⟩ := hcycle.called secret hcalled
    rw [downloads, List.map_append]
    exact ⟨hdownloaded, hagree⟩
  · intro secret hcalled m hmn earlier hearlier hsame
    have hne := (hcycle.called secret hcalled).1.2.2
    obtain ⟨k, hk, hkn, _, ⟨another, hanother, rfl⟩, hother⟩ :=
      writes_secretHash.between ⟨earlier, hearlier, hsame⟩ hmn hne
    exact ⟨k, hk, hkn, another, hanother, hother⟩

end

/-- Whatever is fetched in whatever cycles: an endpoint map is replaced by a stable snapshot only,
    after the cooldown, and not twice in a row by the same; and the same of the secret. -/
theorem stable_gate (hashProxyConfig : ProxyConfigData → UInt64) (hashSecret : List UInt8 → UInt64)
    (order : KeyOrder) (cycles : ℕ → UpdateCycle) (n : ℕ) :
    (∀ family, FamilyGate hashProxyConfig hashSecret order cycles n family) ∧
      SecretGate hashProxyConfig hashSecret order cycles n :=
  ⟨familyGate n, secretGate n⟩

end MtProxy.MiddleProxy
