import MtProxy.Network.DnsOverrides
import MtProxy.Schemes.Rotation
import MtProxy.Schemes.Run

/-! `UpstreamManager`: through which upstream a connection is made, and which ones are healthy.

        connect ──▶ select ──▶ attempt ─┬─ succeeds ──▶ healthy, no fails
                                 ▲      └─ fails, the last one ──▶ one more fail ──▶ unhealthy
                                 └───── fails, not the last one     at the threshold
        health check, every 30 s ──▶ enough DC groups reachable or not, the same way

    Any number of connections and the health check share the upstreams. The draw that is weighted by the
    latencies is any of the candidates, and the latencies are left out. -/

namespace MtProxy.Transport.Upstream
open Schemes MiddleProxy Network

def minHealthyDcGroups : ℕ := 3

/-- What is remembered of a use of an upstream, for the statements only. -/
inductive Outcome where
  | connected
  | exhausted
  | groups (reachable required : ℕ)
  deriving DecidableEq

def Outcome.ok : Outcome → Bool
  | .connected => true
  | .exhausted => false
  | .groups reachable required => decide (required ≤ reachable)

/-- `outcomes` are all so far, newest first. -/
structure UpstreamState where
  scopes : String
  healthy : Bool
  fails : ℕ
  outcomes : List Outcome

/-- A call of `connect_with_details` that has selected an upstream. -/
structure Connect where
  idx : ℕ
  failed : ℕ
  result : Option Bool

structure HealthCheckGroup where
  dcIdx : Int16
  primary : List SocketAddr
  fallback : List SocketAddr

/-- Where the next check of a list of endpoints begins; the lists are named by upstream, DC and whether
    they are the primary one. -/
abbrev EndpointRotation := ℕ × Int16 × Bool → ℕ

structure UpstreamManager where
  upstreams : List UpstreamState
  connectRetryAttempts : ℕ
  unhealthyFailThreshold : ℕ
  connects : List Connect
  endpointRotation : EndpointRotation

def UpstreamState.new (scopes : String) : UpstreamState := ⟨scopes, true, 0, []⟩

/-- The configurations are the scopes with whether they are enabled. -/
def UpstreamManager.new (configs : List (Bool × String))
    (connectRetryAttempts unhealthyFailThreshold : UInt32) : UpstreamManager where
  upstreams := (configs.filter (·.1)).map fun config => .new config.2
  connectRetryAttempts := max connectRetryAttempts.toNat 1
  unhealthyFailThreshold := max unhealthyFailThreshold.toNat 1
  connects := []
  endpointRotation := fun _ => 0

/-! ### Selection -/

/-- An upstream without scopes serves what asks for none. -/
def UpstreamState.inScope (u : UpstreamState) : Option String → Bool
  | none => u.scopes.isEmpty
  | some scope => (u.scopes.toList.splitOn ',').any fun s => trim s == scope.toList

def inScopeAt (upstreams : List UpstreamState) (scope : Option String) (i : ℕ) : Bool :=
  (upstreams[i]?.map (·.inScope scope)).getD false

def healthyAt (upstreams : List UpstreamState) (i : ℕ) : Bool :=
  (upstreams[i]?.map (·.healthy)).getD false

/-- The candidates of the draw in `select_upstream`. -/
def candidates (upstreams : List UpstreamState) (scope : Option String) : List ℕ :=
  let filtered := (List.range upstreams.length).filter (inScopeAt upstreams scope)
  let healthy := filtered.filter (healthyAt upstreams)
  if healthy.isEmpty then filtered else healthy

/-! ### Health checks -/

def requiredHealthyGroupCount (totalGroups : ℕ) : ℕ :=
  if totalGroups = 0 then 0 else min totalGroups minHealthyDcGroups

/-- What the check of a group has come to. -/
structure GroupCheck where
  ok : Bool
  rotation : EndpointRotation

section
variable (answers : SocketAddr → Bool)

/-- One list of endpoints is tried from where the rotation is, until one answers. -/
def checkEndpoints (key : ℕ × Int16 × Bool) (endpoints : List SocketAddr) (rotation : EndpointRotation) :
    GroupCheck :=
  if endpoints.isEmpty then ⟨false, rotation⟩
  else
    let startIdx := rotation key % endpoints.length
    let order := (List.range endpoints.length).map fun step => (startIdx + step) % endpoints.length
    match order.find? (fun i => (endpoints[i]?.map answers).getD false) with
    | some endpointIdx =>
      ⟨true, Function.update rotation key ((endpointIdx + 1) % endpoints.length)⟩
    | none => ⟨false, Function.update rotation key ((startIdx + 1) % endpoints.length)⟩

/-- The fallback is tried when nothing of the primary list answers. -/
def checkGroup (i : ℕ) (group : HealthCheckGroup) (rotation : EndpointRotation) : GroupCheck :=
  let first := checkEndpoints answers (i, group.dcIdx, true) group.primary rotation
  if first.ok then first
  else checkEndpoints answers (i, group.dcIdx, false) group.fallback first.rotation

end

/-- The number of reachable groups of upstream `i`; the answers are those of each group's attempts. -/
def checkGroups (answers : Int16 → SocketAddr → Bool) (i : ℕ) :
    List HealthCheckGroup → EndpointRotation → ℕ × EndpointRotation
  | [], rotation => (0, rotation)
  | group :: groups, rotation =>
    let check := checkGroup (answers group.dcIdx) i group rotation
    let rest := checkGroups answers i groups check.rotation
    ((if check.ok then 1 else 0) + rest.1, rest.2)

/-! ### The manager -/

/-- What has come of a use of an upstream; the count of fails is a `u32`. -/
def UpstreamState.note (u : UpstreamState) (threshold : ℕ) (o : Outcome) : UpstreamState :=
  if o.ok then { u with healthy := true, fails := 0, outcomes := o :: u.outcomes }
  else
    let fails := (u.fails + 1) % 2 ^ 32
    { u with
      fails := fails
      healthy := if threshold ≤ fails then false else u.healthy
      outcomes := o :: u.outcomes }

def UpstreamManager.note (s : UpstreamManager) (i : ℕ) (o : Outcome) : UpstreamManager :=
  { s with upstreams := s.upstreams.modify i (·.note s.unhealthyFailThreshold o) }

inductive Event where
  | connect (scope : Option String) (pick : ℕ)
  | attempt (c : ℕ) (ok : Bool)
  | healthCheck (i : ℕ) (answers : Int16 → SocketAddr → Bool)

/-- Without a candidate `connect` fails at once, and nothing is remembered of it. -/
def step (groups : List HealthCheckGroup) (s : UpstreamManager) : Event → Option UpstreamManager
  | .connect scope pick =>
    if (candidates s.upstreams scope).isEmpty then some s
    else (candidates s.upstreams scope)[pick]?.map fun idx =>
      { s with connects := s.connects ++ [⟨idx, 0, none⟩] }
  | .attempt c ok =>
    s.connects[c]?.bind fun connect =>
      if connect.result.isSome then none
      else if ok then
        some ({ s with connects := s.connects.set c { connect with result := some true } }.note
          connect.idx .connected)
      else if connect.failed + 1 < s.connectRetryAttempts then
        some { s with connects := s.connects.set c { connect with failed := connect.failed + 1 } }
      else
        some ({ s with
          connects := s.connects.set c { connect with failed := connect.failed + 1, result := some false }
          }.note connect.idx .exhausted)
  | .healthCheck i answers =>
    let required := requiredHealthyGroupCount groups.length
    if groups.isEmpty ∨ required = 0 ∨ s.upstreams.length ≤ i then none
    else
      let checked := checkGroups answers i groups s.endpointRotation
      some ({ s with endpointRotation := checked.2 }.note i (.groups checked.1 required))

/-! ### What a health check finds -/

section
variable {answers : SocketAddr → Bool} {endpoints : List SocketAddr}

theorem order_eq_rotate (start : ℕ) (l : List SocketAddr) :
    ((List.range l.length).map fun step => (start % l.length + step) % l.length) =
      (List.range l.length).rotate start := by
  rw [← cycleFrom_eq_rotate, cycleFrom, List.length_range, ← List.filterMap_eq_map]
  refine List.filterMap_congr fun step hstep => ?_
  have hpos : 0 < l.length := (Nat.zero_le _).trans_lt (List.mem_range.mp hstep)
  rw [List.getElem?_range (Nat.mod_lt _ hpos), Function.comp_apply, Nat.mod_add_mod]

/-- A list of endpoints is reachable exactly if one of them answers. -/
theorem checkEndpoints_ok (key : ℕ × Int16 × Bool) (rotation : EndpointRotation) :
    (checkEndpoints answers key endpoints rotation).ok = endpoints.any answers := by
  unfold checkEndpoints
  by_cases hempty : endpoints.isEmpty
  · rw [if_pos hempty, List.isEmpty_iff.mp hempty]
    rfl
  rw [if_neg hempty]
  dsimp only
  rw [order_eq_rotate]
  split
  · rename_i i hfind
    have hanswers := List.find?_some hfind
    cases hi : endpoints[i]? with
    | none => simp [hi] at hanswers
    | some e =>
      simp only [hi, Option.map_some, Option.getD_some] at hanswers
      exact (List.any_eq_true.mpr ⟨e, List.mem_of_getElem? hi, hanswers⟩).symm
  · rename_i hnone
    refine (List.any_eq_false.mpr fun e he => ?_).symm
    obtain ⟨i, hi, rfl⟩ := List.mem_iff_getElem.mp he
    have hmem : i ∈ (List.range endpoints.length).rotate (rotation key) :=
      List.mem_rotate.mpr (List.mem_range.mpr hi)
    simpa [hi] using List.find?_eq_none.mp hnone i hmem

theorem checkGroup_ok (i : ℕ) (group : HealthCheckGroup) (rotation : EndpointRotation) :
    (checkGroup answers i group rotation).ok = (group.primary ++ group.fallback).any answers := by
  have hfirst : (checkEndpoints answers (i, group.dcIdx, true) group.primary rotation).ok =
      group.primary.any answers := checkEndpoints_ok _ _
  unfold checkGroup
  dsimp only
  split
  · rename_i hok
    rw [hok, List.any_append, ← hfirst, hok, Bool.true_or]
  · rename_i hok
    rw [checkEndpoints_ok, List.any_append, ← hfirst, Bool.eq_false_of_not_eq_true hok, Bool.false_or]

end

/-- A group that is reachable at a check. -/
def Reachable (answers : Int16 → SocketAddr → Bool) (group : HealthCheckGroup) : Bool :=
  (group.primary ++ group.fallback).any (answers group.dcIdx)

theorem checkGroups_fst (answers : Int16 → SocketAddr → Bool) (i : ℕ) (groups : List HealthCheckGroup)
    (rotation : EndpointRotation) :
    (checkGroups answers i groups rotation).1 = groups.countP (Reachable answers) := by
  induction groups generalizing rotation with
  | nil => rfl
  | cons group groups ih =>
    rw [checkGroups]
    dsimp only
    rw [ih, checkGroup_ok, List.countP_cons, Nat.add_comm]
    rfl

/-! ### Fails in a row -/

def failsInRow (outcomes : List Outcome) : ℕ := (outcomes.takeWhile (fun o => !o.ok)).length

/-- The state of an upstream says how many of its last uses have failed. -/
structure Tracked (threshold : ℕ) (u : UpstreamState) : Prop where
  fails : u.fails = failsInRow u.outcomes % 2 ^ 32
  healthy : u.healthy = true ↔ failsInRow u.outcomes < threshold

theorem Tracked.note {threshold : ℕ} (hpos : 0 < threshold) (hlt : threshold < 2 ^ 32)
    {u : UpstreamState} (h : Tracked threshold u) (o : Outcome) : Tracked threshold (u.note threshold o) := by
  obtain ⟨hfails, hhealthy⟩ := h
  unfold UpstreamState.note
  by_cases hok : o.ok
  · rw [if_pos hok]
    have hrow : failsInRow (o :: u.outcomes) = 0 := by simp [failsInRow, hok]
    exact ⟨by simp [hrow], by simp [hrow, hpos]⟩
  · rw [if_neg hok]
    have hrow : failsInRow (o :: u.outcomes) = failsInRow u.outcomes + 1 := by simp [failsInRow, hok]
    dsimp only
    constructor
    · rw [hrow, hfails]
      simp [Nat.add_mod]
    · dsimp only
      rw [hrow, hfails]
      split
      · rename_i hreached
        simp only [Bool.false_eq_true, false_iff]
        omega
      · rename_i hbelow
        rw [hhealthy]
        omega

/-! ### Runs -/

/-- The uses of upstream `i` that ended one way are the calls that did. -/
def Accounted (connects : List Connect) (i : ℕ) (u : UpstreamState) : Prop :=
  u.outcomes.count .connected = connects.countP (fun c => c.idx == i && c.result == some true) ∧
    u.outcomes.count .exhausted = connects.countP (fun c => c.idx == i && c.result == some false)

/-- A call has attempts left exactly as long as it goes on. -/
def Counted (retries : ℕ) (c : Connect) : Prop :=
  (c.result = some false → c.failed = retries) ∧ (c.result ≠ some false → c.failed < retries)

structure Inv (retries threshold : ℕ) (s : UpstreamManager) : Prop where
  attempts : s.connectRetryAttempts = retries
  limit : s.unhealthyFailThreshold = threshold
  tracked : ∀ u ∈ s.upstreams, Tracked threshold u
  accounted : ∀ i u, s.upstreams[i]? = some u → Accounted s.connects i u
  counted : ∀ c ∈ s.connects, Counted retries c
  idx : ∀ c ∈ s.connects, c.idx < s.upstreams.length

section
variable {retries threshold : ℕ} {s s' : UpstreamManager}

theorem countP_set {α : Type*} (p : α → Bool) {xs : List α} {i : ℕ} {a : α} (b : α)
    (h : xs[i]? = some a) :
    (xs.set i b).countP p + (if p a then 1 else 0) = xs.countP p + if p b then 1 else 0 := by
  obtain ⟨hi, rfl⟩ := List.getElem?_eq_some_iff.mp h
  rw [List.countP_set hi]
  have hle : (if p xs[i] then 1 else 0) ≤ xs.countP p := by
    split
    · rename_i hp
      exact List.countP_pos_iff.mpr ⟨_, List.getElem_mem hi, hp⟩
    · exact Nat.zero_le _
  omega

/-- What was noted of upstream `i`. -/
theorem note_getElem? (i : ℕ) (o : Outcome) (j : ℕ) :
    (s.note i o).upstreams[j]? =
      if i = j then s.upstreams[j]?.map (·.note s.unhealthyFailThreshold o) else s.upstreams[j]? := by
  rw [UpstreamManager.note, List.getElem?_modify]
  split <;> simp

theorem outcomes_note (u : UpstreamState) (o : Outcome) :
    (u.note threshold o).outcomes = o :: u.outcomes ∧ (u.note threshold o).scopes = u.scopes := by
  unfold UpstreamState.note
  split <;> exact ⟨rfl, rfl⟩

theorem tracked_note (hpos : 0 < threshold) (hlt : threshold < 2 ^ 32)
    (hthreshold : s.unhealthyFailThreshold = threshold) (h : ∀ u ∈ s.upstreams, Tracked threshold u)
    (i : ℕ) (o : Outcome) : ∀ u ∈ (s.note i o).upstreams, Tracked threshold u := by
  intro u hu
  obtain ⟨j, hj⟩ := List.mem_iff_getElem?.mp hu
  rw [note_getElem?] at hj
  split at hj
  · obtain ⟨v, hv, rfl⟩ := Option.map_eq_some_iff.mp hj
    rw [hthreshold]
    exact (h v (List.mem_of_getElem? hv)).note hpos hlt o
  · exact h u (List.mem_of_getElem? hj)

/-- A call ends, and its upstream notes how. -/
theorem Inv.finish (h : Inv retries threshold s) (hpos : 0 < threshold) (hlt : threshold < 2 ^ 32)
    {c : ℕ} {connect : Connect} (hc : s.connects[c]? = some connect) (hrunning : connect.result = none)
    (failed : ℕ) (ok : Bool) (hcounted : Counted retries ⟨connect.idx, failed, some ok⟩) :
    Inv retries threshold
      ({ s with connects := s.connects.set c { connect with failed := failed, result := some ok } }.note
        connect.idx (if ok then .connected else .exhausted)) where
  attempts := h.attempts
  limit := h.limit
  tracked := tracked_note hpos hlt h.limit h.tracked _ _
  accounted i u hu := by
    rw [note_getElem?] at hu
    have hset (p : Connect → Bool) := countP_set p { connect with failed := failed, result := some ok } hc
    split at hu
    · rename_i hi
      obtain ⟨v, hv, rfl⟩ := Option.map_eq_some_iff.mp hu
      obtain ⟨hconnected, hexhausted⟩ := h.accounted i v hv
      rw [Accounted, (outcomes_note v _).1]
      have htrue := hset (fun c => c.idx == i && c.result == some true)
      have hfalse := hset (fun c => c.idx == i && c.result == some false)
      cases ok <;> simp [hrunning, hi] at htrue hfalse ⊢ <;> simp [UpstreamManager.note] <;> omega
    · rename_i hi
      obtain ⟨hconnected, hexhausted⟩ := h.accounted i u hu
      have htrue := hset (fun c => c.idx == i && c.result == some true)
      have hfalse := hset (fun c => c.idx == i && c.result == some false)
      have hidx : (connect.idx == i) = false := by simpa using hi
      simp only [hidx, Bool.false_and] at htrue hfalse
      exact ⟨hconnected.trans (by simpa [UpstreamManager.note] using htrue.symm),
        hexhausted.trans (by simpa [UpstreamManager.note] using hfalse.symm)⟩
  counted q hq := by
    rcases List.mem_or_eq_of_mem_set hq with hq | rfl
    · exact h.counted q hq
    · exact hcounted
  idx q hq := by
    have hlength : (s.upstreams.modify connect.idx
        (·.note s.unhealthyFailThreshold (if ok then .connected else .exhausted))).length =
        s.upstreams.length := List.length_modify ..
    rcases List.mem_or_eq_of_mem_set hq with hq | rfl
    · exact (h.idx q hq).trans_eq hlength.symm
    · exact (h.idx connect (List.mem_of_getElem? hc)).trans_eq hlength.symm

theorem candidates_lt {upstreams : List UpstreamState} {scope : Option String} {i : ℕ}
    (h : i ∈ candidates upstreams scope) : i < upstreams.length ∧ inScopeAt upstreams scope i = true := by
  have hfiltered : i ∈ (List.range upstreams.length).filter (inScopeAt upstreams scope) := by
    rw [candidates] at h
    split at h
    · exact h
    · exact List.mem_of_mem_filter h
  obtain ⟨hrange, hscope⟩ := List.mem_filter.mp hfiltered
  exact ⟨List.mem_range.mp hrange, hscope⟩

/-- A health check leaves the calls alone. -/
theorem Inv.groups (h : Inv retries threshold s) (hpos : 0 < threshold) (hlt : threshold < 2 ^ 32)
    (rotation : EndpointRotation) (i reachable required : ℕ) :
    Inv retries threshold ({ s with endpointRotation := rotation }.note i (.groups reachable required)) where
  attempts := h.attempts
  limit := h.limit
  tracked := tracked_note hpos hlt h.limit h.tracked _ _
  accounted j u hu := by
    rw [note_getElem?] at hu
    split at hu
    · obtain ⟨v, hv, rfl⟩ := Option.map_eq_some_iff.mp hu
      obtain ⟨hconnected, hexhausted⟩ := h.accounted j v hv
      rw [Accounted, (outcomes_note v _).1]
      exact ⟨by simpa [UpstreamManager.note] using hconnected,
        by simpa [UpstreamManager.note] using hexhausted⟩
    · exact h.accounted j u hu
  counted := h.counted
  idx q hq := (h.idx q hq).trans_eq (List.length_modify ..).symm

theorem Inv.step (hpos : 0 < threshold) (hlt : threshold < 2 ^ 32) (hretries : 0 < retries)
    (groups : List HealthCheckGroup) (h : Inv retries threshold s) (e : Event)
    (hstep : step groups s e = some s') : Inv retries threshold s' := by
  cases e with
  | connect scope pick =>
    dsimp only [Upstream.step] at hstep
    split at hstep
    · obtain rfl := Option.some.inj hstep
      exact h
    · obtain ⟨idx, hpick, rfl⟩ := Option.map_eq_some_iff.mp hstep
      obtain ⟨hidx, -⟩ := candidates_lt (List.mem_of_getElem? hpick)
      refine ⟨h.attempts, h.limit, h.tracked, fun i u hu => ?_, fun c hc => ?_, fun c hc => ?_⟩
      · obtain ⟨hconnected, hexhausted⟩ := h.accounted i u hu
        exact ⟨by simpa using hconnected, by simpa using hexhausted⟩
      · rcases List.mem_append.mp hc with hc | hc
        · exact h.counted c hc
        · obtain rfl := List.mem_singleton.mp hc
          exact ⟨by simp, fun _ => hretries⟩
      · rcases List.mem_append.mp hc with hc | hc
        · exact h.idx c hc
        · obtain rfl := List.mem_singleton.mp hc
          exact hidx
  | attempt c ok =>
    obtain ⟨connect, hc, hstep⟩ := Option.bind_eq_some_iff.mp hstep
    by_cases hresult : connect.result.isSome
    · rw [if_pos hresult] at hstep
      cases hstep
    rw [if_neg hresult] at hstep
    have hrunning : connect.result = none := by simpa using hresult
    have hfailed := (h.counted connect (List.mem_of_getElem? hc)).2 (by simp [hrunning])
    cases ok with
    | true =>
      obtain rfl := Option.some.inj hstep
      exact h.finish hpos hlt hc hrunning connect.failed true ⟨by simp, fun _ => hfailed⟩
    | false =>
      rw [if_neg (by simp)] at hstep
      by_cases hleft : connect.failed + 1 < s.connectRetryAttempts
      · rw [if_pos hleft] at hstep
        obtain rfl := Option.some.inj hstep
        refine ⟨h.attempts, h.limit, h.tracked, fun i u hu => ?_, fun q hq => ?_, fun q hq => ?_⟩
        · have hset (p : Connect → Bool) := countP_set p { connect with failed := connect.failed + 1 } hc
          have htrue := hset (fun c => c.idx == i && c.result == some true)
          have hfalse := hset (fun c => c.idx == i && c.result == some false)
          obtain ⟨hconnected, hexhausted⟩ := h.accounted i u hu
          exact ⟨hconnected.trans (by simpa [hrunning] using htrue.symm),
            hexhausted.trans (by simpa [hrunning] using hfalse.symm)⟩
        · rcases List.mem_or_eq_of_mem_set hq with hq | rfl
          · exact h.counted q hq
          · exact ⟨by simp [hrunning], fun _ => hleft.trans_eq h.attempts⟩
        · rcases List.mem_or_eq_of_mem_set hq with hq | rfl
          · exact h.idx q hq
          · exact h.idx connect (List.mem_of_getElem? hc)
      · rw [if_neg hleft] at hstep
        obtain rfl := Option.some.inj hstep
        have hattempts := h.attempts
        have hlast : connect.failed + 1 = retries := by omega
        exact h.finish hpos hlt hc hrunning (connect.failed + 1) false ⟨fun _ => hlast, by simp⟩
  | healthCheck i answers =>
    dsimp only [Upstream.step] at hstep
    split at hstep
    · cases hstep
    · obtain rfl := Option.some.inj hstep
      exact h.groups hpos hlt _ i _ _

theorem inv_new (configs : List (Bool × String)) (retries threshold : UInt32) :
    Inv (max retries.toNat 1) (max threshold.toNat 1) (.new configs retries threshold) := by
  have hnew : ∀ u ∈ (UpstreamManager.new configs retries threshold).upstreams, ∃ scopes, u = .new scopes := by
    intro u hu
    obtain ⟨config, -, rfl⟩ := List.mem_map.mp hu
    exact ⟨config.2, rfl⟩
  refine ⟨rfl, rfl, fun u hu => ?_, fun i u hu => ?_, by simp [UpstreamManager.new],
    by simp [UpstreamManager.new]⟩
  · obtain ⟨scopes, rfl⟩ := hnew u hu
    exact ⟨rfl, by simp [UpstreamState.new, failsInRow]⟩
  · obtain ⟨scopes, rfl⟩ := hnew u (List.mem_of_getElem? hu)
    exact ⟨rfl, rfl⟩

theorem inv_run {configs : List (Bool × String)} {retries threshold : UInt32}
    {groups : List HealthCheckGroup} {es : List Event}
    (hrun : run (step groups) (.new configs retries threshold) es = some s) :
    Inv (max retries.toNat 1) (max threshold.toNat 1) s := by
  have hlt := threshold.toNat_lt
  exact run_invariant (fun s e s' h hstep => h.step (by omega) (by omega) (by omega) groups e hstep) es
    (inv_new configs retries threshold) hrun

/-- In every run, however connections and health checks interleave: an upstream is healthy exactly as long
    as fewer of its last uses in a row have failed than the threshold says; every call that ended is one
    use, failed only after all its attempts; and a check of an upstream counts the groups one endpoint of
    which answers, and needs three of them, or all if there are fewer. -/
theorem upstream_health_exact (configs : List (Bool × String)) (retries threshold : UInt32)
    (groups : List HealthCheckGroup) (es : List Event) (s : UpstreamManager)
    (hrun : run (step groups) (.new configs retries threshold) es = some s) :
    (∀ i u, s.upstreams[i]? = some u →
      (u.healthy = true ↔ failsInRow u.outcomes < max threshold.toNat 1) ∧
      u.outcomes.count .connected = s.connects.countP (fun c => c.idx == i && c.result == some true) ∧
      u.outcomes.count .exhausted = s.connects.countP (fun c => c.idx == i && c.result == some false)) ∧
    (∀ c ∈ s.connects, c.failed ≤ max retries.toNat 1 ∧
      (c.result = some false ↔ c.failed = max retries.toNat 1)) ∧
    ∀ i u answers s', s.upstreams[i]? = some u → step groups s (.healthCheck i answers) = some s' →
      ∃ u', s'.upstreams[i]? = some u' ∧ u'.outcomes =
        .groups (groups.countP (Reachable answers)) (min groups.length minHealthyDcGroups) :: u.outcomes := by
  have hinv := inv_run hrun
  refine ⟨fun i u hu => ?_, fun c hc => ?_, fun i u answers s' hu hstep => ?_⟩
  · exact ⟨(hinv.tracked u (List.mem_of_getElem? hu)).healthy, hinv.accounted i u hu⟩
  · obtain ⟨hfalse, hother⟩ := hinv.counted c hc
    by_cases hresult : c.result = some false
    · exact ⟨(hfalse hresult).le, iff_of_true hresult (hfalse hresult)⟩
    · exact ⟨(hother hresult).le, iff_of_false hresult (hother hresult).ne⟩
  · dsimp only [step] at hstep
    split at hstep
    · cases hstep
    · rename_i hchecks
      obtain rfl := Option.some.inj hstep
      refine ⟨_, by rw [note_getElem?, if_pos rfl, hu, Option.map_some], ?_⟩
      rw [(outcomes_note u _).1, checkGroups_fst]
      have hgroups : groups.length ≠ 0 := by
        intro hzero
        exact hchecks (.inl (by simpa using hzero))
      rw [requiredHealthyGroupCount, if_neg hgroups]

/-- Two DCs, the first one with a fallback. -/
def twoGroups : List HealthCheckGroup :=
  let endpoint (last : UInt8) : SocketAddr := ⟨.v4 ⟨[149, 154, 175, last], rfl⟩, 443⟩
  [⟨1, [endpoint 50], [endpoint 51]⟩, ⟨2, [endpoint 100], []⟩]

/-- A call that fails twice, and a check in which only the fallback of the first DC answers. -/
theorem upstream_health_exact_two_fails :
    ∃ es s u, run (step twoGroups) (.new [(true, ""), (true, "")] 2 2) es = some s ∧
      s.upstreams[0]? = some u ∧ u.outcomes = [.groups 1 2, .exhausted] ∧
      (u.healthy = true ↔ failsInRow u.outcomes < 2) :=
  let es : List Event :=
    [.connect none 0, .attempt 0 false, .attempt 0 false,
      .healthCheck 0 fun _ addr => addr.ip = .v4 ⟨[149, 154, 175, 51], rfl⟩]
  ⟨es, _, _, rfl, rfl, rfl, ((upstream_health_exact [(true, ""), (true, "")] 2 2
    twoGroups es _ rfl).1 0 _ rfl).1⟩

/-- In every run a connection is made through an upstream of its scope, and through one that has failed as
    often in a row as the threshold says only if all upstreams of the scope have; it is refused only if the
    scope has none. -/
theorem unhealthy_upstream_avoided (configs : List (Bool × String)) (retries threshold : UInt32)
    (groups : List HealthCheckGroup) (es : List Event) (s s' : UpstreamManager)
    (hrun : run (step groups) (.new configs retries threshold) es = some s) (scope : Option String)
    (pick : ℕ) (hstep : step groups s (.connect scope pick) = some s') :
    (s' = s ∧ ∀ u ∈ s.upstreams, u.inScope scope = false) ∨
    ∃ idx u, s'.connects = s.connects ++ [⟨idx, 0, none⟩] ∧ s.upstreams[idx]? = some u ∧
      u.inScope scope = true ∧
      (max threshold.toNat 1 ≤ failsInRow u.outcomes →
        ∀ v ∈ s.upstreams, v.inScope scope = true → max threshold.toNat 1 ≤ failsInRow v.outcomes) := by
  have hinv := inv_run hrun
  have hfiltered {v : UpstreamState} (hv : v ∈ s.upstreams) (hscope : v.inScope scope = true) :
      ∃ j, s.upstreams[j]? = some v ∧
        j ∈ (List.range s.upstreams.length).filter (inScopeAt s.upstreams scope) := by
    obtain ⟨j, hj⟩ := List.mem_iff_getElem?.mp hv
    obtain ⟨hlt, -⟩ := List.getElem?_eq_some_iff.mp hj
    exact ⟨j, hj, List.mem_filter.mpr ⟨List.mem_range.mpr hlt, by simp [inScopeAt, hj, hscope]⟩⟩
  dsimp only [step] at hstep
  split at hstep
  · rename_i hempty
    refine .inl ⟨(Option.some.inj hstep).symm, fun u hu => ?_⟩
    by_contra hscope
    obtain ⟨j, -, hj⟩ := hfiltered hu (by simpa using hscope)
    rw [candidates] at hempty
    split at hempty
    · exact List.ne_nil_of_mem hj (List.isEmpty_iff.mp hempty)
    · contradiction
  · obtain ⟨idx, hpick, rfl⟩ := Option.map_eq_some_iff.mp hstep
    have hmem := List.mem_of_getElem? hpick
    obtain ⟨hidx, hscope⟩ := candidates_lt hmem
    have hu : s.upstreams[idx]? = some s.upstreams[idx] := List.getElem?_eq_getElem hidx
    refine .inr ⟨idx, s.upstreams[idx], rfl, hu, by simpa [inScopeAt, hu] using hscope, ?_⟩
    intro hfails v hv hvscope
    by_contra hless
    obtain ⟨j, hj, hjmem⟩ := hfiltered hv hvscope
    have hhealthy : v.healthy = true := (hinv.tracked v hv).healthy.mpr (Nat.lt_of_not_le hless)
    have hjhealthy : j ∈ ((List.range s.upstreams.length).filter (inScopeAt s.upstreams scope)).filter
        (healthyAt s.upstreams) := List.mem_filter.mpr ⟨hjmem, by simp [healthyAt, hj, hhealthy]⟩
    rw [candidates, if_neg (by simpa using List.ne_nil_of_mem hjhealthy)] at hmem
    have hidxHealthy := (List.mem_filter.mp hmem).2
    simp only [healthyAt, hu, Option.map_some, Option.getD_some] at hidxHealthy
    have := (hinv.tracked _ (List.mem_of_getElem? hu)).healthy.mp hidxHealthy
    omega

/-- The first of two upstreams has failed; the other one is the only candidate. -/
theorem unhealthy_upstream_avoided_one_left :
    ∃ es s s', run (step []) (.new [(true, ""), (true, "")] 1 1) es = some s ∧
      step [] s (.connect none 0) = some s' ∧ s'.connects.length = 2 ∧
      ((s' = s ∧ ∀ u ∈ s.upstreams, u.inScope none = false) ∨
        ∃ idx u, s'.connects = s.connects ++ [⟨idx, 0, none⟩] ∧ s.upstreams[idx]? = some u ∧
          u.inScope none = true ∧ (1 ≤ failsInRow u.outcomes →
            ∀ v ∈ s.upstreams, v.inScope none = true → 1 ≤ failsInRow v.outcomes)) :=
  let es : List Event := [.connect none 0, .attempt 0 false]
  ⟨es, _, _, rfl, rfl, rfl,
    unhealthy_upstream_avoided [(true, ""), (true, "")] 1 1 [] es _ _ rfl none 0 rfl⟩

end

end MtProxy.Transport.Upstream
