import MtProxy.MiddleProxy.Wire
import MtProxy.Schemes.Expiry
import MtProxy.Schemes.Rotation
import MtProxy.Schemes.Run

/-! The quarantine of flapping endpoints, and the refill after the loss of a writer, which goes by it:

        writer lost after ≤ 20 s ──▶ until = now + 25 s ──▶ (lock) ──▶ quarantine

        refill   quarantined? ─no─▶ addr addr ⋯ addr ─▶ round 1 ─▶ ⋯ ─▶ round n ─▶ failed
                       └──────────────yes───────────────────┘
        round    the endpoints of the DC that are not quarantined, or the one that is free first,
                 once each from where the counter points to

    The first connection that succeeds ends it. In between other tasks put endpoints into quarantine and
    move the counter. -/

namespace MtProxy.MiddleProxy.Quarantine
open Schemes

/-- In nanoseconds, as an `Instant` and a `Duration` count. -/
def flapUptimeThreshold : ℕ := 20 * 10 ^ 9
def flapQuarantine : ℕ := 25 * 10 ^ 9

/-- A quarantine, from when it is due until it has been recorded and after. -/
structure Flap where
  addr : SocketAddr
  expiry : ℕ
  deriving DecidableEq

/-- `waiting` are those that wait for the lock, `recorded` those that had it, newest first. -/
structure Pool where
  endpointQuarantine : Expiry.Table SocketAddr
  rr : UInt64
  now : ℕ
  waiting : List Flap
  recorded : List Flap

def Pool.new : Pool := ⟨fun _ => none, 0, 0, [], []⟩

/-! ### The quarantine -/

/-- What is kept of a lost writer: an uptime above the threshold is no flap. -/
def maybeQuarantineFlappingEndpoint (s : Pool) (addr : SocketAddr) (uptime : ℕ) : Pool :=
  if flapUptimeThreshold < uptime then s
  else { s with waiting := s.waiting ++ [⟨addr, s.now + flapQuarantine⟩] }

/-- The rest of it, behind the lock. -/
def Pool.record (s : Pool) (i : ℕ) (f : Flap) : Pool :=
  { s with
    endpointQuarantine := Expiry.insert f.addr f.expiry (Expiry.retain s.now s.endpointQuarantine)
    waiting := s.waiting.eraseIdx i
    recorded := f :: s.recorded }

def Pool.clean (s : Pool) : Pool :=
  { s with endpointQuarantine := Expiry.retain s.now s.endpointQuarantine }

def isEndpointQuarantined (s : Pool) (addr : SocketAddr) : Bool × Pool :=
  ((s.clean.endpointQuarantine addr).isSome, s.clean)

/-- One round of the scan: the endpoints that are ready, and of the others the one that is free first. -/
def scanEndpoint (quarantine : Expiry.Table SocketAddr)
    (found : List SocketAddr × Option (SocketAddr × ℕ)) (addr : SocketAddr) :
    List SocketAddr × Option (SocketAddr × ℕ) :=
  match quarantine addr with
  | none => (found.1 ++ [addr], found.2)
  | some expiry =>
    match found.2 with
    | none => (found.1, some (addr, expiry))
    | some (earliest, current) =>
      (found.1, some (if current ≤ expiry then (earliest, current) else (addr, expiry)))

def connectableEndpoints (s : Pool) (endpoints : List SocketAddr) : List SocketAddr × Pool :=
  if endpoints.isEmpty then ([], s)
  else
    let found := endpoints.foldl (scanEndpoint s.clean.endpointQuarantine) ([], none)
    (if found.1.isEmpty then found.2.toList.map Prod.fst else found.1, s.clean)

/-! ### The refill -/

/-- The time and the quarantines recorded by then. -/
structure View where
  now : ℕ
  recorded : List Flap
  deriving DecidableEq

inductive Phase where
  | check
  | same (attempt : ℕ)
  | resolve
  | pick (attempt : ℕ)
  | take (attempt : ℕ) (view : View) (candidates : List SocketAddr)
  | connect (attempt : ℕ) (left : List SocketAddr)
  | done (restored : Bool)
  deriving DecidableEq

/-- One call of `connect_endpoints_round_robin`: what it saw, and the order of its candidates. -/
structure Round where
  view : View
  order : List SocketAddr

/-- What a refill adds to the counters. -/
structure RefillStats where
  reconnectAttempt : ℕ
  reconnectSuccess : ℕ
  restoredSameEndpoint : ℕ
  restoredFallback : ℕ
  refillFailed : ℕ
  deriving DecidableEq

/-- `tried` are the connections that have failed, in their order. -/
structure Refill where
  addr : SocketAddr
  phase : Phase
  checked : Option View
  skipped : Bool
  dcEndpoints : List SocketAddr
  rounds : List Round
  tried : List SocketAddr
  restored : Option SocketAddr
  stats : RefillStats

def Refill.start (addr : SocketAddr) : Refill :=
  ⟨addr, .check, none, false, [], [], [], none, ⟨0, 0, 0, 0, 0⟩⟩

def Pool.view (s : Pool) : View := ⟨s.now, s.recorded⟩

/-- What the rest of the pool answers: the endpoints of the DC, whether a connection succeeds. -/
inductive Answer where
  | go
  | endpoints (addrs : List SocketAddr)
  | connected (ok : Bool)

def Refill.fail (r : Refill) : Refill :=
  { r with phase := .done false, stats.refillFailed := r.stats.refillFailed + 1 }

section
variable (fastRetries : ℕ)

/-- After a round in which nothing was connected. -/
def Refill.nextRound (r : Refill) (attempt : ℕ) : Refill :=
  if attempt + 1 < fastRetries then { r with phase := .pick (attempt + 1) } else r.fail

/-- `refill_writer_after_loss`, from one access to what is shared to the next. -/
def refillStep (s : Pool) (r : Refill) : Answer → Option (Pool × Refill)
  | .go =>
    match r.phase with
    | .check =>
      let (quarantined, s') := isEndpointQuarantined s r.addr
      some (s', { r with
        checked := some s.view, skipped := quarantined
        phase := if quarantined then .resolve else .same 0 })
    | .pick attempt =>
      let (candidates, s') := connectableEndpoints s r.dcEndpoints
      let r := { r with stats.reconnectAttempt := r.stats.reconnectAttempt + 1 }
      if candidates.isEmpty then some (s', r.nextRound fastRetries attempt)
      else some (s', { r with phase := .take attempt s.view candidates })
    | .take attempt view candidates =>
      let order := cycleFrom (s.rr.toNat % candidates.length) candidates
      some ({ s with rr := s.rr + 1 }, { r with
        rounds := r.rounds ++ [⟨view, order⟩], phase := .connect attempt order })
    | _ => none
  | .endpoints addrs =>
    match r.phase with
    | .resolve =>
      if ¬ addrs.Nodup then none
      else if addrs.isEmpty then some (s, r.fail)
      else some (s, { r with dcEndpoints := addrs, phase := .pick 0 })
    | _ => none
  | .connected ok =>
    match r.phase with
    | .same attempt =>
      let r := { r with stats.reconnectAttempt := r.stats.reconnectAttempt + 1 }
      if ok then
        some (s, { r with
          phase := .done true, restored := some r.addr
          stats.reconnectSuccess := r.stats.reconnectSuccess + 1
          stats.restoredSameEndpoint := r.stats.restoredSameEndpoint + 1 })
      else
        some (s, { r with
          tried := r.tried ++ [r.addr]
          phase := if attempt + 1 < fastRetries then .same (attempt + 1) else .resolve })
    | .connect attempt (addr :: left) =>
      if ok then
        some (s, { r with
          phase := .done true, restored := some addr
          stats.reconnectSuccess := r.stats.reconnectSuccess + 1
          stats.restoredFallback := r.stats.restoredFallback + 1 })
      else
        let r := { r with tried := r.tried ++ [addr] }
        if left.isEmpty then some (s, r.nextRound fastRetries attempt)
        else some (s, { r with phase := .connect attempt left })
    | _ => none

inductive Event where
  | tick (d : ℕ)
  | writerLost (addr : SocketAddr) (uptime : ℕ)
  | recorded (i : ℕ)
  | cleaned
  | counted
  | refill (a : Answer)

/-- Other tasks lose writers, record their quarantines, look at them and move the counter at any time. -/
def step (x : Pool × Refill) : Event → Option (Pool × Refill)
  | .tick d => some ({ x.1 with now := x.1.now + d }, x.2)
  | .writerLost addr uptime => some (maybeQuarantineFlappingEndpoint x.1 addr uptime, x.2)
  | .recorded i => x.1.waiting[i]?.map fun f => (x.1.record i f, x.2)
  | .cleaned => some (x.1.clean, x.2)
  | .counted => some ({ x.1 with rr := x.1.rr + 1 }, x.2)
  | .refill a => refillStep fastRetries x.1 x.2 a

end

/-! ### Who is in quarantine -/

/-- The last quarantine that was recorded for an address. -/
def lastExpiry (recorded : List Flap) : Expiry.Table SocketAddr :=
  fun addr => (recorded.find? (fun f => f.addr = addr)).map (·.expiry)

/-- Until when an address is in quarantine. -/
def View.quarantine (v : View) : Expiry.Table SocketAddr := Expiry.retain v.now (lastExpiry v.recorded)

theorem lastExpiry_cons (f : Flap) (recorded : List Flap) :
    lastExpiry (f :: recorded) = Expiry.insert f.addr f.expiry (lastExpiry recorded) := by
  funext addr
  by_cases h : addr = f.addr
  · subst h
    simp [lastExpiry, Expiry.insert]
  · simp [lastExpiry, Expiry.insert, h, Ne.symm h]

structure PoolInv (s : Pool) : Prop where
  agrees : Expiry.Agrees s.now s.endpointQuarantine (lastExpiry s.recorded)
  short : ∀ f ∈ s.waiting ++ s.recorded, f.expiry ≤ s.now + flapQuarantine

section
variable {s s' : Pool} {r r' : Refill} {x x' : Pool × Refill} {fastRetries : ℕ} {e : Event}

theorem PoolInv.new : PoolInv Pool.new := ⟨.refl _ _, by simp [Pool.new]⟩

theorem PoolInv.clean (h : PoolInv s) : PoolInv s.clean := ⟨h.agrees.retain, h.short⟩

theorem PoolInv.tick (h : PoolInv s) (d : ℕ) : PoolInv { s with now := s.now + d } where
  agrees := h.agrees.mono (Nat.le_add_right s.now d)
  short f hf := (h.short f hf).trans (Nat.add_le_add_right (Nat.le_add_right s.now d) _)

theorem PoolInv.counted (h : PoolInv s) : PoolInv { s with rr := s.rr + 1 } := ⟨h.agrees, h.short⟩

theorem PoolInv.lost (h : PoolInv s) (addr : SocketAddr) (uptime : ℕ) :
    PoolInv (maybeQuarantineFlappingEndpoint s addr uptime) := by
  unfold maybeQuarantineFlappingEndpoint
  split
  · exact h
  · refine ⟨h.agrees, fun f hf => ?_⟩
    have hcases : f ∈ s.waiting ++ s.recorded ∨ f = ⟨addr, s.now + flapQuarantine⟩ := by
      simp only [List.mem_append, List.mem_singleton] at hf ⊢
      tauto
    rcases hcases with hf | rfl
    · exact h.short f hf
    · exact le_refl _

theorem PoolInv.record {i : ℕ} {f : Flap} (h : PoolInv s) (hf : s.waiting[i]? = some f) :
    PoolInv (s.record i f) where
  agrees := by
    change Expiry.Agrees s.now _ (lastExpiry (f :: s.recorded))
    rw [lastExpiry_cons]
    exact h.agrees.retain.insert f.addr f.expiry
  short g hg := by
    refine h.short g (List.mem_append.mpr ?_)
    rcases List.mem_append.mp hg with hg | hg
    · exact .inl (List.mem_of_mem_eraseIdx hg)
    · rcases List.mem_cons.mp hg with rfl | hg
      · exact .inl (List.mem_of_getElem? hf)
      · exact .inr hg

/-- A refill does nothing to what is shared but clean the quarantine and move the counter. -/
theorem refillStep_pool {a : Answer} (h : refillStep fastRetries s r a = some (s', r')) :
    s' = s ∨ s' = s.clean ∨ s' = { s with rr := s.rr + 1 } := by
  have hconn : ∀ endpoints, (connectableEndpoints s endpoints).2 = s ∨
      (connectableEndpoints s endpoints).2 = s.clean := by
    intro endpoints
    unfold connectableEndpoints
    split
    · exact .inl rfl
    · exact .inr rfl
  cases a with
  | go =>
    simp only [refillStep] at h
    split at h
    · exact .inr (.inl (Prod.mk.inj (Option.some.inj h)).1.symm)
    · have hs : s' = (connectableEndpoints s r.dcEndpoints).2 := by
        split at h <;> exact (Prod.mk.inj (Option.some.inj h)).1.symm
      rcases hconn r.dcEndpoints with hc | hc
      · exact .inl (hs.trans hc)
      · exact .inr (.inl (hs.trans hc))
    · exact .inr (.inr (Prod.mk.inj (Option.some.inj h)).1.symm)
    · cases h
  | endpoints addrs =>
    simp only [refillStep] at h
    split at h
    · split_ifs at h <;> exact .inl (Prod.mk.inj (Option.some.inj h)).1.symm
    · cases h
  | connected ok =>
    simp only [refillStep] at h
    split at h
    · split_ifs at h <;> exact .inl (Prod.mk.inj (Option.some.inj h)).1.symm
    · split_ifs at h <;> exact .inl (Prod.mk.inj (Option.some.inj h)).1.symm
    · cases h

theorem PoolInv.step (h : PoolInv x.1) (hstep : step fastRetries x e = some x') : PoolInv x'.1 := by
  cases e with
  | tick d =>
    obtain rfl := Option.some.inj hstep
    exact h.tick d
  | writerLost addr uptime =>
    obtain rfl := Option.some.inj hstep
    exact h.lost addr uptime
  | recorded i =>
    obtain ⟨f, hf, rfl⟩ := Option.map_eq_some_iff.mp hstep
    exact h.record hf
  | cleaned =>
    obtain rfl := Option.some.inj hstep
    exact h.clean
  | counted =>
    obtain rfl := Option.some.inj hstep
    exact h.counted
  | refill a =>
    have hmoved : refillStep fastRetries x.1 x.2 a = some (x'.1, x'.2) := hstep
    rcases refillStep_pool hmoved with hs | hs | hs <;> rw [hs]
    · exact h
    · exact h.clean
    · exact h.counted

/-- What the table says now is what was recorded last. -/
theorem PoolInv.quarantine (h : PoolInv s) : s.clean.endpointQuarantine = s.view.quarantine :=
  h.agrees s.now (le_refl _)

end

/-! ### Whom a round goes through -/

/-- The endpoints that are not in quarantine; if all are, one of those that are free first. -/
def Choice (v : View) (endpoints chosen : List SocketAddr) : Prop :=
  (chosen = endpoints.filter (fun a => (v.quarantine a).isNone) ∧ chosen ≠ []) ∨
    ∃ a t, chosen = [a] ∧ a ∈ endpoints ∧ v.quarantine a = some t ∧
      ∀ b ∈ endpoints, ∃ u, v.quarantine b = some u ∧ t ≤ u

/-- What the scan has found in `seen`: the one that is free first of those in quarantine. -/
def Earliest (q : Expiry.Table SocketAddr) (seen : List SocketAddr) :
    Option (SocketAddr × ℕ) → Prop
  | none => ∀ b ∈ seen, q b = none
  | some (a, t) => a ∈ seen ∧ q a = some t ∧ ∀ b ∈ seen, ∀ u, q b = some u → t ≤ u

section
variable {q : Expiry.Table SocketAddr} {v : View} {seen endpoints chosen : List SocketAddr}

theorem Earliest.scan {ready : List SocketAddr} {e : Option (SocketAddr × ℕ)} (h : Earliest q seen e)
    (addr : SocketAddr) : Earliest q (seen ++ [addr]) (scanEndpoint q (ready, e) addr).2 := by
  have hmem : ∀ b, b ∈ seen ++ [addr] ↔ b ∈ seen ∨ b = addr := by simp
  cases hq : q addr with
  | none =>
    rw [scanEndpoint, hq]
    cases e with
    | none =>
      intro b hb
      rcases (hmem b).mp hb with hb | rfl
      exacts [h b hb, hq]
    | some p =>
      obtain ⟨ha, hexp, hmin⟩ := h
      refine ⟨(hmem _).mpr (.inl ha), hexp, fun b hb u hu => ?_⟩
      rcases (hmem b).mp hb with hb | rfl
      · exact hmin b hb u hu
      · rw [hq] at hu
        cases hu
  | some expiry =>
    rw [scanEndpoint, hq]
    cases e with
    | none =>
      refine ⟨(hmem _).mpr (.inr rfl), hq, fun b hb u hu => ?_⟩
      rcases (hmem b).mp hb with hb | rfl
      · rw [h b hb] at hu
        cases hu
      · exact (Option.some.inj (hq.symm.trans hu)).le
    | some p =>
      obtain ⟨ha, hexp, hmin⟩ := h
      dsimp only
      split
      · rename_i hle
        refine ⟨(hmem _).mpr (.inl ha), hexp, fun b hb u hu => ?_⟩
        rcases (hmem b).mp hb with hb | rfl
        · exact hmin b hb u hu
        · exact hle.trans (Option.some.inj (hq.symm.trans hu)).le
      · rename_i hlt
        refine ⟨(hmem _).mpr (.inr rfl), hq, fun b hb u hu => ?_⟩
        rcases (hmem b).mp hb with hb | rfl
        · exact (Nat.le_of_not_le hlt).trans (hmin b hb u hu)
        · exact (Option.some.inj (hq.symm.trans hu)).le

theorem scan_found (q : Expiry.Table SocketAddr) (endpoints : List SocketAddr) :
    (endpoints.foldl (scanEndpoint q) ([], none)).1 = endpoints.filter (fun a => (q a).isNone) ∧
      Earliest q endpoints (endpoints.foldl (scanEndpoint q) ([], none)).2 := by
  induction endpoints using List.reverseRecOn with
  | nil => exact ⟨rfl, by simp [Earliest]⟩
  | append_singleton seen addr ih =>
    rw [List.foldl_append, List.foldl_cons, List.foldl_nil]
    refine ⟨?_, ih.2.scan addr⟩
    rw [List.filter_append, ← ih.1, scanEndpoint]
    cases hq : q addr with
    | none => simp [hq]
    | some expiry =>
      cases (seen.foldl (scanEndpoint q) ([], none)).2 <;> simp [hq]

theorem PoolInv.choice {s : Pool} (h : PoolInv s) (hne : endpoints ≠ []) :
    Choice s.view endpoints (connectableEndpoints s endpoints).1 := by
  obtain ⟨hready, hearliest⟩ := scan_found s.clean.endpointQuarantine endpoints
  rw [connectableEndpoints, if_neg (by simpa using hne)]
  dsimp only
  set found := endpoints.foldl (scanEndpoint s.clean.endpointQuarantine) ([], none) with hfound
  rw [h.quarantine] at hready hearliest
  by_cases hnone : found.1 = []
  · rw [if_pos (by simpa using hnone)]
    -- nobody is ready, so all are in quarantine and the scan has found one
    have hall : ∀ b ∈ endpoints, ∃ u, s.view.quarantine b = some u := by
      intro b hb
      rw [hready, List.filter_eq_nil_iff] at hnone
      simpa [Option.isNone_iff_eq_none, ← Option.ne_none_iff_exists'] using hnone b hb
    cases hlast : found.2 with
    | none =>
      rw [hlast] at hearliest
      obtain ⟨b, hb⟩ := List.exists_mem_of_ne_nil endpoints hne
      obtain ⟨u, hu⟩ := hall b hb
      rw [hearliest b hb] at hu
      cases hu
    | some p =>
      rw [hlast] at hearliest
      obtain ⟨ha, ht, hmin⟩ := hearliest
      refine .inr ⟨p.1, p.2, rfl, ha, ht, fun b hb => ?_⟩
      obtain ⟨u, hu⟩ := hall b hb
      exact ⟨u, hu, hmin b hb u hu⟩
  · rw [if_neg (by simpa using hnone)]
    exact .inl ⟨hready, hnone⟩

theorem Choice.ne_nil (h : Choice v endpoints chosen) : chosen ≠ [] := by
  rcases h with ⟨-, hne⟩ | ⟨a, t, rfl, -⟩
  · exact hne
  · exact List.cons_ne_nil a []

end

/-! ### Which losses count -/

/-- The quarantines that the losses of a run give rise to. -/
def flapsOf : ℕ → List Event → List Flap
  | _, [] => []
  | now, .tick d :: es => flapsOf (now + d) es
  | now, .writerLost addr uptime :: es =>
    if flapUptimeThreshold < uptime then flapsOf now es
    else ⟨addr, now + flapQuarantine⟩ :: flapsOf now es
  | now, _ :: es => flapsOf now es

theorem flaps_of_run {fastRetries : ℕ} (es : List Event) {x u : Pool × Refill}
    (h : run (step fastRetries) x es = some u) :
    (u.1.waiting ++ u.1.recorded).Perm (x.1.waiting ++ x.1.recorded ++ flapsOf x.1.now es) := by
  induction es generalizing x with
  | nil =>
    obtain rfl := Option.some.inj h
    rw [flapsOf, List.append_nil]
  | cons e es ih =>
    obtain ⟨x', hstep, hrun⟩ := run_cons h
    refine (ih hrun).trans ?_
    cases e with
    | tick d =>
      obtain rfl := Option.some.inj hstep
      exact .refl _
    | writerLost addr uptime =>
      obtain rfl := Option.some.inj hstep
      rw [maybeQuarantineFlappingEndpoint, flapsOf]
      split
      · exact .refl _
      · dsimp only
        rw [List.append_assoc, List.append_assoc, List.append_assoc, List.singleton_append]
        exact List.Perm.append_left _ (List.perm_middle.symm)
    | recorded i =>
      obtain ⟨f, hf, rfl⟩ := Option.map_eq_some_iff.mp hstep
      refine List.Perm.append_right _ ?_
      obtain ⟨hi, rfl⟩ := List.getElem?_eq_some_iff.mp hf
      exact List.perm_middle.trans ((List.getElem_cons_eraseIdx_perm hi).append_right _)
    | cleaned =>
      obtain rfl := Option.some.inj hstep
      exact .refl _
    | counted =>
      obtain rfl := Option.some.inj hstep
      exact .refl _
    | refill a =>
      have hmoved : refillStep fastRetries x.1 x.2 a = some (x'.1, x'.2) := hstep
      rcases refillStep_pool hmoved with hs | hs | hs <;> rw [hs] <;>
        exact .refl _

/-- In every run, whatever other tasks clean and record in between: an address is in quarantine exactly
    as long as its last recorded loss says, at most 25 s; those losses are the ones after an uptime of at
    most 20 s; and a round goes through the endpoints that are free, or one that is free first. -/
theorem quarantine_exact (fastRetries : ℕ) (addr : SocketAddr) (es : List Event)
    (x : Pool × Refill) (hrun : run (step fastRetries) (Pool.new, .start addr) es = some x) :
    (∀ a, (isEndpointQuarantined x.1 a).1 = true ↔
        ∃ t, lastExpiry x.1.recorded a = some t ∧ x.1.now < t) ∧
      (x.1.waiting ++ x.1.recorded).Perm (flapsOf 0 es) ∧
      (∀ f ∈ x.1.waiting ++ x.1.recorded, f.expiry ≤ x.1.now + flapQuarantine) ∧
      ∀ endpoints, endpoints ≠ [] → Choice x.1.view endpoints (connectableEndpoints x.1 endpoints).1 := by
  have hinv : PoolInv x.1 :=
    run_invariant (I := fun x => PoolInv x.1) (fun _ _ _ h hstep => h.step hstep) es PoolInv.new hrun
  refine ⟨fun a => ?_, flaps_of_run es hrun, hinv.short, fun endpoints hne => hinv.choice hne⟩
  rw [isEndpointQuarantined, hinv.quarantine, Option.isSome_iff_exists]
  exact exists_congr fun t => Expiry.retain_eq_some

/-- The quarantine after a loss that came too early is over 25 s later. -/
theorem quarantine_exact_over :
    let a : SocketAddr := ⟨.v4 ⟨[10, 0, 0, 1], rfl⟩, 443⟩
    ∃ x, run (step 3) (Pool.new, .start a)
        [.writerLost a (5 * 10 ^ 9), .recorded 0, .tick (25 * 10 ^ 9)] = some x ∧
      ((isEndpointQuarantined x.1 a).1 = true ↔
        ∃ t, lastExpiry x.1.recorded a = some t ∧ x.1.now < t) := by
  intro a
  let es : List Event := [.writerLost a (5 * 10 ^ 9), .recorded 0, .tick (25 * 10 ^ 9)]
  exact ⟨_, rfl, (quarantine_exact 3 a es _ rfl).1 a⟩

/-! ### What a refill tries -/

/-- The attempts at the lost writer's own endpoint. -/
def Refill.sames (fastRetries : ℕ) (r : Refill) : List SocketAddr :=
  if r.skipped then [] else List.replicate fastRetries r.addr

/-- All attempts of a refill that fails, as far as its rounds have begun. -/
def Refill.plan (fastRetries : ℕ) (r : Refill) : List SocketAddr :=
  r.sames fastRetries ++ r.rounds.flatMap (·.order)

structure Undecided (r : Refill) : Prop where
  restored : r.restored = none
  success : r.stats.reconnectSuccess = 0
  same : r.stats.restoredSameEndpoint = 0
  fallback : r.stats.restoredFallback = 0
  failed : r.stats.refillFailed = 0

/-- Where a refill stands in its plan. -/
def Refill.At (fastRetries : ℕ) (r : Refill) : Prop :=
  match r.phase with
  | .check => r.dcEndpoints = [] ∧ r.rounds = [] ∧ r.tried = [] ∧ Undecided r
  | .same attempt => attempt < fastRetries ∧ r.skipped = false ∧ r.dcEndpoints = [] ∧ r.rounds = [] ∧
      r.tried = List.replicate attempt r.addr ∧ Undecided r
  | .resolve => r.dcEndpoints = [] ∧ r.rounds = [] ∧ r.tried = r.plan fastRetries ∧ Undecided r
  | .pick attempt => attempt < fastRetries ∧ r.dcEndpoints ≠ [] ∧ r.rounds.length = attempt ∧
      r.tried = r.plan fastRetries ∧ Undecided r
  | .take attempt view candidates => attempt < fastRetries ∧ r.dcEndpoints ≠ [] ∧
      r.rounds.length = attempt ∧ r.tried = r.plan fastRetries ∧ Undecided r ∧
      Choice view r.dcEndpoints candidates
  | .connect attempt left => attempt < fastRetries ∧ r.dcEndpoints ≠ [] ∧
      r.rounds.length = attempt + 1 ∧ left ≠ [] ∧ r.tried ++ left = r.plan fastRetries ∧ Undecided r
  | .done true => ∃ addr, r.restored = some addr ∧ r.tried ++ [addr] <+: r.plan fastRetries ∧
      r.stats.reconnectSuccess = 1 ∧ r.stats.restoredSameEndpoint + r.stats.restoredFallback = 1 ∧
      r.stats.refillFailed = 0
  | .done false => r.restored = none ∧ r.tried = r.plan fastRetries ∧
      (r.dcEndpoints = [] ∨ r.rounds.length = fastRetries) ∧ r.stats.reconnectSuccess = 0 ∧
      r.stats.restoredSameEndpoint + r.stats.restoredFallback = 0 ∧ r.stats.refillFailed = 1

structure RefillInv (fastRetries : ℕ) (r : Refill) : Prop where
  checked : r.phase ≠ .check →
    ∃ v, r.checked = some v ∧ r.skipped = (v.quarantine r.addr).isSome
  rounds : ∀ round ∈ r.rounds, ∃ chosen, Choice round.view r.dcEndpoints chosen ∧
    round.order.Perm chosen
  plan : r.At fastRetries

section
variable {s s' : Pool} {r r' : Refill} {fastRetries : ℕ}

theorem RefillInv.start (addr : SocketAddr) : RefillInv fastRetries (.start addr) where
  checked h := absurd rfl h
  rounds := by simp [Refill.start]
  plan := ⟨rfl, rfl, rfl, rfl, rfl, rfl, rfl, rfl⟩

/-- The end of a round: the next one, or the end. -/
theorem RefillInv.nextRound {attempt : ℕ} (hattempt : attempt < fastRetries)
    (hlen : r.rounds.length = attempt + 1) (htried : r.tried = r.plan fastRetries)
    (hundecided : Undecided r) (hends : r.dcEndpoints ≠ [])
    (hchecked : ∃ v, r.checked = some v ∧ r.skipped = (v.quarantine r.addr).isSome)
    (hrounds : ∀ round ∈ r.rounds, ∃ chosen, Choice round.view r.dcEndpoints chosen ∧
      round.order.Perm chosen) : RefillInv fastRetries (r.nextRound fastRetries attempt) := by
  obtain ⟨hrestored, hsuccess, hsame, hfallback, hfailed⟩ := hundecided
  unfold Refill.nextRound
  split
  · rename_i hlt
    exact ⟨fun _ => hchecked, hrounds, hlt, hends, hlen, htried, hrestored, hsuccess, hsame, hfallback,
      hfailed⟩
  · rename_i hge
    refine ⟨fun _ => hchecked, hrounds, hrestored, htried, .inr ?_, hsuccess, ?_, ?_⟩
    · change r.rounds.length = fastRetries
      omega
    · change r.stats.restoredSameEndpoint + r.stats.restoredFallback = 0
      omega
    · change r.stats.refillFailed + 1 = 1
      omega

theorem RefillInv.go (h : RefillInv fastRetries r) (hpool : PoolInv s) (hfast : 0 < fastRetries)
    (hstep : refillStep fastRetries s r .go = some (s', r')) : RefillInv fastRetries r' := by
  obtain ⟨hchecked, hrounds, hat⟩ := h
  simp only [refillStep] at hstep
  unfold Refill.At at hat
  split at hstep
  · rename_i hphase
    rw [hphase] at hat
    obtain ⟨hends, hnone, htried, hundecided⟩ := hat
    obtain rfl := (Prod.mk.inj (Option.some.inj hstep)).2
    have hview : (isEndpointQuarantined s r.addr).1 = (s.view.quarantine r.addr).isSome := by
      rw [isEndpointQuarantined, hpool.quarantine]
    refine ⟨fun _ => ⟨s.view, rfl, hview⟩, hrounds, ?_⟩
    unfold Refill.At
    cases hq : (isEndpointQuarantined s r.addr).1 with
    | true => exact ⟨hends, hnone, by simp [Refill.plan, Refill.sames, htried, hnone], hundecided.1,
        hundecided.2, hundecided.3, hundecided.4, hundecided.5⟩
    | false => exact ⟨hfast, rfl, hends, hnone, htried, hundecided.1, hundecided.2, hundecided.3, hundecided.4,
        hundecided.5⟩
  · rename_i attempt hphase
    rw [hphase] at hat
    obtain ⟨hattempt, hends, hlen, htried, hundecided⟩ := hat
    have hchoice := hpool.choice hends
    rw [if_neg (by simpa using hchoice.ne_nil)] at hstep
    obtain rfl := (Prod.mk.inj (Option.some.inj hstep)).2
    exact ⟨fun _ => hchecked (by simp [hphase]), hrounds, hattempt, hends, hlen, htried,
      ⟨hundecided.1, hundecided.2, hundecided.3, hundecided.4, hundecided.5⟩, hchoice⟩
  · rename_i attempt view candidates hphase
    rw [hphase] at hat
    obtain ⟨hattempt, hends, hlen, htried, hundecided, hchoice⟩ := hat
    obtain rfl := (Prod.mk.inj (Option.some.inj hstep)).2
    have horder := cycleFrom_eq_rotate (s.rr.toNat % candidates.length) candidates
    refine ⟨fun _ => hchecked (by simp [hphase]), fun round hround => ?_, hattempt, hends, ?_, ?_, ?_,
      hundecided.1, hundecided.2, hundecided.3, hundecided.4, hundecided.5⟩
    · rcases List.mem_append.mp hround with hround | hround
      · exact hrounds round hround
      · obtain rfl := List.mem_singleton.mp hround
        exact ⟨candidates, hchoice, by rw [horder]; exact List.rotate_perm _ _⟩
    · rw [List.length_append, hlen, List.length_singleton]
    · rw [horder, ne_eq, List.rotate_eq_nil_iff]
      exact hchoice.ne_nil
    · change r.tried ++ _ = r.sames fastRetries ++ List.flatMap _ (r.rounds ++ _)
      rw [List.flatMap_append, ← List.append_assoc, htried, Refill.plan, List.flatMap_singleton]
  · cases hstep

theorem RefillInv.resolved {addrs : List SocketAddr} (h : RefillInv fastRetries r)
    (hfast : 0 < fastRetries) (hstep : refillStep fastRetries s r (.endpoints addrs) = some (s', r')) :
    RefillInv fastRetries r' := by
  obtain ⟨hchecked, hrounds, hat⟩ := h
  simp only [refillStep] at hstep
  unfold Refill.At at hat
  split at hstep
  · rename_i hphase
    rw [hphase] at hat
    obtain ⟨hends, hnone, htried, hrestored, hsuccess, hsame, hfallback, hfailed⟩ := hat
    have hview := hchecked (by simp [hphase])
    split_ifs at hstep with hnodup hempty
    · obtain rfl := (Prod.mk.inj (Option.some.inj hstep)).2
      refine ⟨fun _ => hview, hrounds, hrestored, htried, .inl hends, hsuccess, ?_, ?_⟩
      · change r.stats.restoredSameEndpoint + r.stats.restoredFallback = 0
        omega
      · change r.stats.refillFailed + 1 = 1
        omega
    · obtain rfl := (Prod.mk.inj (Option.some.inj hstep)).2
      refine ⟨fun _ => hview, ?_, hfast, ?_, ?_, htried, hrestored, hsuccess, hsame, hfallback, hfailed⟩
      · change ∀ round ∈ r.rounds, _
        rw [hnone]
        exact fun round hround => absurd hround List.not_mem_nil
      · simpa using hempty
      · change r.rounds.length = 0
        rw [hnone, List.length_nil]
  · cases hstep

theorem replicate_isPrefix {α : Type*} {a : α} {k n : ℕ} (h : k ≤ n) :
    List.replicate k a <+: List.replicate n a := by
  have htake : (List.replicate n a).take k = List.replicate k a := by
    rw [List.take_replicate, Nat.min_eq_left h]
  rw [← htake]
  exact List.take_prefix k _

theorem RefillInv.connected {ok : Bool} (h : RefillInv fastRetries r)
    (hstep : refillStep fastRetries s r (.connected ok) = some (s', r')) :
    RefillInv fastRetries r' := by
  obtain ⟨hchecked, hrounds, hat⟩ := h
  simp only [refillStep] at hstep
  unfold Refill.At at hat
  split at hstep
  · rename_i attempt hphase
    rw [hphase] at hat
    obtain ⟨hattempt, hskipped, hends, hnone, htried, hrestored, hsuccess, hsame, hfallback, hfailed⟩ :=
      hat
    have hview := hchecked (by simp [hphase])
    have hsames : r.sames fastRetries = List.replicate fastRetries r.addr := by
      rw [Refill.sames, hskipped]
      rfl
    have hnext : r.tried ++ [r.addr] = List.replicate (attempt + 1) r.addr := by
      rw [htried, List.replicate_succ']
    split_ifs at hstep with hok hlt
    · obtain rfl := (Prod.mk.inj (Option.some.inj hstep)).2
      refine ⟨fun _ => hview, hrounds, r.addr, rfl, ?_, ?_, ?_, hfailed⟩
      · change r.tried ++ [r.addr] <+: r.sames fastRetries ++ _
        rw [hnext, hsames]
        exact (replicate_isPrefix hattempt).trans (List.prefix_append _ _)
      · change r.stats.reconnectSuccess + 1 = 1
        omega
      · change r.stats.restoredSameEndpoint + 1 + r.stats.restoredFallback = 1
        omega
    · obtain rfl := (Prod.mk.inj (Option.some.inj hstep)).2
      exact ⟨fun _ => hview, hrounds, hlt, hskipped, hends, hnone, hnext, hrestored, hsuccess, hsame,
        hfallback, hfailed⟩
    · obtain rfl := (Prod.mk.inj (Option.some.inj hstep)).2
      obtain rfl : fastRetries = attempt + 1 := by omega
      refine ⟨fun _ => hview, hrounds, hends, hnone, ?_, hrestored, hsuccess, hsame, hfallback, hfailed⟩
      change r.tried ++ [r.addr] = r.sames (attempt + 1) ++ r.rounds.flatMap (·.order)
      rw [hnext, hsames, hnone, List.flatMap_nil, List.append_nil]
  · rename_i attempt addr left hphase
    rw [hphase] at hat
    obtain ⟨hattempt, hends, hlen, -, htried, hundecided⟩ := hat
    have hview := hchecked (by simp [hphase])
    split_ifs at hstep with hok hempty
    · obtain rfl := (Prod.mk.inj (Option.some.inj hstep)).2
      obtain ⟨hrestored, hsuccess, hsame, hfallback, hfailed⟩ := hundecided
      refine ⟨fun _ => hview, hrounds, addr, rfl, ?_, ?_, ?_, hfailed⟩
      · exact ⟨left, by rw [List.append_assoc, List.singleton_append]; exact htried⟩
      · change r.stats.reconnectSuccess + 1 = 1
        omega
      · change r.stats.restoredSameEndpoint + (r.stats.restoredFallback + 1) = 1
        omega
    · obtain rfl := (Prod.mk.inj (Option.some.inj hstep)).2
      obtain rfl : left = [] := by simpa using hempty
      exact RefillInv.nextRound (r := { r with tried := r.tried ++ [addr] }) hattempt hlen htried
        ⟨hundecided.1, hundecided.2, hundecided.3, hundecided.4, hundecided.5⟩ hends hview hrounds
    · obtain rfl := (Prod.mk.inj (Option.some.inj hstep)).2
      refine ⟨fun _ => hview, hrounds, hattempt, hends, hlen, by simpa using hempty, ?_, hundecided.1,
        hundecided.2, hundecided.3, hundecided.4, hundecided.5⟩
      change r.tried ++ [addr] ++ left = r.plan fastRetries
      rw [List.append_assoc, List.singleton_append, htried]
  · cases hstep

theorem RefillInv.step {x x' : Pool × Refill} {e : Event} (h : RefillInv fastRetries x.2)
    (hpool : PoolInv x.1) (hfast : 0 < fastRetries) (hstep : step fastRetries x e = some x') :
    RefillInv fastRetries x'.2 := by
  cases e with
  | tick d =>
    obtain rfl := Option.some.inj hstep
    exact h
  | writerLost addr uptime =>
    obtain rfl := Option.some.inj hstep
    exact h
  | recorded i =>
    obtain ⟨f, -, rfl⟩ := Option.map_eq_some_iff.mp hstep
    exact h
  | cleaned =>
    obtain rfl := Option.some.inj hstep
    exact h
  | counted =>
    obtain rfl := Option.some.inj hstep
    exact h
  | refill a =>
    have hmoved : refillStep fastRetries x.1 x.2 a = some (x'.1, x'.2) := hstep
    cases a with
    | go => exact h.go hpool hfast hmoved
    | endpoints addrs => exact h.resolved hfast hmoved
    | connected ok => exact h.connected hmoved

end

/-- What a refill comes to. -/
structure Outcome (fastRetries : ℕ) (r : Refill) : Prop where
  sames : r.phase ≠ .check → ∃ v, r.checked = some v ∧ r.sames fastRetries =
    if (v.quarantine r.addr).isSome then [] else List.replicate fastRetries r.addr
  rounds : ∀ round ∈ r.rounds, ∃ chosen, Choice round.view r.dcEndpoints chosen ∧
    round.order.Perm chosen
  inPlan : r.tried ++ r.restored.toList <+: r.plan fastRetries
  success : r.phase = .done true ↔ r.restored ≠ none
  failure : r.phase = .done false → r.tried = r.plan fastRetries ∧
    (r.dcEndpoints = [] ∨ r.rounds.length = fastRetries)
  counted : r.stats.restoredSameEndpoint + r.stats.restoredFallback =
      (if r.phase = .done true then 1 else 0) ∧
    r.stats.refillFailed = if r.phase = .done false then 1 else 0

theorem Undecided.outcome {fastRetries : ℕ} {r : Refill} (h : Undecided r)
    (hphase : ∀ b, r.phase ≠ .done b)
    (hsames : r.phase ≠ .check → ∃ v, r.checked = some v ∧ r.sames fastRetries =
      if (v.quarantine r.addr).isSome then [] else List.replicate fastRetries r.addr)
    (hrounds : ∀ round ∈ r.rounds, ∃ chosen, Choice round.view r.dcEndpoints chosen ∧
      round.order.Perm chosen)
    (hplan : r.tried <+: r.plan fastRetries) : Outcome fastRetries r where
  sames := hsames
  rounds := hrounds
  inPlan := by rwa [h.restored, Option.toList_none, List.append_nil]
  success := by simp [hphase, h.restored]
  failure hfailed := absurd hfailed (hphase false)
  counted := by simp [hphase, h.same, h.fallback, h.failed]

theorem RefillInv.outcome {fastRetries : ℕ} {r : Refill} (h : RefillInv fastRetries r) :
    Outcome fastRetries r := by
  obtain ⟨hchecked, hrounds, hat⟩ := h
  have hsames : r.phase ≠ .check → ∃ v, r.checked = some v ∧ r.sames fastRetries =
      if (v.quarantine r.addr).isSome then [] else List.replicate fastRetries r.addr := by
    intro hphase
    obtain ⟨v, hv, hskipped⟩ := hchecked hphase
    exact ⟨v, hv, by rw [Refill.sames, hskipped]⟩
  unfold Refill.At at hat
  split at hat
  case h_1 hphase =>
    obtain ⟨-, -, htried, hu⟩ := hat
    exact hu.outcome (by simp [hphase]) hsames hrounds (by rw [htried]; exact List.nil_prefix)
  case h_2 attempt hphase =>
    obtain ⟨hattempt, hskipped, -, hnone, htried, hu⟩ := hat
    refine hu.outcome (by simp [hphase]) hsames hrounds ?_
    rw [htried, Refill.plan, Refill.sames, hskipped, hnone]
    simpa using replicate_isPrefix hattempt.le
  case h_3 hphase =>
    obtain ⟨-, -, htried, hu⟩ := hat
    exact hu.outcome (by simp [hphase]) hsames hrounds (htried ▸ List.prefix_refl _)
  case h_4 attempt hphase =>
    obtain ⟨-, -, -, htried, hu⟩ := hat
    exact hu.outcome (by simp [hphase]) hsames hrounds (htried ▸ List.prefix_refl _)
  case h_5 attempt view candidates hphase =>
    obtain ⟨-, -, -, htried, hu, -⟩ := hat
    exact hu.outcome (by simp [hphase]) hsames hrounds (htried ▸ List.prefix_refl _)
  case h_6 attempt left hphase =>
    obtain ⟨-, -, -, -, htried, hu⟩ := hat
    exact hu.outcome (by simp [hphase]) hsames hrounds ⟨left, htried⟩
  case h_7 hphase =>
    obtain ⟨addr, hrestored, hplan, -, hcount, hfailed⟩ := hat
    exact ⟨hsames, hrounds, by rwa [hrestored], by simp [hphase, hrestored], by simp [hphase],
      by simp [hphase, hcount, hfailed]⟩
  case h_8 hphase =>
    obtain ⟨hrestored, htried, hends, -, hcount, hfailed⟩ := hat
    exact ⟨hsames, hrounds, by simp [hrestored, htried], by simp [hphase, hrestored],
      fun _ => ⟨htried, hends⟩, by rw [hcount, hfailed]; simp [hphase]⟩

end MtProxy.MiddleProxy.Quarantine
