import MtProxy.Proxy.UserLimits

/-! What a refused connection leaves in the tracker. `check_user_limits_static` adds the address in the
    middle of its checks, and the guard that takes it out is made after the last one:

        expiration ─▶ IP limit ─▶ add ─▶ TCP limit ─▶ quota ─▶ guard
                         │                  │           │
                  an empty entry    the address    the address stays

    A user without an entry gets one, even if the address is refused. -/

namespace MtProxy.Proxy.UserLimits
open Schemes MiddleProxy MtProxy.Config

/-! ### The chain of checks -/

def checkUserLimitsStatic (c : Connection) (now : ℤ) (s : LimitState) :
    UserIpTracker × Except LimitError Unit :=
  if userExpired c now then (s.tracker, .error (.userExpired c.user))
  else
    let (tracker, added) := s.tracker.checkAndAdd c.user c.ip
    match added with
    | .error _ => (tracker, .error (.connectionLimitExceeded c.user))
    | .ok _ =>
      if tcpConnsReached c s.stats then (tracker, .error (.connectionLimitExceeded c.user))
      else if dataQuotaReached c s.stats then (tracker, .error (.dataQuotaExceeded c.user))
      else (tracker, .ok ())

/-- With no other task, the stack `fs` in state `s` comes to `fs'` in `s'`. -/
def Comes (mePool : Bool) (s : LimitState) (fs : List Frame) (s' : LimitState) (fs' : List Frame) :
    Prop :=
  ∀ history, ∃ ls history',
    run (program mePool).step ⟨s, [fs], history⟩ ls = some ⟨s', [fs'], history'⟩

section
variable {mePool : Bool} {s s' : LimitState} {f : Frame} {fs fs' : List Frame}

theorem Comes.refl : Comes mePool s fs s fs := fun history => ⟨[], history, rfl⟩

theorem Comes.step {a : Answer} {op : Op} (hexec : exec mePool s f a = some (op, fs, []))
    (h : Comes mePool (effect op s) fs s' fs') : Comes mePool s [f] s' fs' := by
  intro history
  obtain ⟨ls, history', hrun⟩ := h (history ++ [op])
  have hstep : (program mePool).step ⟨s, [[f]], history⟩ (0, a) =
      some ⟨effect op s, [fs], history ++ [op]⟩ := by
    simp [Program.step, Program.next, program, hexec, Program.proceed]
  refine ⟨(0, a) :: ls, history', ?_⟩
  rw [run, hstep, Option.bind_some]
  exact hrun

end

/-- A connection that runs its checks alone does what the function says. -/
theorem checks_come (mePool : Bool) (c : Connection) (now : ℤ) (s : LimitState) :
    Comes mePool s [.checkExpiration c] { s with tracker := (checkUserLimitsStatic c now s).1 }
      (match (checkUserLimitsStatic c now s).2 with
        | .ok _ => [.setUp c]
        | .error _ => []) := by
  unfold checkUserLimitsStatic UserIpTracker.checkAndAdd
  generalize hlimit : s.tracker.maxIps.lookup c.user = limit
  cases hexpired : userExpired c now with
  | true =>
    have hexec : exec mePool s (.checkExpiration c) (.now now) =
        some (.refuse c (.userExpired c.user), [], []) := by rw [exec, if_pos hexpired]
    exact .step hexec .refl
  | false =>
    have hexec : exec mePool s (.checkExpiration c) (.now now) =
        some (.readLimit c, [.checkAndAdd c limit], []) := by
      rw [exec, if_neg (Bool.eq_false_iff.mp hexpired), hlimit]
    refine .step hexec ?_
    cases hadded : (s.tracker.addWithin limit c.user c.ip).2 with
    | error reason =>
      have hrefuse : exec mePool s (.checkAndAdd c limit) .go =
          some (.refuseIp c limit (.connectionLimitExceeded c.user), [], []) := by
        simp only [exec, hadded]
      simp only [Bool.false_eq_true, if_false, hadded]
      exact .step hrefuse .refl
    | ok _ =>
      have hadd : exec mePool s (.checkAndAdd c limit) .go =
          some (.addIp c limit, [.checkTcpConns c], []) := by
        simp only [exec, hadded]
      simp only [Bool.false_eq_true, if_false, hadded]
      refine .step hadd ?_
      have hstats : (effect (.addIp c limit) s).stats = s.stats := rfl
      cases htcp : tcpConnsReached c s.stats with
      | true =>
        have hrefuse : exec mePool (effect (.addIp c limit) s) (.checkTcpConns c) .go =
            some (.refuseTracked c (.connectionLimitExceeded c.user), [], []) := by
          rw [exec, hstats, if_pos htcp]
        exact .step hrefuse .refl
      | false =>
        have hpass : exec mePool (effect (.addIp c limit) s) (.checkTcpConns c) .go =
            some (.passTcpConns c, [.checkDataQuota c], []) := by
          rw [exec, hstats, if_neg (Bool.eq_false_iff.mp htcp)]
        refine .step hpass ?_
        cases hquota : dataQuotaReached c s.stats with
        | true =>
          have hrefuse : exec mePool (effect (.addIp c limit) s) (.checkDataQuota c) .go =
              some (.refuseTracked c (.dataQuotaExceeded c.user), [], []) := by
            rw [exec, hstats, if_pos hquota]
          exact .step hrefuse .refl
        | false =>
          have hpass : exec mePool (effect (.addIp c limit) s) (.checkDataQuota c) .go =
              some (.passDataQuota c, [.setUp c], []) := by
            rw [exec, hstats, if_neg (Bool.eq_false_iff.mp hquota)]
          exact .step hpass .refl

/-! ### The reports -/

/-- The tracker reports the same active addresses. -/
structure SameReports (before after : UserIpTracker) : Prop where
  count : ∀ username, after.getActiveIpCount username = before.getActiveIpCount username
  ips : ∀ username, after.getActiveIps username = before.getActiveIps username
  stats : after.getStats = before.getStats

section
variable {t : UserIpTracker} {username : String} {ip : IpAddr}

theorem SameReports.refl (t : UserIpTracker) : SameReports t t :=
  ⟨fun _ => rfl, fun _ => rfl, rfl⟩

/-- The users that are reported are those with an entry. -/
theorem mem_getStats_iff : username ∈ t.getStats.map Prod.fst ↔ username ∈ t.activeIps := by
  rw [UserIpTracker.getStats, List.map_map]
  have hnames : (Prod.fst ∘ fun username =>
      (username, t.getActiveIpCount username, (t.maxIps.lookup username).getD 0)) = id := rfl
  rw [hnames, List.map_id, Finset.mem_sort, Finmap.mem_keys]

/-- Writing a user's addresses back changes the reports if the user had no entry. -/
theorem sameReports_writeBack_iff :
    SameReports t (t.setActiveIps username (t.getActiveIps username)) ↔ username ∈ t.activeIps := by
  constructor
  · intro h
    rw [← mem_getStats_iff, ← h.stats, mem_getStats_iff]
    exact Finmap.mem_insert.mpr (Or.inl rfl)
  · intro hmem
    obtain ⟨ips, hips⟩ := Option.isSome_iff_exists.mp (Finmap.lookup_isSome.mpr hmem)
    have hsame : t.setActiveIps username (t.getActiveIps username) = t := by
      have hinsert : t.activeIps.insert username ips = t.activeIps := by
        refine Finmap.ext_lookup fun other => ?_
        by_cases h : other = username
        · rw [h, Finmap.lookup_insert, hips]
        · rw [Finmap.lookup_insert_of_ne _ h]
      rw [UserIpTracker.setActiveIps, UserIpTracker.getActiveIps, hips, Option.getD_some, hinsert]
    rw [hsame]
    exact .refl t

theorem not_sameReports_insert (h : ip ∉ t.getActiveIps username) :
    ¬ SameReports t (t.setActiveIps username (insert ip (t.getActiveIps username))) := by
  intro hsame
  have hips := hsame.ips username
  rw [UserIpTracker.getActiveIps_setActiveIps, if_pos rfl] at hips
  exact h (hips ▸ Finset.mem_insert_self _ _)

end

/-! ### Refusals -/

/-- There is no room for one more address of the user. -/
def ipLimitReached (t : UserIpTracker) (username : String) : Bool :=
  match t.maxIps.lookup username with
  | some limit => limit ≤ (t.getActiveIps username).card
  | none => false

/-- A connection is refused before its address is added, or the address is there already. Past that,
    the IP limit may refuse a user with an entry only, and the later limits nobody. -/
def LeavesNoTrace (c : Connection) (now : ℤ) (s : LimitState) : Prop :=
  userExpired c now = true ∨ c.ip ∈ s.tracker.getActiveIps c.user ∨
    if ipLimitReached s.tracker c.user then c.user ∈ s.tracker.activeIps
    else tcpConnsReached c s.stats = false ∧ dataQuotaReached c s.stats = false

section
variable {c : Connection} {now : ℤ} {s : LimitState}

/-- `check_and_add` for an address that is there already. -/
theorem checkAndAdd_known (h : c.ip ∈ s.tracker.getActiveIps c.user) :
    s.tracker.checkAndAdd c.user c.ip =
      (s.tracker.setActiveIps c.user (s.tracker.getActiveIps c.user), .ok ()) := by
  rcases s.tracker.addWithin_cases c.user c.ip (s.tracker.maxIps.lookup c.user) with
    hadded | ⟨n, -, hnew, -, -⟩
  · rw [Finset.insert_eq_self.mpr h] at hadded
    exact hadded
  · exact absurd h hnew

theorem mem_activeIps_of_mem {t : UserIpTracker} {username : String} {ip : IpAddr}
    (h : ip ∈ t.getActiveIps username) : username ∈ t.activeIps := by
  by_contra hnone
  rw [UserIpTracker.getActiveIps, Finmap.lookup_eq_none.mpr hnone] at h
  cases h

/-- `check_and_add` for a new address. -/
theorem checkAndAdd_new (h : c.ip ∉ s.tracker.getActiveIps c.user) :
    if ipLimitReached s.tracker c.user then
      ∃ reason, s.tracker.checkAndAdd c.user c.ip =
        (s.tracker.setActiveIps c.user (s.tracker.getActiveIps c.user), .error reason)
    else s.tracker.checkAndAdd c.user c.ip =
      (s.tracker.setActiveIps c.user (insert c.ip (s.tracker.getActiveIps c.user)), .ok ()) := by
  unfold ipLimitReached UserIpTracker.checkAndAdd
  cases s.tracker.maxIps.lookup c.user with
  | none => rfl
  | some limit =>
    simp only [UserIpTracker.addWithin, if_neg h, decide_eq_true_eq]
    split_ifs with hfull
    · exact ⟨_, rfl⟩
    · rfl

/-- The later checks decide on the error; the tracker stays as `check_and_add` left it. -/
theorem checkUserLimits_added {t : UserIpTracker} (hvalid : userExpired c now = false)
    (hadded : s.tracker.checkAndAdd c.user c.ip = (t, .ok ())) :
    (checkUserLimitsStatic c now s).1 = t ∧
      ((checkUserLimitsStatic c now s).2 = .ok () ↔
        tcpConnsReached c s.stats = false ∧ dataQuotaReached c s.stats = false) := by
  unfold checkUserLimitsStatic
  rw [hadded, hvalid]
  cases tcpConnsReached c s.stats with
  | true => exact ⟨rfl, iff_of_false nofun nofun⟩
  | false =>
    cases dataQuotaReached c s.stats with
    | true => exact ⟨rfl, iff_of_false nofun nofun⟩
    | false => exact ⟨rfl, iff_of_true rfl ⟨rfl, rfl⟩⟩

end

/-- A refused connection leaves the reports of the tracker as they are, if and only if it is refused
    before its address is added or the address was there. -/
theorem refused_without_trace_iff (c : Connection) (now : ℤ) (s : LimitState) :
    (∀ error, (checkUserLimitsStatic c now s).2 = .error error →
        SameReports s.tracker (checkUserLimitsStatic c now s).1) ↔ LeavesNoTrace c now s := by
  unfold LeavesNoTrace
  cases hexpired : userExpired c now with
  | true =>
    refine iff_of_true ?_ (Or.inl rfl)
    intro error _
    rw [checkUserLimitsStatic, if_pos hexpired]
    exact .refl s.tracker
  | false =>
    rw [or_iff_right Bool.false_ne_true]
    by_cases hknown : c.ip ∈ s.tracker.getActiveIps c.user
    · refine iff_of_true ?_ (Or.inl hknown)
      intro error _
      rw [(checkUserLimits_added hexpired (checkAndAdd_known hknown)).1]
      exact sameReports_writeBack_iff.mpr (mem_activeIps_of_mem hknown)
    · rw [or_iff_right hknown]
      have hadd := checkAndAdd_new hknown
      split_ifs at hadd ⊢ with hfull
      · obtain ⟨reason, hadd⟩ := hadd
        have hresult : checkUserLimitsStatic c now s =
            (s.tracker.setActiveIps c.user (s.tracker.getActiveIps c.user),
              .error (.connectionLimitExceeded c.user)) := by
          rw [checkUserLimitsStatic, if_neg (Bool.eq_false_iff.mp hexpired), hadd]
        rw [hresult, ← sameReports_writeBack_iff]
        exact ⟨fun h => h _ rfl, fun h _ _ => h⟩
      · obtain ⟨htracker, hok⟩ := checkUserLimits_added hexpired hadd
        rw [htracker, ← hok]
        constructor
        · intro hrefused
          cases hresult : (checkUserLimitsStatic c now s).2 with
          | ok u => rfl
          | error error => exact absurd (hrefused error hresult) (not_sameReports_insert hknown)
        · intro hresult error herror
          rw [hresult] at herror
          cases herror

/-- Alice may have one TCP connection, and it is there; her second one comes from another address. -/
def aliceConnected : LimitState :=
  ⟨(UserIpTracker.new.checkAndAdd "alice" (alice 1).ip).1, Stats.new.incrementUserCurrConnects "alice"⟩

/-- It is refused, and its address is reported from then on. -/
theorem refused_address_stays :
    (checkUserLimitsStatic (alice 2) 0 aliceConnected).2 = .error (.connectionLimitExceeded "alice") ∧
      aliceConnected.tracker.getActiveIpCount "alice" = 1 ∧
        (checkUserLimitsStatic (alice 2) 0 aliceConnected).1.getActiveIpCount "alice" = 2 ∧
          ¬ SameReports aliceConnected.tracker (checkUserLimitsStatic (alice 2) 0 aliceConnected).1 := by
  have hbefore : aliceConnected.tracker.getActiveIpCount "alice" = 1 := by decide +kernel
  have hafter : (checkUserLimitsStatic (alice 2) 0 aliceConnected).1.getActiveIpCount "alice" = 2 := by
    decide +kernel
  refine ⟨by decide +kernel, hbefore, hafter, ?_⟩
  intro hsame
  have hcount := hsame.count "alice"
  rw [hbefore, hafter] at hcount
  cases hcount

end MtProxy.Proxy.UserLimits
