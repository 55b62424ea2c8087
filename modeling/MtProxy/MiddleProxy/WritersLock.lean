import MtProxy.MiddleProxy.ReinitSteps

/-! Who holds the lock of `writers` and who waits for it. The frames account for the entries of the
    lock: a section in progress has one, a promotion has two.

        survey ──────▶ promoteAsk ──request──▶ promote ──────▶ stale
        (t, read)      (t, read)               (t, read) ×2    (t, read)

    The second request is granted at once if nobody waits. If somebody does, it is a writer, and it
    waits for the guard of the survey: the cycle waits for a read guard behind a writer that waits for
    the cycle, and no step of any task resolves this. -/

namespace MtProxy.MiddleProxy.Reinit
open Schemes

/-- The task of a frame. -/
def taskOf : Frame → Option ℕ
  | .proxy => none
  | .reinitStart t | .reinit t _ _ | .connect t _ | .connecting t _ _ => some t
  | .other t _ | .otherGuarded t _ => some t

/-- What a frame holds of the lock or waits for. -/
def entriesOf : Frame → List (ℕ × Mode)
  | .reinit t _ (.guarded what) => [(t, what.mode)]
  | .reinit t _ .survey | .reinit t _ .promoteAsk | .reinit t _ .stale => [(t, .read)]
  | .reinit t _ .promote => [(t, .read), (t, .read)]
  | .otherGuarded t u => [(t, otherMode u)]
  | _ => []

/-- The task that holds the guard of its survey. -/
def surveys : Frame → Option ℕ
  | .reinit t _ .survey | .reinit t _ .promoteAsk | .reinit t _ .promote | .reinit t _ .stale => some t
  | _ => none

/-! ### What a step does to the lock -/

inductive LockAct where
  | keep
  | request (x : ℕ × Mode)
  | release (x : ℕ × Mode)

def LockAct.apply (l : RwLock ℕ) : LockAct → RwLock ℕ
  | .keep => l
  | .request x => l.request x
  | .release x => l.release x

def ReinitOp.lockAct : ReinitOp → LockAct
  | .request t m => .request (t, m)
  | .release t m => .release (t, m)
  | .update t _ => .release (t, .write)
  | .promote t _ => .release (t, .read)
  | _ => .keep

/-- The entries a step adds or gives back. A request is the first of its task, or the one of a
    promotion. -/
def LockSpec (l : RwLock ℕ) (f : Frame) (gs : List Frame) : LockAct → Prop
  | .keep => gs.flatMap entriesOf = entriesOf f ∧
      ∀ g ∈ gs, ∀ t, surveys g = some t → surveys f = some t ∨ (t, .read) ∈ l.holders
  | .request x => taskOf f = some x.1 ∧ gs.flatMap entriesOf = x :: entriesOf f ∧
      (entriesOf f = [] ∨ surveys f = some x.1 ∧ x.2 = .read) ∧
      ∀ g ∈ gs, ∀ t, surveys g = some t → surveys f = some t
  | .release x => taskOf f = some x.1 ∧ x ∈ l.holders ∧ entriesOf f = x :: gs.flatMap entriesOf ∧
      (2 ≤ (entriesOf f).length → l.holders.count x = 2) ∧
      ∀ g ∈ gs, ∀ t, surveys g = some t → l.holders.count (t, .read) = 2

/-- A step goes on with the task of its frame, or spawns the next one. -/
def TaskSpec (s : ReinitPool) (f : Frame) (gs : List Frame) (e : ReinitOp) : Prop :=
  e ≠ .spawn ∧ (∀ t, gs.countP (fun g => taskOf g = some t) ≤ [f].countP (fun g => taskOf g = some t)) ∨
  e = .spawn ∧ ∃ g, gs = [.proxy, g] ∧ f = .proxy ∧ taskOf g = some s.nextTask

section
variable {s : ReinitPool} {f : Frame} {a : Answer} {e : ReinitOp} {fs : List Frame}
  {sp : List (List Frame)} {R : Multiset Frame}

theorem effect_lock : (e.effect s).lock = e.lockAct.apply s.lock := by
  cases e with
  | begin hash now =>
    simp only [ReinitOp.effect, chooseGeneration, clearPendingHardswapState]
    split_ifs <;> rfl
  | _ => rfl

theorem effect_nextTask (he : e ≠ .spawn) : (e.effect s).nextTask = s.nextTask := by
  cases e with
  | spawn => exact absurd rfl he
  | begin hash now =>
    simp only [ReinitOp.effect, chooseGeneration, clearPendingHardswapState]
    split_ifs <;> rfl
  | update t u =>
    cases u with
    | push => rfl
    | retain => rfl
    | remove w =>
      simp only [ReinitOp.effect, ListUpdate.effect]
      split <;> rfl
    | markDraining w =>
      simp only [ReinitOp.effect, ListUpdate.effect]
      split_ifs <;> rfl
  | _ => rfl

theorem runSection_spec {t : ℕ} {call : ReinitCall} {what : Section}
    (hheld : (t, what.mode) ∈ s.lock.holders) (h : runSection s t call what = some (e, fs, sp)) :
    LockSpec s.lock (.reinit t call (.guarded what)) (fs ++ sp.flatten) e.lockAct ∧
      TaskSpec s (.reinit t call (.guarded what)) (fs ++ sp.flatten) e := by
  cases what <;> cases h <;>
    simp_all [LockSpec, TaskSpec, ReinitOp.lockAct, entriesOf, surveys, taskOf, Section.mode]

theorem reinitStep_spec {t : ℕ} {call : ReinitCall} {pc : ReinitPc}
    (h : reinitStep s t call pc a = some (e, fs, sp))
    (hheld : surveys (.reinit t call pc) = some t → (t, .read) ∈ s.lock.holders) :
    LockSpec s.lock (.reinit t call pc) (fs ++ sp.flatten) e.lockAct ∧
      TaskSpec s (.reinit t call pc) (fs ++ sp.flatten) e := by
  revert h hheld
  fun_cases reinitStep s t call pc a <;> intro h hheld
  all_goals first
    | exact runSection_spec ‹_› h
    | cases h
  all_goals try simp_all [LockSpec, TaskSpec, ReinitOp.lockAct, entriesOf, surveys, taskOf]
  -- left: the end of a cycle
  cases call.hardswap <;> simp

theorem exec_spec (h : exec s f a = some (e, fs, sp))
    (hheld : ∀ t, surveys f = some t → (t, .read) ∈ s.lock.holders) :
    LockSpec s.lock f (fs ++ sp.flatten) e.lockAct ∧ TaskSpec s f (fs ++ sp.flatten) e := by
  revert h hheld
  fun_cases exec s f a <;> intro h hheld
  all_goals first
    | exact reinitStep_spec h (hheld _)
    | cases h
  all_goals try
    simp_all [LockSpec, TaskSpec, ReinitOp.lockAct, entriesOf, surveys, taskOf, otherMode]
  -- left: the start of a cycle
  cases s.hardswap <;> simp

/-! ### The frames account for the lock -/

structure Accounts (s : ReinitPool) (M : Multiset Frame) : Prop where
  entries : s.lock.entries = M.bind (fun g => (entriesOf g : Multiset (ℕ × Mode)))
  once : ∀ t, M.countP (fun g => taskOf g = some t) ≤ 1
  started : ∀ g ∈ M, ∀ t, taskOf g = some t → t < s.nextTask
  held : ∀ g ∈ M, ∀ t, surveys g = some t → (t, .read) ∈ s.lock.holders

theorem mem_entriesOf {g : Frame} {x : ℕ × Mode} (h : x ∈ entriesOf g) : taskOf g = some x.1 := by
  unfold entriesOf at h
  split at h <;> simp_all [taskOf]

theorem taskOf_of_surveys {g : Frame} {t : ℕ} (h : surveys g = some t) : taskOf g = some t := by
  unfold surveys at h
  split at h <;> simp_all [taskOf]

/-- Two entries are those of a promotion. -/
theorem surveys_of_two {g : Frame} {x : ℕ × Mode} (hx : x ∈ entriesOf g)
    (hlen : 2 ≤ (entriesOf g).length) : surveys g = some x.1 := by
  unfold entriesOf at hlen hx
  split at hlen <;> simp_all [surveys]

theorem length_entriesOf_le (g : Frame) : (entriesOf g).length ≤ 2 := by
  unfold entriesOf
  split <;> simp

theorem accounts_initial {s : ReinitPool} (hs : s.lock = .empty) :
    Accounts (initial s).shared (initial s).frames := by
  refine ⟨?_, fun t => ?_, ?_, ?_⟩
  · simp [initial, Config.frames, hs, RwLock.empty, RwLock.entries, entriesOf]
  · exact Multiset.countP_le_card _ _
  · simp [initial, Config.frames, taskOf]
  · simp [initial, Config.frames, surveys]

theorem Accounts.bind_step (hA : Accounts s (f ::ₘ R)) (gs : List Frame) :
    ((gs : Multiset Frame) + R).bind (fun g => (entriesOf g : Multiset (ℕ × Mode))) +
      (entriesOf f : Multiset (ℕ × Mode)) =
    s.lock.entries + (gs.flatMap entriesOf : List (ℕ × Mode)) := by
  rw [hA.entries, Multiset.add_bind, Multiset.cons_bind, Multiset.coe_bind]
  abel

/-- The entries after a step. -/
theorem Accounts.step_entries (hA : Accounts s (f ::ₘ R)) {gs : List Frame} {act : LockAct}
    (hspec : LockSpec s.lock f gs act) : (act.apply s.lock).entries =
      ((gs : Multiset Frame) + R).bind (fun g => (entriesOf g : Multiset (ℕ × Mode))) := by
  have hbind := hA.bind_step gs
  refine add_right_cancel (b := (entriesOf f : Multiset (ℕ × Mode))) (hbind ▸ ?_)
  cases act with
  | keep => rw [hspec.1]; rfl
  | request x =>
    obtain ⟨-, hgs, -⟩ := hspec
    rw [hgs, LockAct.apply, RwLock.request_entries, ← Multiset.cons_coe, Multiset.cons_add,
      Multiset.add_cons]
  | release x =>
    obtain ⟨-, hx, hf, -⟩ := hspec
    rw [hf, LockAct.apply, ← Multiset.cons_coe, Multiset.add_cons, ← Multiset.cons_add,
      RwLock.release_entries _ hx]

/-- The frames that follow a step hold the guard of the survey if they say so. -/
theorem LockSpec.held {act : LockAct} {gs : List Frame} (hspec : LockSpec s.lock f gs act)
    (hA : Accounts s (f ::ₘ R)) {g : Frame} (hg : g ∈ gs) {t : ℕ} (hgt : surveys g = some t) :
    (t, .read) ∈ (act.apply s.lock).holders := by
  have hf := hA.held f (Multiset.mem_cons_self _ _) t
  cases act with
  | keep => exact (hspec.2 g hg t hgt).elim hf id
  | request x =>
    obtain ⟨-, -, -, hsurvey⟩ := hspec
    exact s.lock.mem_request_holders x (hf (hsurvey g hg t hgt))
  | release x =>
    obtain ⟨-, -, -, -, htwo⟩ := hspec
    exact s.lock.mem_release_holders_of_count x (htwo g hg t hgt)

theorem Accounts.step (hA : Accounts s (f ::ₘ R)) {gs : List Frame}
    (hlock : LockSpec s.lock f gs e.lockAct) (htask : TaskSpec s f gs e) :
    Accounts (e.effect s) (gs + R) := by
  refine ⟨effect_lock ▸ hA.step_entries hlock, fun t => ?_, fun g hg t hgt => ?_, fun g hg t hgt => ?_⟩
  · rcases htask with ⟨-, hle⟩ | ⟨rfl, g, rfl, rfl, hg⟩
    · exact countP_add_le (hA.once t) (hle t)
    · -- the id of the new task is not in use
      have hproxy : taskOf .proxy = none := rfl
      refine countP_key_le_one (n := s.nextTask) hA.once (by simp [hproxy, hg])
        (fun k hk => by simp [hproxy, hg, Ne.symm hk]) (fun g' hg' ht' => ?_) t
      exact Nat.lt_irrefl _ (hA.started g' (Multiset.mem_cons_of_mem hg') _ ht')
  · rcases htask with ⟨hne, hle⟩ | ⟨rfl, g', rfl, rfl, hg'⟩
    · rw [effect_nextTask hne]
      rcases Multiset.mem_add.mp hg with hg | hg
      · have hpos : 0 < gs.countP (fun g => taskOf g = some t) :=
          List.countP_pos_iff.mpr ⟨g, hg, by simpa using hgt⟩
        have hf : taskOf f = some t := by
          simpa using List.countP_pos_iff.mp (lt_of_lt_of_le hpos (hle t))
        exact hA.started f (Multiset.mem_cons_self _ _) t hf
      · exact hA.started g (Multiset.mem_cons_of_mem hg) t hgt
    · show t < s.nextTask + 1
      rcases Multiset.mem_add.mp hg with hg | hg
      · obtain rfl | rfl : g = .proxy ∨ g = g' := by simpa using hg
        · cases hgt
        · obtain rfl := Option.some.inj (hg'.symm.trans hgt)
          exact Nat.lt_succ_self _
      · exact Nat.lt_succ_of_lt (hA.started g (Multiset.mem_cons_of_mem hg) t hgt)
  · rw [effect_lock]
    rcases Multiset.mem_add.mp hg with hg | hg
    · exact hlock.held hA hg hgt
    · have hin := hA.held g (Multiset.mem_cons_of_mem hg) t hgt
      cases hact : e.lockAct with
      | keep => exact hin
      | request x => exact s.lock.mem_request_holders x hin
      | release x =>
        rw [hact] at hlock
        refine s.lock.mem_release_holders x hin ?_
        rintro rfl
        exact notMem_of_countP_le_one (hA.once t) hlock.1 (taskOf_of_surveys hgt) hg

/-- The entries of a task are those of its frame. -/
theorem Accounts.count_entries (hA : Accounts s (f ::ₘ R)) {x : ℕ × Mode}
    (hf : taskOf f = some x.1) :
    s.lock.entries.count x = (entriesOf f : Multiset (ℕ × Mode)).count x := by
  have hrest : x ∉ R.bind (fun g => (entriesOf g : Multiset (ℕ × Mode))) := by
    intro hR
    obtain ⟨g, hg, hxg⟩ := Multiset.mem_bind.mp hR
    exact notMem_of_countP_le_one (hA.once x.1) hf (mem_entriesOf hxg) hg
  rw [hA.entries, Multiset.cons_bind, Multiset.count_add, Multiset.count_eq_zero.mpr hrest,
    Nat.add_zero]

/-- Whoever has two entries in the lock has a frame with both. -/
theorem Accounts.two_entries {M : Multiset Frame} (hA : Accounts s M) {x : ℕ × Mode}
    (h : 2 ≤ s.lock.entries.count x) : ∃ g ∈ M, x ∈ entriesOf g ∧ 2 ≤ (entriesOf g).length := by
  have hx : x ∈ s.lock.entries := Multiset.count_pos.mp (by omega)
  rw [hA.entries, Multiset.mem_bind] at hx
  obtain ⟨g, hg, hxg⟩ := hx
  obtain ⟨R, rfl⟩ := Multiset.exists_cons_of_mem hg
  rw [hA.count_entries (mem_entriesOf hxg)] at h
  exact ⟨g, hg, hxg, h.trans (Multiset.count_le_card _ _)⟩

/-- A release makes nobody wait on itself: who has two entries holds one. -/
theorem Accounts.release_waitsOnItself (hA : Accounts s (f ::ₘ R)) {gs : List Frame}
    {x : ℕ × Mode} (hact : e.lockAct = .release x) (hlock : LockSpec s.lock f gs e.lockAct)
    (hA' : Accounts (e.effect s) (gs + R)) {t : ℕ} (ht : (e.effect s).lock.WaitsOnItself t) :
    s.lock.WaitsOnItself t := by
  obtain ⟨g, hg, hmem, htwo⟩ := hA'.two_entries ht.two_le_count
  rw [effect_lock, hact] at ht
  rw [hact] at hlock
  refine ⟨?_, s.lock.mem_release_queue x ht.2⟩
  rcases Multiset.mem_add.mp hg with hg | hg
  · -- the step gave an entry back, so its frame had a third one
    obtain ⟨-, -, hf, -⟩ := hlock
    have hlen := length_entriesOf_le f
    have hsub := (List.sublist_flatten_of_mem (List.mem_map_of_mem (f := entriesOf) hg)).length_le
    rw [hf, List.length_cons, List.flatMap] at hlen
    omega
  · exact hA.held g (Multiset.mem_cons_of_mem hg) t (surveys_of_two hmem htwo)

/-- A step makes somebody wait on itself exactly if it asks for a second guard while others wait. -/
theorem Accounts.noSelfDeadlock_step (hA : Accounts s (f ::ₘ R)) {gs : List Frame}
    (hlock : LockSpec s.lock f gs e.lockAct) (htask : TaskSpec s f gs e)
    (hno : ∀ t, ¬ s.lock.WaitsOnItself t) :
    (∀ t, ¬ (e.effect s).lock.WaitsOnItself t) ↔
      ∀ x, e.lockAct = .request x → (x.1, .read) ∈ s.lock.holders → s.lock.queue = [] := by
  have hA' := hA.step hlock htask
  have heff : (e.effect s).lock = e.lockAct.apply s.lock := effect_lock
  cases hact : e.lockAct with
  | keep =>
    rw [heff, hact]
    exact iff_of_true hno (by simp)
  | release x =>
    refine iff_of_true (fun t ht => hno t ?_) (by simp)
    exact hA.release_waitsOnItself hact hlock hA' ht
  | request x =>
    rw [heff, hact]
    simp only [LockAct.apply, RwLock.request_waitsOnItself, hno, false_or, LockAct.request.injEq,
      forall_eq']
    constructor
    · intro hall hheld
      by_contra hq
      -- the task has an entry, so this is the request of its promotion
      rw [hact] at hlock
      obtain ⟨hf, -, hfirst | ⟨-, hread⟩, -⟩ := hlock
      · have hcount := hA.count_entries (x := (x.1, .read)) hf
        rw [hfirst, Multiset.coe_nil, Multiset.count_zero, Multiset.count_eq_zero] at hcount
        exact hcount (Multiset.mem_coe.mpr (List.mem_append_left _ hheld))
      · exact hall x.1 ⟨Prod.ext rfl hread, hheld, hq⟩
    · rintro halone t ⟨rfl, hheld, hq⟩
      exact hq (halone hheld)

/-- A task that waits on itself does so after every step. -/
theorem Accounts.waitsOnItself_step (hA : Accounts s (f ::ₘ R)) {gs : List Frame}
    (hlock : LockSpec s.lock f gs e.lockAct) {t : ℕ} (ht : s.lock.WaitsOnItself t) :
    (e.effect s).lock.WaitsOnItself t := by
  rw [effect_lock]
  cases hact : e.lockAct with
  | keep => exact ht
  | request x => exact (s.lock.request_waitsOnItself x t).mpr (.inl ht)
  | release x =>
    rw [hact] at hlock
    obtain ⟨hf, -, -, hboth, -⟩ := hlock
    have hx : x ≠ (t, .read) := by
      rintro rfl
      -- it would have to hold both its entries, and one of them waits
      have hcount := hA.count_entries (x := (t, .read)) hf
      have hcard := Multiset.count_le_card (t, Mode.read) (entriesOf f : Multiset (ℕ × Mode))
      rw [Multiset.coe_card] at hcard
      have htwo := hboth (ht.two_le_count.trans (hcount ▸ hcard))
      have hle := s.lock.count_holders_le (t, .read)
      rw [if_pos ht.2, htwo, hcount] at hle
      have hlen := length_entriesOf_le f
      omega
    refine ⟨s.lock.mem_release_holders x ht.1 (Ne.symm hx), ?_⟩
    rw [LockAct.apply, s.lock.stuck_release x ht.1 hx]
    exact ht.2

end

/-! ### Runs -/

/-- Nobody waits on itself. -/
def NoSelfDeadlock (cfg : ReinitConfig) : Prop := ∀ t, ¬ cfg.shared.lock.WaitsOnItself t

/-- A task that holds a read guard asks for another one only while nobody waits. -/
def asksAlone (cfg : ReinitConfig) : ReinitOp → Bool
  | .request t _ => !cfg.shared.lock.holders.contains (t, .read) || cfg.shared.lock.queue.isEmpty
  | _ => true

/-- A step of a task, by what it does to the lock. -/
theorem step_spec {cfg cfg' : ReinitConfig} {l : ℕ × Answer} (hA : Accounts cfg.shared cfg.frames)
    (h : reinitProgram.step cfg l = some cfg') : ∃ f R gs e, Accounts cfg.shared (f ::ₘ R) ∧
      LockSpec cfg.shared.lock f gs e.lockAct ∧ TaskSpec cfg.shared f gs e ∧
      reinitProgram.op cfg l = some e ∧ cfg'.shared = e.effect cfg.shared ∧
      cfg'.frames = (gs : Multiset Frame) + R := by
  obtain ⟨f, R, e, fs, sp, hx, hop, hframes, hframes', hshared, -⟩ := Program.step_frames h
  rw [hframes] at hA
  obtain ⟨hlock, htask⟩ := exec_spec hx (hA.held f (Multiset.mem_cons_self _ _))
  exact ⟨f, R, fs ++ sp.flatten, e, hA, hlock, htask, hop, hshared, hframes'⟩

theorem accounts_step {cfg cfg' : ReinitConfig} {l : ℕ × Answer}
    (hA : Accounts cfg.shared cfg.frames) (h : reinitProgram.step cfg l = some cfg') :
    Accounts cfg'.shared cfg'.frames := by
  obtain ⟨f, R, gs, e, hA, hlock, htask, -, hshared, hframes⟩ := step_spec hA h
  rw [hshared, hframes]
  exact hA.step hlock htask

theorem noSelfDeadlock_step {cfg cfg' : ReinitConfig} {l : ℕ × Answer}
    (hA : Accounts cfg.shared cfg.frames) (hno : NoSelfDeadlock cfg)
    (h : reinitProgram.step cfg l = some cfg') :
    NoSelfDeadlock cfg' ↔ ∀ e ∈ reinitProgram.op cfg l, asksAlone cfg e = true := by
  obtain ⟨f, R, gs, e, hA, hlock, htask, hop, hshared, -⟩ := step_spec hA h
  rw [NoSelfDeadlock, hshared, hA.noSelfDeadlock_step hlock htask hno]
  simp only [hop, Option.mem_some_iff, forall_eq']
  cases e <;> simp [ReinitOp.lockAct, asksAlone, or_iff_not_imp_left]

/-- In a run of any number of reinit cycles next to any tasks that take the lock, whatever the
    interleaving, no cycle ever waits for a read guard while it holds one exactly if nobody waits
    whenever a cycle asks for its second guard. -/
theorem reinit_never_waits_on_itself_iff (start shadow passes families : ℕ) (hardswap multipath : Bool)
    (ls : List (ℕ × Answer)) (cfg : ReinitConfig)
    (hrun : run reinitProgram.step
      (initial (.new start hardswap multipath shadow passes families)) ls = some cfg) :
    (∀ ls', ls' <+: ls → ∀ cfg', run reinitProgram.step
      (initial (.new start hardswap multipath shadow passes families)) ls' = some cfg' →
      NoSelfDeadlock cfg') ↔
    reinitProgram.Meets asksAlone
      (initial (.new start hardswap multipath shadow passes families)) ls := by
  refine runMeets_iff (I := fun cfg => Accounts cfg.shared cfg.frames)
    (fun _ _ _ => accounts_step) (fun _ _ _ => noSelfDeadlock_step) ls (accounts_initial rfl) ?_ hrun
  intro t ht
  cases ht.1

/-- Once a cycle waits on itself, it does so for ever. -/
theorem waits_on_itself_forever {cfg cfg' : ReinitConfig} {t : ℕ}
    (hA : Accounts cfg.shared cfg.frames) (ht : cfg.shared.lock.WaitsOnItself t)
    (ls : List (ℕ × Answer)) (hrun : run reinitProgram.step cfg ls = some cfg') :
    cfg'.shared.lock.WaitsOnItself t := by
  refine (run_invariant (I := fun cfg => Accounts cfg.shared cfg.frames ∧
    cfg.shared.lock.WaitsOnItself t) ?_ ls ⟨hA, ht⟩ hrun).2
  rintro c l c' ⟨hc, hw⟩ hstep
  refine ⟨accounts_step hc hstep, ?_⟩
  obtain ⟨f, R, gs, e, hc, hlock, -, -, hshared, -⟩ := step_spec hc hstep
  rw [hshared]
  exact hc.waitsOnItself_step hlock hw

/-- A hardswap cycle for one DC with one endpoint: three writers of generation 2 connect, the survey
    finds the DC covered, and the cycle is about to promote the generation. -/
def hardswapRun (addr : SocketAddr) : List (ℕ × Answer) :=
  [(0, .startReinit), (1, .desired [(2, [addr])] 7 0), (1, .go), (1, .go), (1, .go), (1, .go),
    (1, .connected addr), (1, .go), (1, .go), (1, .connected addr), (1, .go), (1, .go),
    (1, .connected addr), (1, .go), (1, .go), (1, .go), (1, .go), (1, .go), (1, .go), (1, .go),
    (1, .go), (1, .go), (1, .ratio false)]

/-- Nobody waits when the cycle promotes: it ends, with the removal of a writer in between. -/
theorem reinit_never_waits_on_itself_hardswap :
    let addr : SocketAddr := ⟨.v4 ⟨[127, 0, 0, 1], rfl⟩, 443⟩
    let ls := hardswapRun addr ++ [(0, .startOther (some (.remove 1))), (1, .go), (2, .go), (1, .go),
      (1, .go), (2, .go), (1, .go)]
    ∃ cfg, run reinitProgram.step (initial (.new 1 true false 0 0 1)) ls = some cfg ∧
      cfg.tasks.flatten = [.proxy] ∧ cfg.shared.activeGeneration = 2 ∧ NoSelfDeadlock cfg := by
  intro addr ls
  have heval : (run reinitProgram.step (initial (.new 1 true false 0 0 1)) ls).map (fun cfg =>
      (cfg.tasks.flatten, cfg.shared.activeGeneration)) = some ([.proxy], 2) := by decide +kernel
  obtain ⟨cfg, hrun, hcfg⟩ := Option.map_eq_some_iff.mp heval
  obtain ⟨htasks, hactive⟩ := Prod.mk.inj hcfg
  exact ⟨cfg, hrun, htasks, hactive, (reinit_never_waits_on_itself_iff 1 0 0 1 true false ls cfg hrun).mpr
    (by decide +kernel) ls (List.prefix_refl _) cfg hrun⟩

/-- The removal of a writer asks for the write lock between the survey and the promotion: the cycle
    waits for its second read guard behind the removal, which waits for the first one. -/
theorem promotion_waits_behind_removal :
    let addr : SocketAddr := ⟨.v4 ⟨[127, 0, 0, 1], rfl⟩, 443⟩
    let ls := hardswapRun addr ++ [(0, .startOther (some (.remove 1))), (2, .go), (1, .go)]
    ∃ cfg, run reinitProgram.step (initial (.new 1 true false 0 0 1)) ls = some cfg ∧
      cfg.shared.lock.holders = [(0, .read)] ∧
      cfg.shared.lock.queue = [(1, .write), (0, .read)] ∧ ¬ NoSelfDeadlock cfg ∧
      ∀ ls' cfg', run reinitProgram.step cfg ls' = some cfg' → ¬ NoSelfDeadlock cfg' := by
  intro addr ls
  have heval : (run reinitProgram.step (initial (.new 1 true false 0 0 1)) ls).map (fun cfg =>
      (cfg.shared.lock.holders, cfg.shared.lock.queue)) =
      some ([(0, .read)], [(1, .write), (0, .read)]) := by decide +kernel
  obtain ⟨cfg, hrun, hcfg⟩ := Option.map_eq_some_iff.mp heval
  obtain ⟨hholders, hqueue⟩ := Prod.mk.inj hcfg
  have hwait : cfg.shared.lock.WaitsOnItself 0 := by simp [RwLock.WaitsOnItself, hholders, hqueue]
  have hA : Accounts cfg.shared cfg.frames :=
    run_invariant (I := fun cfg => Accounts cfg.shared cfg.frames) (fun _ _ _ => accounts_step) ls
      (accounts_initial rfl) hrun
  exact ⟨cfg, hrun, hholders, hqueue, fun h => h 0 hwait, fun ls' cfg' hrun' h =>
    h 0 (waits_on_itself_forever hA hwait ls' hrun')⟩

end MtProxy.MiddleProxy.Reinit
