import MtProxy.Schemes.Run

/-! `me_reinit_scheduler` and the channel in front of it. Triggers are offered with `try_send`, which
    drops them when the channel is full; the scheduler takes a first one, collects more of them until its
    window is over, and starts one cycle for all.

        try_send ──▶ │ queue │ ──recv──▶ first ──window──▶ batch ──▶ cycle
            │ full
            ▼
         (dropped)

    A trigger is dropped only if others are waiting, and they will get a cycle of their own. So every
    trigger, taken or dropped, is followed by the start of a cycle, and the triggers taken are those of
    the batches, in their order, with what is still on the way. -/

namespace MtProxy.MiddleProxy.Scheduler
open Schemes

inductive MeReinitTrigger where
  | periodic
  | mapChanged
  deriving DecidableEq

/-- What the scheduler reads of the configuration. -/
structure ReinitSettings where
  meReinitCoalesceWindowMs : ℕ
  meReinitSingleflight : Bool

/-- The triggers seen for a cycle. -/
structure Seen where
  mapChange : Bool
  periodic : Bool
  deriving DecidableEq

namespace Seen

def none : Seen := ⟨false, false⟩

def add (seen : Seen) : MeReinitTrigger → Seen
  | .mapChanged => { seen with mapChange := true }
  | .periodic => { seen with periodic := true }

end Seen

/-- Where the scheduler stands. `collecting` is the head of the loop that collects triggers, `waiting`
    the `timeout` in it. -/
inductive Place where
  | idle
  | collecting (cfg : ReinitSettings) (seen : Seen) (deadline : ℕ)
  | waiting (cfg : ReinitSettings) (seen : Seen) (deadline : ℕ)
  | cycle
  | stopped

/-- What can be observed of the system. -/
inductive Obs where
  | offered (trigger : MeReinitTrigger) (taken : Bool)
  | received (trigger : MeReinitTrigger)
  | launched (seen : Seen) (detached : Bool)
  | finished
  deriving DecidableEq

/-- The channel, the scheduler and the cycles that run on their own; `log` is what was observed so far,
    newest first. -/
structure System where
  now : ℕ
  config : ReinitSettings
  capacity : ℕ
  queue : List MeReinitTrigger
  sendersGone : Bool
  place : Place
  detached : ℕ
  log : List Obs

inductive Event where
  | enqueue (trigger : MeReinitTrigger)
  | dropSenders
  | publish (config : ReinitSettings)
  | tick (ms : ℕ)
  | poll
  | cycleDone
  | detachedDone

def start (capacity : ℕ) (config : ReinitSettings) : System :=
  ⟨0, config, capacity, [], false, .idle, 0, []⟩

/-- `enqueue_reinit_trigger`. The receiver is dropped only after all senders are. -/
def enqueueReinitTrigger (s : System) (trigger : MeReinitTrigger) : System :=
  if s.queue.length < s.capacity then
    { s with queue := s.queue ++ [trigger], log := .offered trigger true :: s.log }
  else { s with log := .offered trigger false :: s.log }

/-- What follows the loop that collects triggers. -/
def launch (s : System) (cfg : ReinitSettings) (seen : Seen) : System :=
  if cfg.meReinitSingleflight then
    { s with place := .cycle, log := .launched seen false :: s.log }
  else
    { s with place := .idle, detached := s.detached + 1, log := .launched seen true :: s.log }

/-- `poll` runs the scheduler up to where it may have to wait. -/
def poll (s : System) : Option System :=
  match s.place with
  | .idle =>
    match s.queue with
    | trigger :: queue =>
      let s' := { s with queue, log := .received trigger :: s.log }
      let seen := Seen.none.add trigger
      let window := s.config.meReinitCoalesceWindowMs
      if window = 0 then some (launch s' s.config seen)
      else some { s' with place := .collecting s.config seen (s.now + window) }
    | [] => if s.sendersGone then some { s with place := .stopped } else none
  | .collecting cfg seen deadline =>
    if deadline ≤ s.now then some (launch s cfg seen)
    else some { s with place := .waiting cfg seen deadline }
  | .waiting cfg seen deadline =>
    match s.queue with
    | trigger :: queue =>
      some { s with
        queue, place := .collecting cfg (seen.add trigger) deadline, log := .received trigger :: s.log }
    | [] => if s.sendersGone ∨ deadline ≤ s.now then some (launch s cfg seen) else none
  | .cycle => none
  | .stopped => none

def step (s : System) : Event → Option System
  | .enqueue trigger => if s.sendersGone then none else some (enqueueReinitTrigger s trigger)
  | .dropSenders => some { s with sendersGone := true }
  | .publish config => some { s with config }
  | .tick ms => some { s with now := s.now + ms }
  | .poll => poll s
  | .cycleDone =>
    match s.place with
    | .cycle => some { s with place := .idle, log := .finished :: s.log }
    | _ => none
  | .detachedDone =>
    if 0 < s.detached then some { s with detached := s.detached - 1, log := .finished :: s.log }
    else none

/-! ### Reading the log -/

/-- The triggers that were taken into the queue, in their order. -/
def taken : List Obs → List MeReinitTrigger
  | [] => []
  | .offered trigger true :: log => taken log ++ [trigger]
  | _ :: log => taken log

/-- The triggers received, cut into batches where a cycle was launched, and those received since. -/
def batches : List Obs → List (List MeReinitTrigger) × List MeReinitTrigger
  | [] => ([], [])
  | .received trigger :: log => ((batches log).1, (batches log).2 ++ [trigger])
  | .launched _ _ :: log => ((batches log).1 ++ [(batches log).2], [])
  | _ :: log => batches log

/-- What the cycles were launched with. -/
def launches : List Obs → List Seen
  | [] => []
  | .launched seen _ :: log => launches log ++ [seen]
  | _ :: log => launches log

def seenOf (batch : List MeReinitTrigger) : Seen := batch.foldl Seen.add Seen.none

/-- After every trigger offered a cycle was launched. -/
def Answered (log : List Obs) : Prop :=
  ∀ newer trigger taken older, log = newer ++ .offered trigger taken :: older →
    ∃ seen detached, .launched seen detached ∈ newer

namespace Place

/-- The triggers of the cycle that is being prepared. -/
def seen : Place → Option Seen
  | collecting _ seen _ => some seen
  | waiting _ seen _ => some seen
  | _ => none

end Place

/-- A cycle is sure to come. -/
def Pending (s : System) : Prop := s.queue ≠ [] ∨ s.place.seen.isSome

/-- The cycles that have not finished. -/
def inFlight (s : System) : ℕ :=
  (match s.place with | .cycle => 1 | _ => 0) + s.detached

def launchedCount (log : List Obs) : ℕ := (launches log).length

def finishedCount (log : List Obs) : ℕ := log.count .finished

@[simp] theorem seenOf_concat (batch : List MeReinitTrigger) (trigger : MeReinitTrigger) :
    seenOf (batch ++ [trigger]) = (seenOf batch).add trigger := by
  simp [seenOf]

theorem Answered.cons {log : List Obs} {o : Obs} (h : Answered log)
    (ho : ∀ trigger taken, o ≠ .offered trigger taken) : Answered (o :: log) := by
  intro newer trigger taken older hlog
  cases newer with
  | nil =>
    rw [List.nil_append, List.cons.injEq] at hlog
    exact absurd hlog.1 (ho trigger taken)
  | cons o' newer =>
    rw [List.cons_append, List.cons.injEq] at hlog
    obtain ⟨seen, detached, hmem⟩ := h newer trigger taken older hlog.2
    exact ⟨seen, detached, List.mem_cons_of_mem _ hmem⟩

/-- The start of a cycle answers everything before it. -/
theorem answered_launched (seen : Seen) (detached : Bool) (log : List Obs) :
    Answered (.launched seen detached :: log) := by
  intro newer trigger taken older hlog
  cases newer with
  | nil => simp at hlog
  | cons o newer =>
    rw [List.cons_append, List.cons.injEq] at hlog
    exact ⟨seen, detached, hlog.1 ▸ List.mem_cons_self⟩

/-! ### The invariant -/

/-- What the log says of the place: the batch that is being collected. -/
structure Inv (s : System) : Prop where
  room : 0 < s.capacity
  conserved : taken s.log = (batches s.log).1.flatten ++ (batches s.log).2 ++ s.queue
  collected : ∀ seen ∈ s.place.seen, (batches s.log).2 ≠ [] ∧ seen = seenOf (batches s.log).2
  fresh : s.place.seen = none → (batches s.log).2 = []
  launched : launches s.log = (batches s.log).1.map seenOf
  nonempty : ∀ batch ∈ (batches s.log).1, batch ≠ []
  answered : Answered s.log ∨ Pending s
  flights : launchedCount s.log = finishedCount s.log + inFlight s

section
variable {s s' : System}

theorem inv_start {capacity : ℕ} (hcap : 0 < capacity) (config : ReinitSettings) :
    Inv (start capacity config) where
  room := hcap
  conserved := rfl
  collected seen hseen := by cases hseen
  fresh _ := rfl
  launched := rfl
  nonempty batch hbatch := by cases hbatch
  answered := .inl (fun newer trigger taken older hlog => by simp [start] at hlog)
  flights := rfl

/-- What a trigger taken from the queue is added to. -/
def Place.next (place : Place) (trigger : MeReinitTrigger) : Seen :=
  (place.seen.getD Seen.none).add trigger

theorem inFlight_of_ne_cycle (h : s.place ≠ .cycle) : inFlight s = s.detached := by
  cases hplace : s.place <;> simp_all [inFlight]

theorem Inv.seenOf_current (h : Inv s) :
    s.place.seen.getD Seen.none = seenOf (batches s.log).2 := by
  cases hseen : s.place.seen with
  | none => rw [h.fresh hseen]; rfl
  | some seen => exact (h.collected seen hseen).2

theorem Inv.enqueue (h : Inv s) (trigger : MeReinitTrigger) :
    Inv (enqueueReinitTrigger s trigger) := by
  unfold enqueueReinitTrigger
  split
  · exact {
      room := h.room
      conserved := by simp [taken, batches, h.conserved]
      collected := h.collected
      fresh := h.fresh
      launched := h.launched
      nonempty := h.nonempty
      answered := .inr (.inl (by simp))
      flights := by simpa [launchedCount, launches, finishedCount, inFlight] using h.flights }
  · rename_i hfull
    have hqueue : s.queue ≠ [] := by
      intro hnil
      rw [hnil] at hfull
      exact hfull h.room
    exact {
      room := h.room
      conserved := h.conserved
      collected := h.collected
      fresh := h.fresh
      launched := h.launched
      nonempty := h.nonempty
      answered := .inr (.inl hqueue)
      flights := by simpa [launchedCount, launches, finishedCount, inFlight] using h.flights }

/-- A trigger moves from the queue to the batch. -/
theorem Inv.receive (h : Inv s) {trigger : MeReinitTrigger} {queue : List MeReinitTrigger}
    (hqueue : s.queue = trigger :: queue) (hplace : s.place ≠ .cycle) {place : Place}
    (hseen : place.seen = some (s.place.next trigger)) :
    Inv { s with queue, place, log := .received trigger :: s.log } where
  room := h.room
  conserved := by
    have hconserved := h.conserved
    rw [hqueue] at hconserved
    simpa [taken, batches] using hconserved
  collected seen hmem := by
    obtain rfl := Option.some.inj (hseen.symm.trans hmem)
    refine ⟨by simp [batches], ?_⟩
    rw [batches, seenOf_concat, Place.next, h.seenOf_current]
  fresh hnone := by rw [hnone] at hseen; cases hseen
  launched := h.launched
  nonempty := h.nonempty
  answered := .inr (.inr (by rw [hseen]; rfl))
  flights := by
    have hflights := h.flights
    have hne : place ≠ .cycle := by rintro rfl; cases hseen
    rw [inFlight_of_ne_cycle hplace] at hflights
    rw [inFlight_of_ne_cycle hne]
    simpa [launchedCount, launches, finishedCount] using hflights

/-- Attached or detached, one more cycle is in flight and no batch is being collected. -/
theorem launch_cases (s : System) (cfg : ReinitSettings) (seen : Seen) :
    ∃ place detached apart,
      launch s cfg seen = { s with place, detached, log := .launched seen apart :: s.log } ∧
        place.seen = none ∧ inFlight { s with place, detached } = s.detached + 1 := by
  unfold launch
  split
  · exact ⟨.cycle, s.detached, false, rfl, rfl, Nat.add_comm 1 _⟩
  · exact ⟨.idle, s.detached + 1, true, rfl, rfl, Nat.zero_add _⟩

/-- The batch is closed and its cycle starts. -/
theorem Inv.launch (h : Inv s) {seen : Seen} (hseen : s.place.seen = some seen)
    (cfg : ReinitSettings) : Inv (launch s cfg seen) := by
  have hne : s.place ≠ .cycle := by
    intro hcycle
    rw [hcycle] at hseen
    cases hseen
  have hflights := h.flights
  rw [inFlight_of_ne_cycle hne] at hflights
  obtain ⟨hbatch, hbatchSeen⟩ := h.collected seen hseen
  obtain ⟨place, detached, apart, hlaunch, hplace, hinFlight⟩ := launch_cases s cfg seen
  rw [hlaunch]
  exact {
    room := h.room
    conserved := by simpa [taken, batches] using h.conserved
    collected := fun seen hmem => by rw [hplace] at hmem; cases hmem
    fresh := fun _ => rfl
    launched := by simp [launches, batches, h.launched, hbatchSeen]
    nonempty := by
      intro batch hmem
      rcases List.mem_append.mp hmem with hmem | hmem
      · exact h.nonempty batch hmem
      · exact List.mem_singleton.mp hmem ▸ hbatch
    answered := .inl (answered_launched _ _ _)
    flights := by
      have hcount : finishedCount (.launched seen apart :: s.log) = finishedCount s.log :=
        List.count_cons_of_ne (by simp)
      have hone : launchedCount (.launched seen apart :: s.log) = launchedCount s.log + 1 := by
        simp [launchedCount, launches]
      change inFlight { s with place, detached, log := _ } = s.detached + 1 at hinFlight
      rw [hcount, hone, hflights, Nat.add_assoc]
      exact congrArg _ hinFlight.symm }

/-- The end of a cycle, in the scheduler's own course or apart. -/
theorem Inv.finish (h : Inv s) {place : Place} {detached : ℕ} (hseen : place.seen = s.place.seen)
    (hone : inFlight s = inFlight { s with place, detached } + 1) :
    Inv { s with place, detached, log := .finished :: s.log } where
  room := h.room
  conserved := h.conserved
  collected seen hmem := h.collected seen (hseen ▸ hmem)
  fresh hnone := h.fresh (hseen ▸ hnone)
  launched := h.launched
  nonempty := h.nonempty
  answered := h.answered.imp (fun ha => ha.cons (by simp))
    (fun hp => hp.imp id (fun hs => by rwa [hseen]))
  flights := by
    have hflights := h.flights
    have hcount : finishedCount (.finished :: s.log) = finishedCount s.log + 1 :=
      List.count_cons_self
    rw [hone] at hflights
    rw [hcount, Nat.add_right_comm]
    exact hflights

/-- A step that touches neither the queue, the log nor what is collected. -/
theorem Inv.move (h : Inv s) (place : Place) (now : ℕ) (config : ReinitSettings) (gone : Bool)
    (hseen : place.seen = s.place.seen)
    (hflight : inFlight { s with place } = inFlight s) :
    Inv { s with place, now, config, sendersGone := gone } where
  room := h.room
  conserved := h.conserved
  collected seen hmem := h.collected seen (hseen ▸ hmem)
  fresh hnone := h.fresh (hseen ▸ hnone)
  launched := h.launched
  nonempty := h.nonempty
  answered := h.answered.imp id (fun hp => hp.imp id (fun hs => by rwa [hseen]))
  flights := h.flights.trans (congrArg _ hflight.symm)

/-! ### The steps -/

/-- What a poll can do: take a trigger, take one and start its cycle at once, start the cycle of what
    was collected, begin to wait for more, or stop. -/
inductive PollMove (s : System) : System → Prop where
  | receive (trigger queue cfg deadline) (hqueue : s.queue = trigger :: queue)
      (hplace : s.place = .idle ∨ ∃ cfg seen deadline, s.place = .waiting cfg seen deadline) :
      PollMove s { s with
        queue, place := .collecting cfg (s.place.next trigger) deadline,
        log := .received trigger :: s.log }
  | receiveLaunch (trigger queue) (cfg : ReinitSettings) (hqueue : s.queue = trigger :: queue)
      (hplace : s.place = .idle) :
      PollMove s (launch { s with queue, log := .received trigger :: s.log } cfg
        (Seen.none.add trigger))
  | launch (cfg : ReinitSettings) (seen) (hseen : s.place.seen = some seen) :
      PollMove s (launch s cfg seen)
  | wait (cfg seen deadline) (hplace : s.place = .collecting cfg seen deadline) :
      PollMove s { s with place := .waiting cfg seen deadline }
  | stop (hplace : s.place = .idle) (hqueue : s.queue = []) (hgone : s.sendersGone = true) :
      PollMove s { s with place := .stopped }

theorem poll_move (h : poll s = some s') : PollMove s s' := by
  unfold poll at h
  split at h
  · rename_i hplace
    split at h
    · rename_i trigger queue hqueue
      dsimp only at h
      split at h
      · obtain rfl := Option.some.inj h
        exact .receiveLaunch trigger queue s.config hqueue hplace
      · obtain rfl := Option.some.inj h
        have hnext : s.place.next trigger = Seen.none.add trigger := by
          simp [Place.next, Place.seen, hplace]
        exact hnext ▸ .receive trigger queue _ _ hqueue (.inl hplace)
    · rename_i hqueue
      split at h
      · rename_i hgone
        obtain rfl := Option.some.inj h
        exact .stop hplace hqueue hgone
      · cases h
  · rename_i cfg seen deadline hplace
    split at h
    · obtain rfl := Option.some.inj h
      exact .launch cfg seen (by simp [Place.seen, hplace])
    · obtain rfl := Option.some.inj h
      exact .wait cfg seen deadline hplace
  · rename_i cfg seen deadline hplace
    split at h
    · rename_i trigger queue hqueue
      obtain rfl := Option.some.inj h
      have hnext : s.place.next trigger = seen.add trigger := by
        simp [Place.next, Place.seen, hplace]
      exact hnext ▸ .receive trigger queue _ _ hqueue (.inr ⟨cfg, seen, deadline, hplace⟩)
    · split at h
      · obtain rfl := Option.some.inj h
        exact .launch cfg seen (by simp [Place.seen, hplace])
      · cases h
  · cases h
  · cases h

theorem Inv.poll (h : Inv s) (hpoll : poll s = some s') : Inv s' := by
  cases poll_move hpoll with
  | receive trigger queue cfg deadline hqueue hplace =>
    refine h.receive hqueue ?_ rfl
    rcases hplace with hplace | ⟨cfg, seen, deadline, hplace⟩ <;> simp [hplace]
  | receiveLaunch trigger queue cfg hqueue hplace =>
    have hreceived := h.receive hqueue (by simp [hplace])
      (show (Place.collecting cfg (s.place.next trigger) 0).seen = _ from rfl)
    have hseen : s.place.next trigger = Seen.none.add trigger := by
      simp [Place.next, Place.seen, hplace]
    exact hreceived.launch (congrArg some hseen) cfg
  | launch cfg seen hseen => exact h.launch hseen cfg
  | wait cfg seen deadline hplace =>
    exact h.move _ s.now s.config s.sendersGone (by simp [Place.seen, hplace])
      (by simp [inFlight, hplace])
  | stop hplace hqueue hgone =>
    exact h.move _ s.now s.config s.sendersGone (by simp [Place.seen, hplace])
      (by simp [inFlight, hplace])

theorem Inv.step {e : Event} (h : Inv s) (hstep : step s e = some s') : Inv s' := by
  cases e with
  | enqueue trigger =>
    simp only [Scheduler.step] at hstep
    split at hstep
    · cases hstep
    · exact Option.some.inj hstep ▸ h.enqueue trigger
  | dropSenders => exact Option.some.inj hstep ▸ h.move s.place s.now s.config true rfl rfl
  | publish config => exact Option.some.inj hstep ▸ h.move s.place s.now config s.sendersGone rfl rfl
  | tick ms =>
    exact Option.some.inj hstep ▸ h.move s.place (s.now + ms) s.config s.sendersGone rfl rfl
  | poll => exact h.poll hstep
  | cycleDone =>
    simp only [Scheduler.step] at hstep
    split at hstep
    · rename_i hplace
      obtain rfl := Option.some.inj hstep
      refine h.finish (by simp [Place.seen, hplace]) ?_
      simp [inFlight, hplace, Nat.add_comm]
    · cases hstep
  | detachedDone =>
    simp only [Scheduler.step] at hstep
    split at hstep
    · obtain rfl := Option.some.inj hstep
      refine h.finish rfl ?_
      simp only [inFlight]
      omega
    · cases hstep

/-- The state a run of the system has reached keeps the invariant. -/
theorem inv_of_run {capacity : ℕ} (hcap : 0 < capacity) {config : ReinitSettings} {es : List Event}
    (hrun : run Scheduler.step (start capacity config) es = some s) : Inv s :=
  run_invariant (fun _ _ _ hI hstep => hI.step hstep) es (inv_start hcap config) hrun

/-! ### The work that is left -/

/-- The scheduler has stopped only for want of triggers and of anybody to send them. -/
def Halted (s : System) : Prop := s.place = .stopped → s.queue = [] ∧ s.sendersGone = true

def Place.work : Place → ℕ
  | stopped => 0
  | idle => 1
  | cycle => 2
  | waiting _ _ _ => 3
  | collecting _ _ _ => 4

/-- A bound for the polls and the ends of cycles that are to come for the triggers at hand. -/
def work (s : System) : ℕ := 5 * s.queue.length + s.place.work

/-- A step of the scheduler itself. -/
def isWork : Event → Bool
  | .poll | .cycleDone => true
  | _ => false

def isEnqueue : Event → Bool
  | .enqueue _ => true
  | _ => false

theorem work_launch (s : System) (cfg : ReinitSettings) (seen : Seen) :
    work (launch s cfg seen) ≤ 5 * s.queue.length + 2 := by
  unfold launch work
  split <;> simp [Place.work]

theorem poll_work (h : poll s = some s') : work s' < work s := by
  cases poll_move h with
  | receive trigger queue cfg deadline hqueue hplace =>
    have hone : 1 ≤ s.place.work := by
      rcases hplace with hplace | ⟨cfg, seen, deadline, hplace⟩ <;> simp [hplace, Place.work]
    simp only [work, hqueue, List.length_cons, Place.work]
    omega
  | receiveLaunch trigger queue cfg hqueue hplace =>
    have hle := work_launch { s with queue, log := .received trigger :: s.log } cfg
      (Seen.none.add trigger)
    simp only [work, hqueue, List.length_cons, hplace, Place.work] at hle ⊢
    omega
  | launch cfg seen hseen =>
    have hthree : 3 ≤ s.place.work := by
      cases hplace : s.place <;> simp_all [Place.work, Place.seen]
    have hle := work_launch s cfg seen
    simp only [work] at hle ⊢
    omega
  | wait cfg seen deadline hplace => simp [work, hplace, Place.work]
  | stop hplace hqueue hgone => simp [work, hplace, Place.work]

/-- Without new triggers the work gets less with every step of the scheduler. -/
theorem step_work {e : Event} (hquiet : isEnqueue e = false) (hstep : Scheduler.step s e = some s') :
    (if isWork e then 1 else 0) + work s' ≤ work s := by
  cases e with
  | enqueue trigger => cases hquiet
  | dropSenders => exact Option.some.inj hstep ▸ (Nat.zero_add _).le
  | publish config => exact Option.some.inj hstep ▸ (Nat.zero_add _).le
  | tick ms => exact Option.some.inj hstep ▸ (Nat.zero_add _).le
  | poll => exact Nat.add_comm 1 _ ▸ poll_work hstep
  | cycleDone =>
    simp only [Scheduler.step] at hstep
    split at hstep
    · rename_i hplace
      obtain rfl := Option.some.inj hstep
      simp only [isWork, work, hplace, Place.work, if_true]
      omega
    · cases hstep
  | detachedDone =>
    simp only [Scheduler.step] at hstep
    split at hstep
    · exact Option.some.inj hstep ▸ (Nat.zero_add _).le
    · cases hstep

theorem run_work {es : List Event} (hquiet : ∀ e ∈ es, isEnqueue e = false)
    (hrun : run Scheduler.step s es = some s') : es.countP isWork + work s' ≤ work s := by
  induction es generalizing s with
  | nil => exact Option.some.inj hrun ▸ (Nat.zero_add _).le
  | cons e es ih =>
    obtain ⟨t, ht, hrun'⟩ := run_cons hrun
    have hstep := step_work (hquiet e List.mem_cons_self) ht
    have hrest := ih (fun e' he' => hquiet e' (List.mem_cons_of_mem _ he')) hrun'
    rw [List.countP_cons]
    omega

theorem Halted.step {e : Event} (h : Halted s) (hstep : Scheduler.step s e = some s') :
    Halted s' := by
  intro hstopped
  cases e with
  | enqueue trigger =>
    simp only [Scheduler.step, enqueueReinitTrigger] at hstep
    split at hstep
    · cases hstep
    · rename_i hopen
      split at hstep <;>
      · obtain rfl := Option.some.inj hstep
        exact absurd (h hstopped).2 hopen
  | dropSenders =>
    obtain rfl := Option.some.inj hstep
    exact ⟨(h hstopped).1, rfl⟩
  | publish config =>
    obtain rfl := Option.some.inj hstep
    exact h hstopped
  | tick ms =>
    obtain rfl := Option.some.inj hstep
    exact h hstopped
  | poll =>
    cases poll_move hstep with
    | receive | wait => cases hstopped
    | receiveLaunch | launch =>
      unfold launch at hstopped
      split at hstopped <;> cases hstopped
    | stop hplace hqueue hgone => exact ⟨hqueue, hgone⟩
  | cycleDone =>
    simp only [Scheduler.step] at hstep
    split at hstep
    · obtain rfl := Option.some.inj hstep
      cases hstopped
    · cases hstep
  | detachedDone =>
    simp only [Scheduler.step] at hstep
    split at hstep
    · obtain rfl := Option.some.inj hstep
      exact h hstopped
    · cases hstep

/-- While triggers wait for a cycle the scheduler can go on, at the latest when its window is over. -/
theorem Pending.goesOn (h : Pending s) (hhalted : Halted s) :
    ∃ ms, (poll { s with now := s.now + ms }).isSome ∨ (Scheduler.step s .cycleDone).isSome := by
  cases hplace : s.place with
  | idle =>
    refine ⟨0, .inl ?_⟩
    rcases h with hqueue | hseen
    · obtain ⟨trigger, queue, hqueue⟩ := List.exists_cons_of_ne_nil hqueue
      simp only [poll, hqueue]
      split <;> rfl
    · simp [hplace, Place.seen] at hseen
  | collecting cfg seen deadline =>
    refine ⟨0, .inl ?_⟩
    simp only [poll]
    split <;> rfl
  | waiting cfg seen deadline =>
    refine ⟨deadline, .inl ?_⟩
    simp only [poll]
    split
    · rfl
    · rw [if_pos (.inr (Nat.le_add_left _ _))]
      rfl
  | cycle => exact ⟨0, .inr (by simp [Scheduler.step, hplace])⟩
  | stopped =>
    have hqueue := (hhalted hplace).1
    rcases h with h | hseen
    · exact absurd hqueue h
    · simp [hplace, Place.seen] at hseen

/-! ### The results -/

/-- In every run the triggers taken are, in their order, those of the batches the cycles were started
    for, of the batch that is being collected and of the queue; no batch is empty, and its cycle is
    started with the kinds of its triggers. Every trigger offered, dropped ones included, has been
    followed by the start of a cycle, or one is still to come and the scheduler can go on, which it does
    at most `work` times if no trigger is added. -/
theorem reinit_triggers_served {capacity : ℕ} (hcap : 0 < capacity) (config : ReinitSettings)
    (es : List Event) (s : System) (hrun : run Scheduler.step (start capacity config) es = some s) :
    taken s.log = (batches s.log).1.flatten ++ (batches s.log).2 ++ s.queue ∧
      (∀ batch ∈ (batches s.log).1, batch ≠ []) ∧
      launches s.log = (batches s.log).1.map seenOf ∧
      (Answered s.log ∨ Pending s ∧ ∃ ms, (poll { s with now := s.now + ms }).isSome ∨
        (Scheduler.step s .cycleDone).isSome) ∧
      ∀ es' u, (∀ e ∈ es', isEnqueue e = false) → run Scheduler.step s es' = some u →
        es'.countP isWork ≤ work s := by
  have hinv := inv_of_run hcap hrun
  have hhalted : Halted s :=
    run_invariant (fun _ _ _ hI hstep => hI.step hstep) es
      (show Halted (start capacity config) from fun h => by cases h) hrun
  refine ⟨hinv.conserved, hinv.nonempty, hinv.launched, ?_, ?_⟩
  · exact hinv.answered.imp id (fun hpending => ⟨hpending, hpending.goesOn hhalted⟩)
  · intro es' u hquiet hrun'
    have hwork := run_work hquiet hrun'
    omega

theorem reinit_triggers_served_full_queue :
    let s : System := ⟨0, ⟨0, true⟩, 1, [.mapChanged], false, .cycle, 0,
      [.offered .periodic false, .offered .mapChanged true, .launched ⟨false, true⟩ false,
        .received .periodic, .offered .periodic true]⟩
    taken s.log = (batches s.log).1.flatten ++ (batches s.log).2 ++ s.queue ∧
      (∀ batch ∈ (batches s.log).1, batch ≠ []) ∧
      launches s.log = (batches s.log).1.map seenOf ∧
      (Answered s.log ∨ Pending s ∧ ∃ ms, (poll { s with now := s.now + ms }).isSome ∨
        (Scheduler.step s .cycleDone).isSome) ∧
      ∀ es' u, (∀ e ∈ es', isEnqueue e = false) → run Scheduler.step s es' = some u →
        es'.countP isWork ≤ work s :=
  @reinit_triggers_served 1 (by decide) ⟨0, true⟩
    [.enqueue .periodic, .poll, .enqueue .mapChanged, .enqueue .periodic] _ rfl

/-- Every cycle is to be awaited: in the settings, in what a round has read of them and in what is under
    way. -/
structure Awaited (s : System) : Prop where
  config : s.config.meReinitSingleflight = true
  collecting : ∀ cfg seen deadline, s.place = .collecting cfg seen deadline →
    cfg.meReinitSingleflight = true
  waiting : ∀ cfg seen deadline, s.place = .waiting cfg seen deadline →
    cfg.meReinitSingleflight = true
  detached : s.detached = 0

theorem Awaited.launch (hconfig : s.config.meReinitSingleflight = true) (hdetached : s.detached = 0)
    {cfg : ReinitSettings} (hcfg : cfg.meReinitSingleflight = true) (seen : Seen) :
    Awaited (launch s cfg seen) := by
  unfold Scheduler.launch
  rw [if_pos hcfg]
  exact ⟨hconfig, by simp, by simp, hdetached⟩

theorem Awaited.poll (h : Awaited s) (hpoll : poll s = some s') : Awaited s' := by
  unfold Scheduler.poll at hpoll
  split at hpoll
  · split at hpoll
    · rename_i trigger queue hqueue
      dsimp only at hpoll
      split at hpoll
      · obtain rfl := Option.some.inj hpoll
        exact Awaited.launch (s := { s with queue, log := .received trigger :: s.log }) h.config
          h.detached h.config _
      · obtain rfl := Option.some.inj hpoll
        refine ⟨h.config, ?_, by simp, h.detached⟩
        rintro cfg seen deadline ⟨⟩
        exact h.config
    · split at hpoll
      · exact Option.some.inj hpoll ▸ ⟨h.config, by simp, by simp, h.detached⟩
      · cases hpoll
  · rename_i cfg seen deadline hplace
    have hcfg := h.collecting cfg seen deadline hplace
    split at hpoll
    · exact Option.some.inj hpoll ▸ Awaited.launch h.config h.detached hcfg _
    · obtain rfl := Option.some.inj hpoll
      refine ⟨h.config, by simp, ?_, h.detached⟩
      rintro cfg seen deadline ⟨⟩
      exact hcfg
  · rename_i cfg seen deadline hplace
    have hcfg := h.waiting cfg seen deadline hplace
    split at hpoll
    · obtain rfl := Option.some.inj hpoll
      refine ⟨h.config, ?_, by simp, h.detached⟩
      rintro cfg seen deadline ⟨⟩
      exact hcfg
    · split at hpoll
      · exact Option.some.inj hpoll ▸ Awaited.launch h.config h.detached hcfg _
      · cases hpoll
  · cases hpoll
  · cases hpoll

theorem Awaited.step {e : Event} (h : Awaited s)
    (hpublish : ∀ config, e = .publish config → config.meReinitSingleflight = true)
    (hstep : Scheduler.step s e = some s') : Awaited s' := by
  cases e with
  | enqueue trigger =>
    simp only [Scheduler.step, enqueueReinitTrigger] at hstep
    split at hstep
    · cases hstep
    · split at hstep <;>
      exact Option.some.inj hstep ▸ ⟨h.config, h.collecting, h.waiting, h.detached⟩
  | dropSenders => exact Option.some.inj hstep ▸ ⟨h.config, h.collecting, h.waiting, h.detached⟩
  | publish config =>
    exact Option.some.inj hstep ▸ ⟨hpublish config rfl, h.collecting, h.waiting, h.detached⟩
  | tick ms => exact Option.some.inj hstep ▸ ⟨h.config, h.collecting, h.waiting, h.detached⟩
  | poll => exact h.poll hstep
  | cycleDone =>
    simp only [Scheduler.step] at hstep
    split at hstep
    · exact Option.some.inj hstep ▸ ⟨h.config, by simp, by simp, h.detached⟩
    · cases hstep
  | detachedDone =>
    simp only [Scheduler.step, h.detached, Nat.lt_irrefl, if_false] at hstep
    cases hstep

/-- As long as the settings published ask for it, cycles are run one at a time: at any moment all but
    the last of those started have finished, whatever triggers arrive meanwhile. -/
theorem cycles_one_at_a_time {capacity : ℕ} (hcap : 0 < capacity) (config : ReinitSettings)
    (hconfig : config.meReinitSingleflight = true) (es : List Event)
    (hpublish : ∀ config, .publish config ∈ es → config.meReinitSingleflight = true) (s : System)
    (hrun : run Scheduler.step (start capacity config) es = some s) :
    launchedCount s.log ≤ finishedCount s.log + 1 ∧
      (launchedCount s.log = finishedCount s.log + 1 ↔ s.place = .cycle) := by
  have hmeets : RunMeets Scheduler.step (fun _ e => e ∈ es) (start capacity config) es :=
    runMeets_of_labels (fun _ he => he) _
  have hstart : Awaited (start capacity config) := ⟨hconfig, by simp [start], by simp [start], rfl⟩
  have hawaited : Awaited s := by
    refine runMeets_invariant ?_ es hstart hmeets hrun
    intro s e s' hs he hstep
    refine hs.step ?_ hstep
    rintro config rfl
    exact hpublish config he
  have hflights := (inv_of_run hcap hrun).flights
  rw [inFlight, hawaited.detached, Nat.add_zero] at hflights
  rw [hflights]
  cases hplace : s.place <;> simp

theorem cycles_one_at_a_time_trigger_during_cycle :
    let s : System := ⟨0, ⟨0, true⟩, 1, [.mapChanged], false, .cycle, 0,
      [.offered .mapChanged true, .launched ⟨false, true⟩ false, .received .periodic,
        .offered .periodic true]⟩
    launchedCount s.log ≤ finishedCount s.log + 1 ∧
      (launchedCount s.log = finishedCount s.log + 1 ↔ s.place = .cycle) :=
  @cycles_one_at_a_time 1 (by decide) ⟨0, true⟩ rfl
    [.enqueue .periodic, .poll, .enqueue .mapChanged] (by simp) _ rfl

end

end MtProxy.MiddleProxy.Scheduler
