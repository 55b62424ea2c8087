import Mathlib.Data.List.Basic
import Mathlib.Tactic

/-! A bounded channel with many senders and one receiver. A value holds one of the permits until it is
    received. Who finds none can wait: the permit that comes free next goes to the first who waits, and
    not to a sender that only tries.

        try ──permit──────────────▶ queue ──recv──▶ received
        acquire ──▶ waiters ──▶ granted ──send──▶ queue

    What was accepted is received in this order, and permits are neither lost nor made. -/

namespace Schemes

structure Channel (ι α : Type*) where
  queue : List α
  permits : ℕ
  waiters : List ι
  granted : List ι
  isOpen : Bool
  accepted : List α
  received : List α

inductive TrySend where
  | sent | full | closed
  deriving DecidableEq

namespace Channel
variable {ι α : Type*} [DecidableEq ι]

def new (capacity : ℕ) : Channel ι α := ⟨[], capacity, [], [], true, [], []⟩

def push (c : Channel ι α) (a : α) : Channel ι α :=
  { c with queue := c.queue ++ [a], accepted := c.accepted ++ [a] }

def trySend (c : Channel ι α) (a : α) : TrySend × Channel ι α :=
  if c.isOpen = false then (.closed, c)
  else if c.permits = 0 then (.full, c)
  else (.sent, { c with permits := c.permits - 1 }.push a)

/-- A sender begins to wait for a permit, or gets one. -/
def acquire (c : Channel ι α) (i : ι) : Channel ι α :=
  if c.isOpen = false then c
  else if c.permits = 0 then { c with waiters := c.waiters ++ [i] }
  else { c with permits := c.permits - 1, granted := c.granted ++ [i] }

/-- A sender uses the permit it was granted. -/
def send (c : Channel ι α) (i : ι) (a : α) : Channel ι α :=
  { c with granted := c.granted.erase i }.push a

/-- A sender waits no longer. -/
def cancel (c : Channel ι α) (i : ι) : Channel ι α := { c with waiters := c.waiters.erase i }

/-- A permit comes free. -/
def release (c : Channel ι α) : Channel ι α :=
  match c.waiters with
  | [] => { c with permits := c.permits + 1 }
  | i :: waiters => { c with waiters := waiters, granted := c.granted ++ [i] }

/-- A sender gives up its place in the line, or the permit it was granted. -/
def withdraw (c : Channel ι α) (i : ι) : Channel ι α :=
  if i ∈ c.granted then { c with granted := c.granted.erase i }.release else c.cancel i

def recv (c : Channel ι α) : Option (Channel ι α) :=
  if c.isOpen = false then none
  else match c.queue with
    | [] => none
    | a :: queue => some { c with queue := queue, received := c.received ++ [a] }.release

/-- The receiver goes; nobody has to wait any more. -/
def close (c : Channel ι α) : Channel ι α := { c with isOpen := false, waiters := [] }

/-! ### What a channel keeps -/

structure Balanced (capacity : ℕ) (c : Channel ι α) : Prop where
  permits : c.permits + (c.queue.length + c.granted.length) = capacity
  waiting : c.waiters ≠ [] → c.permits = 0
  fifo : c.received ++ c.queue = c.accepted

section
variable {capacity : ℕ} {c : Channel ι α}

omit [DecidableEq ι] in
theorem balanced_new : Balanced capacity (new capacity : Channel ι α) :=
  ⟨rfl, fun h => absurd rfl h, rfl⟩

omit [DecidableEq ι] in
theorem Balanced.queue_le (h : Balanced capacity c) : c.queue.length ≤ capacity := by
  have hpermits := h.permits
  omega

omit [DecidableEq ι] in
theorem trySend_sent {a : α} (h : (c.trySend a).1 = .sent) :
    c.isOpen = true ∧ 0 < c.permits ∧ (c.trySend a).2 = { c with permits := c.permits - 1 }.push a := by
  unfold trySend at h ⊢
  split at h
  · cases h
  · rename_i hopen
    split at h
    · cases h
    · rename_i hpermits
      rw [if_neg hopen, if_neg hpermits]
      exact ⟨by simpa using hopen, Nat.pos_of_ne_zero hpermits, rfl⟩

omit [DecidableEq ι] in
theorem trySend_not_sent {a : α} (h : (c.trySend a).1 ≠ .sent) : (c.trySend a).2 = c := by
  unfold trySend at h ⊢
  split
  · rfl
  · split
    · rfl
    · rename_i hopen hpermits
      rw [if_neg hopen, if_neg hpermits] at h
      exact absurd rfl h

omit [DecidableEq ι] in
theorem Balanced.trySend (h : Balanced capacity c) (a : α) : Balanced capacity (c.trySend a).2 := by
  by_cases hsent : (c.trySend a).1 = .sent
  · obtain ⟨-, hpos, heq⟩ := trySend_sent hsent
    have hpermits := h.permits
    rw [heq]
    refine ⟨?_, fun hw => ?_, ?_⟩
    · simp only [push, List.length_append, List.length_singleton]
      omega
    · exact absurd (h.waiting hw) hpos.ne'
    · simp only [push]
      rw [← List.append_assoc, h.fifo]
  · rw [trySend_not_sent hsent]
    exact h

omit [DecidableEq ι] in
theorem Balanced.acquire (h : Balanced capacity c) (i : ι) : Balanced capacity (c.acquire i) := by
  have hpermits := h.permits
  unfold Channel.acquire
  split
  · exact h
  · split
    · rename_i hzero
      exact ⟨hpermits, fun _ => hzero, h.fifo⟩
    · rename_i hpos
      refine ⟨?_, fun hw => absurd (h.waiting hw) hpos, h.fifo⟩
      simp only [List.length_append, List.length_singleton]
      omega

theorem Balanced.send (h : Balanced capacity c) {i : ι} (hi : i ∈ c.granted) (a : α) :
    Balanced capacity (c.send i a) := by
  have hpermits := h.permits
  have hpos := List.length_pos_of_mem hi
  refine ⟨?_, h.waiting, ?_⟩
  · simp only [Channel.send, push, List.length_append, List.length_singleton,
      List.length_erase_of_mem hi]
    omega
  · simp only [Channel.send, push]
    rw [← List.append_assoc, h.fifo]

theorem Balanced.cancel (h : Balanced capacity c) (i : ι) : Balanced capacity (c.cancel i) := by
  refine ⟨h.permits, fun hw => h.waiting fun hnil => hw ?_, h.fifo⟩
  rw [Channel.cancel, hnil]
  rfl

omit [DecidableEq ι] in
/-- One permit is missing, and comes free. -/
theorem balanced_release (hpermits : c.permits + (c.queue.length + c.granted.length) + 1 = capacity)
    (hwaiting : c.waiters ≠ [] → c.permits = 0) (hfifo : c.received ++ c.queue = c.accepted) :
    Balanced capacity c.release := by
  unfold release
  split
  · rename_i hnil
    refine ⟨?_, fun hw => absurd hnil hw, hfifo⟩
    simp only
    omega
  · rename_i i waiters hw
    refine ⟨?_, fun _ => hwaiting (by simp [hw]), hfifo⟩
    simp only [List.length_append, List.length_singleton]
    omega

theorem Balanced.withdraw (h : Balanced capacity c) (i : ι) : Balanced capacity (c.withdraw i) := by
  unfold Channel.withdraw
  split
  · rename_i hi
    have hpermits := h.permits
    have hpos := List.length_pos_of_mem hi
    refine balanced_release ?_ h.waiting h.fifo
    simp only [List.length_erase_of_mem hi]
    omega
  · exact h.cancel i

omit [DecidableEq ι] in
theorem Balanced.recv {c' : Channel ι α} (h : Balanced capacity c) (hrecv : c.recv = some c') :
    Balanced capacity c' := by
  have hpermits := h.permits
  have hfifo := h.fifo
  unfold Channel.recv at hrecv
  split at hrecv
  · cases hrecv
  · split at hrecv
    · cases hrecv
    · rename_i a queue hqueue
      obtain rfl := Option.some.inj hrecv
      rw [hqueue] at hpermits hfifo
      rw [List.length_cons] at hpermits
      refine balanced_release ?_ h.waiting ?_
      · simp only
        omega
      · simpa using hfifo

omit [DecidableEq ι] in
theorem Balanced.close (h : Balanced capacity c) : Balanced capacity c.close :=
  ⟨h.permits, fun hw => absurd rfl hw, h.fifo⟩

/-- A sender that has begun to wait does so, or has been granted its permit, as long as the channel is
    open. -/
def Present (c : Channel ι α) (i : ι) : Prop := c.isOpen = true → i ∈ c.waiters ∨ i ∈ c.granted

omit [DecidableEq ι] in
theorem present_acquire (c : Channel ι α) (i : ι) : Present (c.acquire i) i := by
  intro hopen
  unfold Channel.acquire at hopen ⊢
  split
  · rename_i hclosed
    rw [if_pos hclosed] at hopen
    rw [hclosed] at hopen
    cases hopen
  · split
    · exact .inl (List.mem_append_right _ (List.mem_singleton_self i))
    · exact .inr (List.mem_append_right _ (List.mem_singleton_self i))

omit [DecidableEq ι] in
theorem Present.acquire {i : ι} (h : Present c i) (j : ι) : Present (c.acquire j) i := by
  unfold Channel.acquire
  split
  · exact h
  · split
    · exact fun hopen => (h hopen).imp_left (List.mem_append_left _)
    · exact fun hopen => (h hopen).imp_right (List.mem_append_left _)

omit [DecidableEq ι] in
theorem Present.trySend {i : ι} (h : Present c i) (a : α) : Present (c.trySend a).2 i := by
  by_cases hsent : (c.trySend a).1 = .sent
  · rw [(trySend_sent hsent).2.2]
    exact h
  · rw [trySend_not_sent hsent]
    exact h

theorem Present.send {i j : ι} (h : Present c i) (hij : i ≠ j) (a : α) : Present (c.send j a) i :=
  fun hopen => (h hopen).imp_right fun hmem => (List.mem_erase_of_ne hij).mpr hmem

theorem Present.cancel {i j : ι} (h : Present c i) (hij : i ≠ j) : Present (c.cancel j) i :=
  fun hopen => (h hopen).imp_left fun hmem => (List.mem_erase_of_ne hij).mpr hmem

omit [DecidableEq ι] in
theorem Present.release {i : ι} (h : Present c i) : Present c.release i := by
  unfold Channel.release
  split
  · exact h
  · rename_i j waiters hw
    intro hopen
    rcases h hopen with hwaits | hgranted
    · rw [hw] at hwaits
      rcases List.mem_cons.mp hwaits with rfl | hwaits
      · exact .inr (List.mem_append_right _ (List.mem_singleton_self _))
      · exact .inl hwaits
    · exact .inr (List.mem_append_left _ hgranted)

theorem Present.withdraw {i j : ι} (h : Present c i) (hij : i ≠ j) : Present (c.withdraw j) i := by
  unfold Channel.withdraw
  split
  · refine Present.release fun hopen => (h hopen).imp_right fun hmem => ?_
    exact (List.mem_erase_of_ne hij).mpr hmem
  · exact h.cancel hij

omit [DecidableEq ι] in
theorem Present.recv {c' : Channel ι α} {i : ι} (h : Present c i) (hrecv : c.recv = some c') :
    Present c' i := by
  unfold Channel.recv at hrecv
  split at hrecv
  · cases hrecv
  · split at hrecv
    · cases hrecv
    · obtain rfl := Option.some.inj hrecv
      exact Present.release h

omit [DecidableEq ι] in
theorem Present.close {i : ι} : Present c.close i := fun hopen => by cases hopen

/-! What only moves permits leaves what was accepted as it is. -/

omit [DecidableEq ι] in
@[simp] theorem acquire_accepted (i : ι) : (c.acquire i).accepted = c.accepted := by
  unfold Channel.acquire
  split
  · rfl
  · split <;> rfl

omit [DecidableEq ι] in
@[simp] theorem release_accepted : c.release.accepted = c.accepted := by
  unfold release
  split <;> rfl

@[simp] theorem withdraw_accepted (i : ι) : (c.withdraw i).accepted = c.accepted := by
  unfold Channel.withdraw
  split
  · exact release_accepted
  · rfl

omit [DecidableEq ι] in
theorem recv_accepted {c' : Channel ι α} (h : c.recv = some c') : c'.accepted = c.accepted := by
  unfold Channel.recv at h
  split at h
  · cases h
  · split at h
    · cases h
    · obtain rfl := Option.some.inj h
      exact release_accepted

omit [DecidableEq ι] in
theorem trySend_accepted (a : α) : (c.trySend a).2.accepted =
    if (c.trySend a).1 = .sent then c.accepted ++ [a] else c.accepted := by
  split
  · rename_i hsent
    rw [(trySend_sent hsent).2.2]
    rfl
  · rename_i hsent
    rw [trySend_not_sent hsent]

/-! Only the receiver closes the channel. -/

omit [DecidableEq ι] in
@[simp] theorem acquire_isOpen (i : ι) : (c.acquire i).isOpen = c.isOpen := by
  unfold Channel.acquire
  split
  · rfl
  · split <;> rfl

omit [DecidableEq ι] in
@[simp] theorem release_isOpen : c.release.isOpen = c.isOpen := by
  unfold release
  split <;> rfl

@[simp] theorem withdraw_isOpen (i : ι) : (c.withdraw i).isOpen = c.isOpen := by
  unfold Channel.withdraw
  split
  · exact release_isOpen
  · rfl

omit [DecidableEq ι] in
theorem trySend_isOpen (a : α) : (c.trySend a).2.isOpen = c.isOpen := by
  by_cases hsent : (c.trySend a).1 = .sent
  · rw [(trySend_sent hsent).2.2]
    rfl
  · rw [trySend_not_sent hsent]

omit [DecidableEq ι] in
theorem recv_isOpen {c' : Channel ι α} (h : c.recv = some c') : c'.isOpen = c.isOpen := by
  unfold Channel.recv at h
  split at h
  · cases h
  · split at h
    · cases h
    · obtain rfl := Option.some.inj h
      exact release_isOpen

end

end Channel

end Schemes
