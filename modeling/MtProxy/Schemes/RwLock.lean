import Mathlib.Tactic

/-! A fair reader-writer lock. Requests are served in the order in which they come: one is granted when
    nothing waits in front of it and the holders admit it.

        holders   r r r        a writer is admitted alone, a reader next to readers
        queue     w r r w      the front is not admitted yet; nobody passes it

    A reader that comes while a writer waits goes behind the writer, also if it is a reader already:
    then the writer waits for it and it for the writer, and `stuck_release` says that no other release
    ever moves the queue again. -/

namespace Schemes

inductive Mode where
  | read | write
  deriving DecidableEq

section
variable {T : Type*}

/-- The holders admit a request. -/
def admits (hs : List (T × Mode)) : Mode → Bool
  | .read => hs.all (fun x => x.2 = .read)
  | .write => hs.isEmpty

/-- A writer is the only holder. -/
def Exclusive (hs : List (T × Mode)) : Prop := ∀ x ∈ hs, x.2 = .write → hs = [x]

/-- Grants from the front of the queue, as long as the holders admit it. -/
def grant : List (T × Mode) → List (T × Mode) → List (T × Mode) × List (T × Mode)
  | hs, [] => (hs, [])
  | hs, x :: q => if admits hs x.2 then grant (hs ++ [x]) q else (hs, x :: q)

variable {hs q : List (T × Mode)}

theorem Exclusive.append {x : T × Mode} (h : Exclusive hs) (hx : admits hs x.2 = true) :
    Exclusive (hs ++ [x]) := by
  intro y hy hw
  rcases List.mem_append.mp hy with hy | hy
  · -- a writer among the holders admits nobody
    rw [h y hy hw] at hx
    cases hm : x.2 <;> simp [admits, hw, hm] at hx
  · obtain rfl := List.mem_singleton.mp hy
    rw [hw] at hx
    rw [List.isEmpty_iff.mp hx, List.nil_append]

theorem Exclusive.sublist {hs' : List (T × Mode)} (h : Exclusive hs) (hsub : hs'.Sublist hs) :
    Exclusive hs' := by
  intro x hx hw
  exact (List.sublist_singleton.mp (h x (hsub.subset hx) hw ▸ hsub)).resolve_left
    (List.ne_nil_of_mem hx)

theorem grant_exclusive (q hs : List (T × Mode)) (h : Exclusive hs) :
    Exclusive (grant hs q).1 := by
  induction q generalizing hs with
  | nil => exact h
  | cons x q ih =>
    rw [grant]
    split
    · rename_i hx
      exact ih _ (h.append hx)
    · exact h

/-- What is left in the queue waits. -/
theorem grant_waits (q hs : List (T × Mode)) : ∀ x ∈ (grant hs q).2.head?,
    admits (grant hs q).1 x.2 = false := by
  induction q generalizing hs with
  | nil =>
    intro x hx
    cases hx
  | cons y q ih =>
    intro x hx
    rw [grant] at hx ⊢
    split at hx
    · rename_i hy
      rw [if_pos hy]
      exact ih _ x hx
    · rename_i hy
      obtain rfl : y = x := by simpa using hx
      simp [hy]

theorem grant_perm (q hs : List (T × Mode)) :
    ((grant hs q).1 ++ (grant hs q).2).Perm (hs ++ q) := by
  induction q generalizing hs with
  | nil => exact .refl _
  | cons x q ih =>
    rw [grant]
    split
    · simpa using ih (hs ++ [x])
    · exact .refl _

theorem grant_holders (q hs : List (T × Mode)) : hs <+: (grant hs q).1 := by
  induction q generalizing hs with
  | nil => exact List.prefix_refl _
  | cons x q ih =>
    rw [grant]
    split
    · exact (List.prefix_append hs [x]).trans (ih _)
    · exact List.prefix_refl _

theorem grant_queue (q hs : List (T × Mode)) : (grant hs q).2 <:+ q := by
  induction q generalizing hs with
  | nil => exact List.suffix_refl _
  | cons x q ih =>
    rw [grant]
    split
    · exact (ih _).trans (List.suffix_cons x q)
    · exact List.suffix_refl _

/-- The front of the queue is not admitted: nothing moves. -/
theorem grant_of_waits (h : ∀ x ∈ q.head?, admits hs x.2 = false) : grant hs q = (hs, q) := by
  cases q with
  | nil => rfl
  | cons x q =>
    rw [grant, if_neg (by simp [h x rfl])]

end

/-- The holders and the queue. -/
structure RwLock (T : Type*) where
  holders : List (T × Mode)
  queue : List (T × Mode)
  exclusive : Exclusive holders
  waits : ∀ x ∈ queue.head?, admits holders x.2 = false

namespace RwLock
variable {T : Type*}

def empty : RwLock T := ⟨[], [], by simp [Exclusive], by simp⟩

/-- The lock after a pass over the queue. -/
def settle (hs q : List (T × Mode)) (h : Exclusive hs) : RwLock T :=
  ⟨(grant hs q).1, (grant hs q).2, grant_exclusive q hs h, grant_waits q hs⟩

def request (l : RwLock T) (x : T × Mode) : RwLock T :=
  settle l.holders (l.queue ++ [x]) l.exclusive

def release [DecidableEq T] (l : RwLock T) (x : T × Mode) : RwLock T :=
  settle (l.holders.erase x) l.queue (l.exclusive.sublist List.erase_sublist)

/-- Everybody who holds the lock or waits for it. -/
def entries (l : RwLock T) : Multiset (T × Mode) := (l.holders ++ l.queue : List (T × Mode))

variable (l : RwLock T) (x : T × Mode)

/-- With somebody waiting, a request waits. -/
theorem request_of_queue (h : l.queue ≠ []) :
    (l.request x).holders = l.holders ∧ (l.request x).queue = l.queue ++ [x] := by
  have hgrant : grant l.holders (l.queue ++ [x]) = (l.holders, l.queue ++ [x]) := by
    refine grant_of_waits fun y hy => l.waits y ?_
    rwa [List.head?_append_of_ne_nil _ h] at hy
  simp [request, settle, hgrant]

/-- With nobody waiting, an admitted request is granted. -/
theorem request_of_admits (h : l.queue = []) (hx : admits l.holders x.2 = true) :
    (l.request x).holders = l.holders ++ [x] ∧ (l.request x).queue = [] := by
  simp [request, settle, grant, h, hx]

theorem request_entries : (l.request x).entries = x ::ₘ l.entries := by
  have hperm := grant_perm (l.queue ++ [x]) l.holders
  have happ : (l.holders ++ (l.queue ++ [x])).Perm (x :: (l.holders ++ l.queue)) := by
    rw [← List.append_assoc]
    exact List.perm_append_singleton _ _
  exact Multiset.coe_eq_coe.mpr (hperm.trans happ)

theorem mem_request_holders {y : T × Mode} (h : y ∈ l.holders) : y ∈ (l.request x).holders :=
  (grant_holders _ _).subset h

/-- A reader waits for the lock while it holds it. -/
def WaitsOnItself (t : T) : Prop := (t, .read) ∈ l.holders ∧ (t, .read) ∈ l.queue

theorem admits_read_of_reader {t : T} (h : (t, .read) ∈ l.holders) : admits l.holders .read = true := by
  refine List.all_eq_true.mpr fun x hx => decide_eq_true ?_
  by_contra hne
  have hw : x.2 = .write := by cases hm : x.2 <;> simp_all
  rw [l.exclusive x hx hw, List.mem_singleton] at h
  rw [← h] at hw
  cases hw

/-- A request makes a reader wait on itself exactly if it is its own, and somebody waits already. -/
theorem request_waitsOnItself (t : T) : (l.request x).WaitsOnItself t ↔
    l.WaitsOnItself t ∨ x = (t, .read) ∧ (t, .read) ∈ l.holders ∧ l.queue ≠ [] := by
  by_cases hq : l.queue = []
  · have hno : ¬ l.WaitsOnItself t := fun h => by simp [WaitsOnItself, hq] at h
    simp only [hno, hq, ne_eq, not_true_eq_false, and_false, or_false, iff_false]
    rintro ⟨hh, hw⟩
    by_cases hx : admits l.holders x.2 = true
    · simp [(l.request_of_admits x hq hx).2] at hw
    · have hgrant : grant l.holders (l.queue ++ [x]) = (l.holders, [x]) := by
        simp [hq, grant, hx]
      obtain rfl : (t, .read) = x := by simpa [request, settle, hgrant] using hw
      exact hx (l.admits_read_of_reader (by simpa [request, settle, hgrant] using hh))
  · obtain ⟨hh, hw⟩ := l.request_of_queue x hq
    rw [WaitsOnItself, hh, hw, List.mem_append, List.mem_singleton, WaitsOnItself]
    constructor
    · rintro ⟨hr, hr' | hr'⟩
      · exact .inl ⟨hr, hr'⟩
      · exact .inr ⟨hr'.symm, hr, hq⟩
    · rintro (⟨hr, hr'⟩ | ⟨rfl, hr, -⟩)
      · exact ⟨hr, .inl hr'⟩
      · exact ⟨hr, .inr rfl⟩

variable [DecidableEq T]

theorem WaitsOnItself.two_le_count {l : RwLock T} {t : T} (h : l.WaitsOnItself t) :
    2 ≤ l.entries.count (t, .read) := by
  have hh := Multiset.count_pos.mpr (Multiset.mem_coe.mpr h.1)
  have hq := Multiset.count_pos.mpr (Multiset.mem_coe.mpr h.2)
  rw [entries, ← Multiset.coe_add, Multiset.count_add]
  omega

theorem count_holders_le (y : T × Mode) :
    l.holders.count y + (if y ∈ l.queue then 1 else 0) ≤ l.entries.count y := by
  have hholders : l.holders.count y = (l.holders : Multiset (T × Mode)).count y := by
    rw [Multiset.count, Multiset.coe_countP, List.count]
    refine List.countP_congr fun z _ => ?_
    rw [beq_iff_eq, decide_eq_true_eq, eq_comm]
  rw [hholders, entries, ← Multiset.coe_add, Multiset.count_add, Nat.add_le_add_iff_left]
  split
  · rename_i hy
    exact Multiset.count_pos.mpr (Multiset.mem_coe.mpr hy)
  · exact Nat.zero_le _

theorem release_entries {x : T × Mode} (hx : x ∈ l.holders) :
    x ::ₘ (l.release x).entries = l.entries := by
  have hperm := grant_perm l.queue (l.holders.erase x)
  refine Multiset.coe_eq_coe.mpr ((hperm.cons x).trans ?_)
  rw [← List.cons_append]
  exact (List.perm_cons_erase hx).symm.append_right _

theorem mem_release_holders {y : T × Mode} (h : y ∈ l.holders) (hne : y ≠ x) :
    y ∈ (l.release x).holders :=
  (grant_holders _ _).subset ((List.mem_erase_of_ne hne).mpr h)

/-- Who holds the lock twice still holds it after one release. -/
theorem mem_release_holders_of_count {y : T × Mode} (h : l.holders.count y = 2) :
    y ∈ (l.release x).holders := by
  refine (grant_holders _ _).subset (List.count_pos_iff.mp ?_)
  rw [List.count_erase, h]
  split <;> omega

theorem mem_release_queue {y : T × Mode} (h : y ∈ (l.release x).queue) : y ∈ l.queue :=
  (grant_queue _ _).subset h

/-- A reader that holds the lock and somebody in the queue: no other release moves the queue. -/
theorem stuck_release {t : T} (ht : (t, .read) ∈ l.holders) (hx : x ≠ (t, .read)) :
    (l.release x).queue = l.queue := by
  have hin : (t, .read) ∈ l.holders.erase x := (List.mem_erase_of_ne (Ne.symm hx)).mpr ht
  have hgrant : grant (l.holders.erase x) l.queue = (l.holders.erase x, l.queue) := by
    refine grant_of_waits fun y hy => ?_
    have hwait := l.waits y hy
    cases hm : y.2 with
    | write => simp [admits, List.ne_nil_of_mem hin]
    | read =>
      -- the holders are readers, so the front of the queue is not
      rw [hm, l.admits_read_of_reader ht] at hwait
      cases hwait
  simp [release, settle, hgrant]

end RwLock

end Schemes
