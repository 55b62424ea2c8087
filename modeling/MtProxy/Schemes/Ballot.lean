import Mathlib.Data.List.Count
import Mathlib.Data.List.Induction
import Mathlib.Data.List.Nodup
import Mathlib.Data.List.Perm.Basic
import Mathlib.Order.Nat

/-! Asking many at once. Everybody on a list is asked once, at most `limit` of them at a time, and answers
    in any order, with a vote or without. The tally counts the votes by their keys, and a key with most
    votes wins.

        left  ──▶  asked, at most limit  ──▶  answers         tally   k ↦ votes, the first of them

    Whatever the order, all have answered when nobody is asked any more. -/

namespace Schemes

variable {S A K : Type*}

structure Ballot (S A : Type*) where
  left : List S
  asked : List S
  answers : List (S × Option A)

namespace Ballot

/-- As many more as there is room for are asked. -/
def fill (limit : ℕ) (b : Ballot S A) : Ballot S A :=
  { b with
    left := b.left.drop (limit - b.asked.length)
    asked := b.asked ++ b.left.take (limit - b.asked.length) }

def start (limit : ℕ) (all : List S) : Ballot S A := fill limit ⟨all, [], []⟩

/-- One of those who are asked answers. -/
def step (limit : ℕ) (b : Ballot S A) (x : ℕ × Option A) : Option (Ballot S A) :=
  b.asked[x.1]?.map fun s => fill limit ⟨b.left, b.asked.eraseIdx x.1, b.answers ++ [(s, x.2)]⟩

structure Fair (limit : ℕ) (all : List S) (b : Ballot S A) : Prop where
  once : (b.answers.map (·.1) ++ (b.asked ++ b.left)).Perm all
  few : b.asked.length ≤ limit
  busy : b.asked = [] → b.left = []

section
variable {limit : ℕ} {all : List S} {b b' : Ballot S A}

theorem fill_fair (hlimit : 0 < limit)
    (hperm : (b.answers.map (·.1) ++ (b.asked ++ b.left)).Perm all) (hfew : b.asked.length ≤ limit) :
    Fair limit all (b.fill limit) where
  once := by
    rw [fill]
    dsimp only
    rw [List.append_assoc b.asked, List.take_append_drop]
    exact hperm
  few := by
    rw [fill, List.length_append, List.length_take]
    omega
  busy h := by
    obtain ⟨hasked, htake⟩ := List.append_eq_nil_iff.mp h
    rw [hasked, List.length_nil, Nat.sub_zero, List.take_eq_nil_iff] at htake
    rcases htake with hzero | hleft
    · omega
    · rw [fill, hleft, List.drop_nil]

theorem start_fair (hlimit : 0 < limit) (all : List S) :
    Fair limit all (start limit all : Ballot S A) :=
  fill_fair hlimit (.refl _) (Nat.zero_le limit)

theorem step_fair (hlimit : 0 < limit) (h : Fair limit all b) {x : ℕ × Option A}
    (hstep : step limit b x = some b') : Fair limit all b' := by
  obtain ⟨s, hs, rfl⟩ := Option.map_eq_some_iff.mp hstep
  obtain ⟨hi, rfl⟩ := List.getElem?_eq_some_iff.mp hs
  have herase := List.getElem_cons_eraseIdx_perm hi
  refine fill_fair hlimit ?_ ?_
  · refine List.Perm.trans ?_ h.once
    rw [List.map_append, List.map_singleton, List.append_assoc, List.singleton_append,
      ← List.cons_append]
    exact (herase.append_right _).append_left _
  · exact (List.length_eraseIdx_le b.asked x.1).trans h.few

/-- All have answered when nobody is asked any more. -/
theorem Fair.all_answered (h : Fair limit all b) (hdone : b.asked = []) :
    (b.answers.map (·.1)).Perm all := by
  have honce := h.once
  rwa [hdone, h.busy hdone, List.append_nil, List.append_nil] at honce

end

/-! ### The tally -/

section
variable [DecidableEq K] (key : A → K)

/-- A key, how many votes it has, and the first of them. -/
structure Entry (K A : Type*) where
  key : K
  count : ℕ
  first : A
  deriving DecidableEq

def addVote (a : A) : List (Entry K A) → List (Entry K A)
  | [] => [⟨key a, 1, a⟩]
  | e :: t => if e.key = key a then { e with count := e.count + 1 } :: t else e :: addVote a t

def tally (votes : List A) : List (Entry K A) := votes.foldl (fun t a => addVote key a t) []

/-- `max_by_key`: of those with the highest count the last one. -/
def maxByCount (entries : List (Entry K A)) : Option (Entry K A) :=
  entries.foldl (fun best e =>
    match best with
    | some b => if b.count ≤ e.count then some e else some b
    | none => some e) none

/-- What an entry says about the votes. -/
structure Counts (votes : List A) (e : Entry K A) : Prop where
  count : e.count = votes.countP (fun a => key a = e.key)
  first : votes.find? (fun a => key a = e.key) = some e.first

structure Tallied (votes : List A) (t : List (Entry K A)) : Prop where
  counts : ∀ e ∈ t, Counts key votes e
  covers : ∀ a ∈ votes, ∃ e ∈ t, e.key = key a

variable {key} {votes : List A} {t : List (Entry K A)} {a : A}

theorem addVote_of_absent (h : ∀ e ∈ t, e.key ≠ key a) :
    addVote key a t = t ++ [⟨key a, 1, a⟩] := by
  induction t with
  | nil => rfl
  | cons e t ih =>
    rw [addVote, if_neg (h e List.mem_cons_self), ih (fun e' he' => h e' (List.mem_cons_of_mem e he')),
      List.cons_append]

/-- The first entry of the key gets the vote. -/
theorem addVote_of_present (h : ∃ e ∈ t, e.key = key a) : ∃ before e after, t = before ++ e :: after ∧
    e.key = key a ∧ addVote key a t = before ++ { e with count := e.count + 1 } :: after := by
  induction t with
  | nil =>
    obtain ⟨e, he, -⟩ := h
    exact absurd he List.not_mem_nil
  | cons e t ih =>
    by_cases hkey : e.key = key a
    · exact ⟨[], e, t, rfl, hkey, by rw [addVote, if_pos hkey, List.nil_append]⟩
    · obtain ⟨e', he', hkey'⟩ := h
      have htail : e' ∈ t := by
        rcases List.mem_cons.mp he' with rfl | he'
        · exact absurd hkey' hkey
        · exact he'
      obtain ⟨before, e₁, after, rfl, hkey₁, hadd⟩ := ih ⟨e', htail, hkey'⟩
      exact ⟨e :: before, e₁, after, rfl, hkey₁, by rw [addVote, if_neg hkey, hadd, List.cons_append]⟩

theorem Counts.other {e : Entry K A} (h : Counts key votes e) (hkey : e.key ≠ key a) :
    Counts key (votes ++ [a]) e where
  count := by
    rw [List.countP_append, List.countP_singleton, if_neg (by simpa using Ne.symm hkey), h.count,
      Nat.add_zero]
  first := by rw [List.find?_append, h.first, Option.some_or]

theorem Counts.own {e : Entry K A} (h : Counts key votes e) (hkey : e.key = key a) :
    Counts key (votes ++ [a]) { e with count := e.count + 1 } where
  count := by
    rw [List.countP_append, List.countP_singleton, if_pos (by simpa using hkey.symm), h.count]
  first := by rw [List.find?_append, h.first, Option.some_or]

theorem tallied_tally (votes : List A) :
    Tallied key votes (tally key votes) ∧ ((tally key votes).map (·.key)).Nodup := by
  induction votes using List.reverseRecOn with
  | nil => exact ⟨⟨by simp [tally], by simp⟩, List.nodup_nil⟩
  | append_singleton votes a ih =>
    obtain ⟨⟨hcounts, hcovers⟩, hnodup⟩ := ih
    have htally : tally key (votes ++ [a]) = addVote key a (tally key votes) := by
      rw [tally, List.foldl_append]
      rfl
    rw [htally]
    generalize tally key votes = t at hcounts hcovers hnodup
    by_cases h : ∃ e ∈ t, e.key = key a
    · obtain ⟨before, e, after, rfl, hkey, hadd⟩ := addVote_of_present h
      rw [List.map_append, List.map_cons] at hnodup
      have hother : ∀ e' ∈ before ++ after, e'.key ≠ key a := by
        intro e' he' hkey'
        have hnot := (List.nodup_cons.mp (List.perm_middle.nodup_iff.mp hnodup)).1
        rw [← List.map_append] at hnot
        exact hnot (List.mem_map.mpr ⟨e', he', hkey'.trans hkey.symm⟩)
      rw [hadd]
      refine ⟨⟨fun e' he' => ?_, fun a' ha' => ?_⟩, by rwa [List.map_append, List.map_cons]⟩
      · rcases List.mem_cons.mp (List.perm_middle.mem_iff.mp he') with rfl | he'
        · exact (hcounts e (by simp)).own hkey
        · have hmem : e' ∈ before ++ e :: after :=
            List.perm_middle.mem_iff.mpr (List.mem_cons_of_mem e he')
          exact (hcounts e' hmem).other (hother e' he')
      · rcases List.mem_append.mp ha' with ha' | ha'
        · obtain ⟨e', he', hkey'⟩ := hcovers a' ha'
          rcases List.mem_cons.mp (List.perm_middle.mem_iff.mp he') with rfl | he'
          · exact ⟨_, List.perm_middle.mem_iff.mpr List.mem_cons_self, hkey'⟩
          · exact ⟨e', List.perm_middle.mem_iff.mpr (List.mem_cons_of_mem _ he'), hkey'⟩
        · obtain rfl := List.mem_singleton.mp ha'
          exact ⟨_, List.perm_middle.mem_iff.mpr List.mem_cons_self, hkey⟩
    · have habsent : ∀ e ∈ t, e.key ≠ key a := fun e he hkey => h ⟨e, he, hkey⟩
      have hnone : ∀ a' ∈ votes, key a' ≠ key a := by
        intro a' ha' hkey
        obtain ⟨e, he, hkey'⟩ := hcovers a' ha'
        exact habsent e he (hkey'.trans hkey)
      rw [addVote_of_absent habsent]
      refine ⟨⟨fun e he => ?_, fun a' ha' => ?_⟩, ?_⟩
      · rcases List.mem_append.mp he with he | he
        · exact (hcounts e he).other (habsent e he)
        · obtain rfl := List.mem_singleton.mp he
          have hcount : votes.countP (fun a' => key a' = key a) = 0 := by
            simpa [List.countP_eq_zero] using hnone
          have hfind : votes.find? (fun a' => key a' = key a) = none := by
            simpa [List.find?_eq_none] using hnone
          exact ⟨by simp [hcount], by simp [List.find?_append, hfind]⟩
      · rcases List.mem_append.mp ha' with ha' | ha'
        · obtain ⟨e, he, hkey⟩ := hcovers a' ha'
          exact ⟨e, List.mem_append_left _ he, hkey⟩
        · obtain rfl := List.mem_singleton.mp ha'
          exact ⟨_, List.mem_append_right t (List.mem_singleton_self _), rfl⟩
      · rw [List.map_append, List.nodup_append]
        refine ⟨hnodup, List.nodup_singleton _, fun k hk k' hk' heq => ?_⟩
        obtain ⟨e, he, rfl⟩ := List.mem_map.mp hk
        obtain rfl := List.mem_singleton.mp hk'
        exact habsent e he heq

omit [DecidableEq K] in
theorem maxByCount_spec (entries : List (Entry K A)) :
    (maxByCount entries = none → entries = []) ∧
      ∀ e, maxByCount entries = some e → e ∈ entries ∧ ∀ e' ∈ entries, e'.count ≤ e.count := by
  induction entries using List.reverseRecOn with
  | nil => exact ⟨fun _ => rfl, fun e he => by cases he⟩
  | append_singleton entries a ih =>
    have hmax : maxByCount (entries ++ [a]) = match maxByCount entries with
        | some b => if b.count ≤ a.count then some a else some b
        | none => some a := by
      rw [maxByCount, List.foldl_append]
      rfl
    rw [hmax]
    cases hbest : maxByCount entries with
    | none =>
      obtain rfl := ih.1 hbest
      refine ⟨fun h => absurd h (Option.some_ne_none _), fun e he => ?_⟩
      obtain rfl := Option.some.inj he
      simp
    | some b =>
      obtain ⟨hb, hle⟩ := ih.2 b hbest
      dsimp only
      split
      · rename_i hba
        refine ⟨fun h => absurd h (Option.some_ne_none _), fun e he => ?_⟩
        obtain rfl := Option.some.inj he
        refine ⟨by simp, fun e' he' => ?_⟩
        rcases List.mem_append.mp he' with he' | he'
        · exact (hle e' he').trans hba
        · rw [List.mem_singleton.mp he']
      · rename_i hba
        refine ⟨fun h => absurd h (Option.some_ne_none _), fun e he => ?_⟩
        obtain rfl := Option.some.inj he
        refine ⟨List.mem_append_left _ hb, fun e' he' => ?_⟩
        rcases List.mem_append.mp he' with he' | he'
        · exact hle e' he'
        · rw [List.mem_singleton.mp he']
          exact Nat.le_of_not_le hba

/-- In whatever order the entries are looked at, the winner has most votes, and its value is that of the
    first of them. -/
theorem winner_spec {order : List (Entry K A)} (horder : order.Perm (tally key votes)) :
    (maxByCount order = none ↔ votes = []) ∧ ∀ e, maxByCount order = some e →
      votes.find? (fun a => key a = e.key) = some e.first ∧
        ∀ k, votes.countP (fun a => key a = k) ≤ votes.countP (fun a => key a = e.key) := by
  obtain ⟨⟨hcounts, hcovers⟩, -⟩ := @tallied_tally A K _ key votes
  obtain ⟨hnone, hsome⟩ := maxByCount_spec order
  refine ⟨⟨fun h => ?_, fun h => ?_⟩, fun e he => ?_⟩
  · have htally : tally key votes = [] := List.nil_perm.mp (hnone h ▸ horder)
    rw [List.eq_nil_iff_forall_not_mem]
    intro a ha
    obtain ⟨e, he, -⟩ := hcovers a ha
    rw [htally] at he
    exact List.not_mem_nil he
  · subst h
    rw [List.perm_nil.mp horder]
    rfl
  · obtain ⟨hmem, hle⟩ := hsome e he
    have hcount := hcounts e (horder.mem_iff.mp hmem)
    refine ⟨hcount.first, fun k => ?_⟩
    by_cases hk : ∃ a ∈ votes, key a = k
    · obtain ⟨a, ha, rfl⟩ := hk
      obtain ⟨e', he', hkey⟩ := hcovers a ha
      rw [← hkey, ← (hcounts e' he').count, ← hcount.count]
      exact hle e' (horder.mem_iff.mpr he')
    · have hzero : votes.countP (fun a => key a = k) = 0 := by
        simpa [List.countP_eq_zero] using fun a ha hak => hk ⟨a, ha, hak⟩
      rw [hzero]
      exact Nat.zero_le _

end

end Ballot

end Schemes
