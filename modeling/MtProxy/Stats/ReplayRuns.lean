import MtProxy.Stats.ReplayExact

/-! Runs of the replay checker by their insertions: a key that was inserted is recognized for the
    length of the window, and two runs that differ by some operations give the same answers as long
    as the additional operations stay away from the keys of the others.

        common only      ── a ────── b ──── c ──▶      insertions of a, b, c
        with additions   ── a ─ x ── b ─ y ─ c ──▶      the same and some of x, y

    `Exact` collects what holds of a checker that was never over capacity; `Alike` relates the two
    runs. -/

namespace MtProxy.Stats
open Schemes ReplayShard ReplayChecker

/-! ### One run -/

section
variable (hash : Key → UInt64)

/-- The key that an operation inserts. -/
def insertedKey (c : ReplayChecker) : Op → Option Key
  | .checkAndAdd key now => if (c.checkAndAdd hash key now).1 then none else some key
  | .addOnly key _ => some key
  | .cleanup _ _ => none

/-- What an operation adds to the insertions of a shard. -/
def addedTo (c : ReplayChecker) (op : Op) (i : Fin numShards) : List (Instant × Key) :=
  match insertedKey hash c op with
  | some key => if getShardIdx hash key = i then [(op.now, key)] else []
  | none => []

end

/-- What holds of a checker as long as no shard is over capacity. -/
structure Exact (window cap : ℕ) (clock : Instant) (c : ReplayChecker) : Prop where
  sound : AllSound window cap clock c
  complete : ∀ i, Complete window clock (c.shards i)
  ordered : ∀ i, (c.shards i).inserted.Pairwise (fun a b => b.1 ≤ a.1)
  past : ∀ i, ∀ p ∈ (c.shards i).inserted, p.1 ≤ clock

section
variable {hash : Key → UInt64} {window cap : ℕ} {clock clock' now : Instant} {c : ReplayChecker}
  {ops : List Op}

theorem mem_addedTo {op : Op} {i : Fin numShards} {p : Instant × Key} :
    p ∈ addedTo hash c op i ↔
      p.1 = op.now ∧ insertedKey hash c op = some p.2 ∧ getShardIdx hash p.2 = i := by
  unfold addedTo
  cases hkey : insertedKey hash c op with
  | none => simp
  | some key =>
    simp only [Option.some.injEq]
    split_ifs with hi
    · rw [List.mem_singleton, Prod.ext_iff]
      refine ⟨fun h => ⟨h.1, h.2.symm, h.2 ▸ hi⟩, fun h => ⟨h.1, h.2.1.symm⟩⟩
    · refine ⟨fun h => absurd h List.not_mem_nil, fun h => absurd ?_ hi⟩
      rw [h.2.1]
      exact h.2.2

theorem call_inserted (c : ReplayChecker) (op : Op) (i : Fin numShards) :
    ((call hash c op).2.shards i).inserted = addedTo hash c op i ++ (c.shards i).inserted := by
  cases op with
  | checkAndAdd key now =>
    have hfst : (c.checkAndAdd hash key now).1 =
      ((c.shards (getShardIdx hash key)).check key now c.window).1 := rfl
    simp only [call, addedTo, insertedKey, checkAndAdd_shards, hfst]
    by_cases hi : i = getShardIdx hash key
    · subst hi
      rw [Function.update_self]
      split_ifs with hfound
      · exact check_inserted _ key now c.window
      · simp only [if_true, add_inserted, check_inserted]
        rfl
    · rw [Function.update_of_ne hi]
      split_ifs with hfound
      · rfl
      · simp only [if_neg (Ne.symm hi), List.nil_append]
  | addOnly key now =>
    simp only [call, addOnly, addedTo, insertedKey]
    by_cases hi : i = getShardIdx hash key
    · subst hi
      rw [Function.update_self, if_pos rfl]
      exact add_inserted _ key now c.window
    · rw [Function.update_of_ne hi, if_neg (Ne.symm hi)]
      rfl
  | cleanup idx now =>
    simp only [call, cleanupShard, addedTo, insertedKey, List.nil_append]
    by_cases hi : i = idx
    · subst hi
      rw [Function.update_self]
      exact cleanup_inserted _ now c.window
    · rw [Function.update_of_ne hi]

/-- Only an operation with a key inserts one, and that one. -/
theorem insertedKey_some {op : Op} {key : Key} (h : insertedKey hash c op = some key) :
    op.key = some key := by
  cases op with
  | checkAndAdd key' now =>
    simp only [insertedKey] at h
    split_ifs at h
    exact h
  | addOnly key' now => exact h
  | cleanup idx now => exact absurd h (by simp [insertedKey])

theorem addedTo_pairwise (c : ReplayChecker) (op : Op) (i : Fin numShards) :
    (addedTo hash c op i).Pairwise (fun a b => b.1 ≤ a.1) := by
  unfold addedTo
  split
  · split_ifs
    · exact List.pairwise_singleton _ _
    · exact List.Pairwise.nil
  · exact List.Pairwise.nil

theorem Exact.mono (h : Exact window cap clock c) (hle : clock ≤ clock') :
    Exact window cap clock' c :=
  ⟨⟨h.sound.1, fun i => ⟨(h.sound.2 i).1.mono hle, (h.sound.2 i).2⟩⟩,
    fun i => (h.complete i).mono hle, h.ordered, fun i p hp => (h.past i p hp).trans hle⟩

theorem exact_new (totalCapacity window : ℕ) :
    Exact window (max (totalCapacity / numShards) 1) 0 (ReplayChecker.new totalCapacity window) :=
  ⟨allSound_new totalCapacity window, complete_new totalCapacity window,
    fun _ => List.Pairwise.nil, fun _ _ hp => absurd hp List.not_mem_nil⟩

theorem exact_call {op : Op} (h : Exact window cap clock c)
    (hrep : window ≤ op.now) (hclock : op.key ≠ none → clock ≤ op.now)
    (hcap : op.key ≠ none → ∀ i,
      (liveKeys window op.now ((call hash c op).2.shards i).inserted).card ≤ cap) :
    Exact window cap (max clock op.now) (call hash c op).2 := by
  have hadded : ∀ i, ∀ p ∈ addedTo hash c op i, p.1 = op.now ∧ clock ≤ op.now := fun i p hp => by
    obtain ⟨hnow, hkey, -⟩ := mem_addedTo.mp hp
    exact ⟨hnow, hclock (by simp [insertedKey_some hkey])⟩
  refine ⟨sound_call h.sound hclock, complete_call h.sound h.complete hrep hclock hcap,
    fun i => ?_, fun i p hp => ?_⟩
  · rw [call_inserted]
    refine List.pairwise_append.mpr ⟨addedTo_pairwise c op i, h.ordered i, fun p hp q hq => ?_⟩
    obtain ⟨hnow, hle⟩ := hadded i p hp
    rw [hnow]
    exact (h.past i q hq).trans hle
  · rw [call_inserted] at hp
    rcases List.mem_append.mp hp with hp | hp
    · rw [(hadded i p hp).1]
      exact le_max_right _ _
    · exact (h.past i p hp).trans (le_max_left _ _)

/-- In a list of insertions with the latest first, no insertion of a key is after its last one. -/
theorem le_lastInsertion {k : Key} {t : Instant} {inserted : List (Instant × Key)}
    (hsorted : inserted.Pairwise (fun a b => b.1 ≤ a.1)) (hmem : (t, k) ∈ inserted) :
    ∃ t', lastInsertion inserted k = some t' ∧ t ≤ t' := by
  induction inserted with
  | nil => cases hmem
  | cons first inserted ih =>
    obtain ⟨now, key⟩ := first
    obtain ⟨hfirst, hrest⟩ := List.pairwise_cons.mp hsorted
    rw [lastInsertion_cons]
    by_cases hkey : key = k
    · rw [if_pos hkey]
      rcases List.mem_cons.mp hmem with heq | hmem
      · exact ⟨now, rfl, (Prod.ext_iff.mp heq).1.le⟩
      · exact ⟨now, rfl, hfirst _ hmem⟩
    · rw [if_neg hkey]
      rcases List.mem_cons.mp hmem with heq | hmem
      · exact absurd (Prod.ext_iff.mp heq).2.symm hkey
      · exact ih hrest hmem

/-- `check_and_add` answers whether some insertion of the key is within the window. -/
theorem Exact.checkAndAdd_iff (h : Exact window cap clock c) (hrep : window ≤ now)
    (hclock : clock ≤ now) (key : Key) : (c.checkAndAdd hash key now).1 = true ↔
      ∃ t, (t, key) ∈ insertions hash c key ∧ Live window now t := by
  constructor
  · intro hfound
    obtain ⟨t, hlast, hlive⟩ := checkAndAdd_sound h.sound hrep hfound
    exact ⟨t, lastInsertion_mem hlast, hlive⟩
  · rintro ⟨t, hmem, hlive⟩
    obtain ⟨t', hlast, hle⟩ := le_lastInsertion (h.ordered _) hmem
    exact checkAndAdd_complete h.sound h.complete hrep hclock hlast
      (hlive.later hle)

theorem exact_run (htimely : Timely window ops) (hstart : Exact window cap 0 c)
    (hcap : WithinCapacity hash cap window c ops) :
    ∀ pre, pre <+: ops → Exact window cap (latest pre) (after (call hash) c pre) := by
  refine after_induct (I := fun pre c => Exact window cap (latest pre) c) hstart ?_
  rintro pre op ⟨post, hops⟩ hexact
  rw [List.append_assoc] at hops
  rw [latest_concat]
  refine exact_call hexact (htimely.representable op (by simp [← hops]))
    (htimely.latest_le hops.symm) fun hkey => ?_
  rw [← after_concat]
  exact hcap pre op post hops.symm hkey

/-- Insertions are never taken back. -/
theorem mem_inserted_after {i : Fin numShards} {p : Instant × Key}
    (h : p ∈ (c.shards i).inserted) : ∀ ops : List Op,
      p ∈ ((after (call hash) c ops).shards i).inserted := by
  intro ops
  induction ops using List.reverseRecOn with
  | nil => exact h
  | append_singleton ops op ih =>
    rw [after_concat, call_inserted]
    exact List.mem_append_right _ ih

/-- A key that was let through is recognized for the length of the window. -/
theorem checkAndAdd_again (htimely : Timely window ops)
    (hstart : Exact window cap 0 c) (hcap : WithinCapacity hash cap window c ops)
    {pre mid post : List Op} {key : Key} {t₁ t₂ : Instant}
    (hops : ops = pre ++ .checkAndAdd key t₁ :: mid ++ .checkAndAdd key t₂ :: post)
    (hfirst : ((after (call hash) c pre).checkAndAdd hash key t₁).1 = false)
    (hlive : Live window t₂ t₁) :
    ((after (call hash) c (pre ++ .checkAndAdd key t₁ :: mid)).checkAndAdd hash key t₂).1 = true := by
  have hexact := exact_run htimely hstart hcap (pre ++ .checkAndAdd key t₁ :: mid)
    ⟨.checkAndAdd key t₂ :: post, hops.symm⟩
  refine (hexact.checkAndAdd_iff (htimely.representable (.checkAndAdd key t₂) (by simp [hops]))
    (htimely.latest_le hops (by simp [Op.key])) key).mpr ⟨t₁, ?_, hlive⟩
  rw [List.append_cons, after_append, after_concat]
  refine mem_inserted_after ?_ mid
  rw [call_inserted]
  exact List.mem_append_left _ (mem_addedTo.mpr ⟨rfl, by simp [insertedKey, hfirst], rfl⟩)

end

/-! ### Two runs -/

/-- A run in which some operations are marked as common to two runs, and the others are only in
    this one. -/
abbrev Marked (α : Type) := List (Bool × α)

def everything {α : Type} (run : Marked α) : List α := run.map Prod.snd

def common {α : Type} (run : Marked α) : List α := (run.filter Prod.fst).map Prod.snd

/-- Both checkers are exact. The second one has the insertions of the first, and besides them only
    those of the additional operations. -/
structure Alike (window cap : ℕ) (clock : Instant) (run : Marked Op) (a b : ReplayChecker) : Prop where
  first : Exact window cap clock a
  second : Exact window cap clock b
  subset : ∀ i, (a.shards i).inserted ⊆ (b.shards i).inserted
  added : ∀ i, ∀ p ∈ (b.shards i).inserted, p ∈ (a.shards i).inserted ∨
    ∃ op, (false, op) ∈ run ∧ op.key = some p.2 ∧ op.now = p.1

/-- No additional operation has the key of a later common check that reads a time within the window
    after it. -/
def KeysApart (window : ℕ) (run : Marked Op) : Prop :=
  ∀ pre key now post, run = pre ++ (true, .checkAndAdd key now) :: post →
    ∀ op, (false, op) ∈ pre → op.key = some key → ¬ Live window now op.now

section
variable {hash : Key → UInt64} {window cap : ℕ} {clock now : Instant} {a b : ReplayChecker}
  {run : Marked Op}

/-- `KeysApart` by pairs. -/
theorem keysApart_of_pairwise (h : run.Pairwise (fun x y => x.1 = false → x.2.key ≠ none →
    x.2.key = y.2.key → ¬ Live window y.2.now x.2.now)) : KeysApart window run := by
  rintro pre key now post rfl op hop hkey
  exact (List.pairwise_append.mp h).2.2 (false, op) hop (true, .checkAndAdd key now)
    List.mem_cons_self rfl (by simp [hkey]) hkey

theorem checkAndAdd_eq (h : Alike window cap clock run a b) (hrep : window ≤ now)
    (hclock : clock ≤ now) {key : Key}
    (hapart : ∀ op, (false, op) ∈ run → op.key = some key → ¬ Live window now op.now) :
    (a.checkAndAdd hash key now).1 = (b.checkAndAdd hash key now).1 := by
  rw [Bool.eq_iff_iff, h.first.checkAndAdd_iff hrep hclock,
    h.second.checkAndAdd_iff hrep hclock]
  constructor
  · rintro ⟨t, hmem, hlive⟩
    exact ⟨t, h.subset _ hmem, hlive⟩
  · rintro ⟨t, hmem, hlive⟩
    rcases h.added _ _ hmem with hold | ⟨op, hop, hkey, htime⟩
    · exact ⟨t, hold, hlive⟩
    · exact absurd (htime ▸ hlive) (hapart op hop hkey)

theorem liveKeys_subset {l m : List (Instant × Key)} (h : l ⊆ m) (window : ℕ) (now : Instant) :
    liveKeys window now l ⊆ liveKeys window now m := by
  intro k hk
  obtain ⟨t, hmem, hlive⟩ := mem_liveKeys.mp hk
  exact mem_liveKeys.mpr ⟨t, h hmem, hlive⟩

/-- A common operation that inserts the same key in both runs, or none. -/
theorem alike_common {op : Op} (h : Alike window cap clock run a b)
    (hsame : insertedKey hash a op = insertedKey hash b op)
    (hrep : window ≤ op.now) (hclock : op.key ≠ none → clock ≤ op.now)
    (hcap : op.key ≠ none → ∀ i,
      (liveKeys window op.now ((call hash b op).2.shards i).inserted).card ≤ cap) :
    Alike window cap (max clock op.now) (run ++ [(true, op)]) (call hash a op).2
      (call hash b op).2 := by
  have hadded : ∀ i, addedTo hash a op i = addedTo hash b op i := fun i => by
    unfold addedTo
    rw [hsame]
  have hsubset : ∀ i, ((call hash a op).2.shards i).inserted ⊆
      ((call hash b op).2.shards i).inserted := fun i => by
    rw [call_inserted, call_inserted, hadded]
    exact List.append_subset.mpr ⟨List.subset_append_left _ _,
      List.subset_append_of_subset_right _ (h.subset i)⟩
  refine ⟨exact_call h.first hrep hclock fun hkey i => ?_, exact_call h.second hrep hclock hcap,
    hsubset, fun i p hp => ?_⟩
  · exact (Finset.card_le_card (liveKeys_subset (hsubset i) window op.now)).trans (hcap hkey i)
  · rw [call_inserted] at hp ⊢
    rcases List.mem_append.mp hp with hp | hp
    · rw [hadded]
      exact .inl (List.mem_append_left _ hp)
    · rcases h.added i p hp with hold | ⟨o, ho, hkey, htime⟩
      · exact .inl (List.mem_append_right _ hold)
      · exact .inr ⟨o, List.mem_append_left _ ho, hkey, htime⟩

/-- An operation of the second run only. -/
theorem alike_added {op : Op} (h : Alike window cap clock run a b)
    (hrep : window ≤ op.now) (hclock : op.key ≠ none → clock ≤ op.now)
    (hcap : op.key ≠ none → ∀ i,
      (liveKeys window op.now ((call hash b op).2.shards i).inserted).card ≤ cap) :
    Alike window cap (max clock op.now) (run ++ [(false, op)]) a (call hash b op).2 := by
  refine ⟨h.first.mono (le_max_left _ _), exact_call h.second hrep hclock hcap, fun i => ?_,
    fun i p hp => ?_⟩
  · rw [call_inserted]
    exact List.subset_append_of_subset_right _ (h.subset i)
  · rw [call_inserted] at hp
    rcases List.mem_append.mp hp with hp | hp
    · obtain ⟨htime, hkey, -⟩ := mem_addedTo.mp hp
      exact .inr ⟨op, by simp, insertedKey_some hkey, htime.symm⟩
    · rcases h.added i p hp with hold | ⟨o, ho, hkey, htime⟩
      · exact .inl hold
      · exact .inr ⟨o, List.mem_append_left _ ho, hkey, htime⟩

theorem everything_concat {α : Type} (run : Marked α) (m : Bool) (x : α) :
    everything (run ++ [(m, x)]) = everything run ++ [x] := by simp [everything]

theorem common_concat {α : Type} (run : Marked α) (m : Bool) (x : α) :
    common (run ++ [(m, x)]) = if m then common run ++ [x] else common run := by
  cases m <;> simp [common]

theorem alike_run {c : ReplayChecker} (htimely : Timely window (everything run))
    (hstart : Exact window cap 0 c) (hcap : WithinCapacity hash cap window c (everything run))
    (hapart : KeysApart window run) : ∀ pre, pre <+: run →
      Alike window cap (latest (everything pre)) pre (after (call hash) c (common pre))
        (after (call hash) c (everything pre)) := by
  intro pre
  induction pre using List.reverseRecOn with
  | nil => exact fun _ => ⟨hstart, hstart, fun _ => List.Subset.refl _, fun _ _ hp => .inl hp⟩
  | append_singleton pre mop ih =>
    obtain ⟨m, op⟩ := mop
    rintro ⟨post, hrun⟩
    have hall : everything run = everything pre ++ op :: everything post := by
      simp [← hrun, everything]
    have halike := ih ⟨(m, op) :: post, by rw [← hrun]; simp⟩
    have hrep : window ≤ op.now := htimely.representable op (by simp [hall])
    have hclock := htimely.latest_le hall
    have hroom : op.key ≠ none → ∀ i, (liveKeys window op.now ((call hash
        (after (call hash) c (everything pre)) op).2.shards i).inserted).card ≤ cap := by
      intro hkey
      rw [← after_concat]
      exact hcap _ op _ hall hkey
    rw [everything_concat, common_concat, latest_concat, after_concat]
    cases m with
    | false => exact alike_added halike hrep hclock hroom
    | true =>
      rw [if_pos rfl, after_concat]
      refine alike_common halike ?_ hrep hclock hroom
      cases op with
      | checkAndAdd key now =>
        have heq : ((after (call hash) c (common pre)).checkAndAdd hash key now).1 =
            ((after (call hash) c (everything pre)).checkAndAdd hash key now).1 :=
          checkAndAdd_eq halike hrep (hclock (by simp [Op.key]))
            (hapart pre key now post (by simp [← hrun]))
        simp only [insertedKey]
        rw [heq]
      | addOnly key now => rfl
      | cleanup idx now => rfl

/-- A common check gets the same answer in both runs. -/
theorem checkAndAdd_alike {c : ReplayChecker} (htimely : Timely window (everything run))
    (hstart : Exact window cap 0 c)
    (hcap : WithinCapacity hash cap window c (everything run)) (hapart : KeysApart window run)
    {pre post : Marked Op} {key : Key} (hrun : run = pre ++ (true, .checkAndAdd key now) :: post) :
    ((after (call hash) c (common pre)).checkAndAdd hash key now).1 =
      ((after (call hash) c (everything pre)).checkAndAdd hash key now).1 := by
  have hall : everything run = everything pre ++ .checkAndAdd key now :: everything post := by
    simp [hrun, everything]
  exact checkAndAdd_eq (alike_run htimely hstart hcap hapart pre ⟨_, hrun.symm⟩)
    (htimely.representable (.checkAndAdd key now) (by simp [hall]))
    (htimely.latest_le hall (by simp [Op.key])) (hapart pre key now post hrun)

end

end MtProxy.Stats
