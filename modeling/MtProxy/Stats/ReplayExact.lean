import MtProxy.Stats.Replay

/-! The replay checker over every sequence of operations. What `check_and_add` answers is determined
    by the insertions so far:

        true   ⇒  the key was inserted within the window
        true   ⇔  its last insertion is within the window, while no shard is over capacity

    The first is kept by every step; the second needs that a cache is never full of younger
    entries when a new key comes. -/

namespace MtProxy.Stats
open Schemes ReplayShard

/-! ### Cache and queue -/

/-- The queue is in order of time and of sequence numbers, and has the insertion of every entry of
    the cache. -/
structure Linked (cache : LruCache Key ReplayEntry) (queue : List Queued) : Prop where
  sorted : queue.Pairwise (fun a b => a.time ≤ b.time)
  seqs : queue.Pairwise (fun a b => a.seq < b.seq)
  cached : ∀ k e, cache.peek k = some e → ⟨e.seenAt, k, e.seq⟩ ∈ queue

theorem peek_dropCurrent {cache : LruCache Key ReplayEntry} {q : Queued} {k : Key}
    {e : ReplayEntry} : (dropCurrent cache q).peek k = some e ↔
      cache.peek k = some e ∧ ¬ (k = q.key ∧ e.seq = q.seq) := by
  unfold dropCurrent
  cases hq : cache.peek q.key with
  | none =>
    refine ⟨fun h => ⟨h, ?_⟩, fun h => h.1⟩
    rintro ⟨rfl, -⟩
    exact absurd (hq.symm.trans h) (by simp)
  | some e' =>
    simp only
    split_ifs with hseq
    · rw [LruCache.peek_pop]
      refine and_congr_right fun h => not_congr ⟨fun hk => ⟨hk, ?_⟩, fun hk => hk.1⟩
      subst hk
      rw [Option.some.inj (h.symm.trans hq), hseq]
    · refine ⟨fun h => ⟨h, ?_⟩, fun h => h.1⟩
      rintro ⟨rfl, hk⟩
      exact hseq (Option.some.inj (hq.symm.trans h) ▸ hk)

theorem linked_dropCurrent {cache : LruCache Key ReplayEntry} {q : Queued} {queue : List Queued}
    (h : Linked cache (q :: queue)) : Linked (dropCurrent cache q) queue := by
  refine ⟨(List.pairwise_cons.mp h.sorted).2, (List.pairwise_cons.mp h.seqs).2, fun k e hk => ?_⟩
  obtain ⟨hpeek, hne⟩ := peek_dropCurrent.mp hk
  rcases List.mem_cons.mp (h.cached k e hpeek) with heq | hmem
  · subst heq
    exact absurd ⟨rfl, rfl⟩ hne
  · exact hmem

/-- A cleanup takes off the queue what is older than the cutoff, and leaves in the cache exactly the
    entries that are not. -/
theorem cleanupLoop_spec (cutoff : Instant) (cache : LruCache Key ReplayEntry)
    (queue : List Queued) (h : Linked cache queue) :
    Linked (cleanupLoop cutoff cache queue).1 (cleanupLoop cutoff cache queue).2 ∧
      (cleanupLoop cutoff cache queue).2 <:+ queue ∧
      (cleanupLoop cutoff cache queue).1.cap = cache.cap ∧
      ∀ k e, (cleanupLoop cutoff cache queue).1.peek k = some e ↔
        cache.peek k = some e ∧ cutoff ≤ e.seenAt := by
  induction queue generalizing cache with
  | nil =>
    refine ⟨h, List.suffix_refl _, rfl, fun k e => ⟨fun hk => ⟨hk, ?_⟩, fun hk => hk.1⟩⟩
    exact absurd (h.cached k e hk) (by simp)
  | cons q queue ih =>
    rw [cleanupLoop]
    have hfirst := (List.pairwise_cons.mp h.sorted).1
    have hseq := (List.pairwise_cons.mp h.seqs).1
    split_ifs with hq
    · refine ⟨h, List.suffix_refl _, rfl, fun k e => ⟨fun hk => ⟨hk, ?_⟩, fun hk => hk.1⟩⟩
      rcases List.mem_cons.mp (h.cached k e hk) with heq | hmem
      · subst heq
        exact hq
      · exact le_trans hq (hfirst _ hmem)
    · obtain ⟨hlinked, hsuffix, hcap, hpeek⟩ :=
        ih (dropCurrent cache q) (linked_dropCurrent h)
      have hcap' : (dropCurrent cache q).cap = cache.cap := by
        unfold dropCurrent
        split
        · split_ifs <;> rfl
        · rfl
      refine ⟨hlinked, hsuffix.trans (List.suffix_cons q queue), hcap.trans hcap', fun k e => ?_⟩
      rw [hpeek, peek_dropCurrent]
      refine ⟨fun hk => ⟨hk.1.1, hk.2⟩, fun hk => ⟨⟨hk.1, ?_⟩, hk.2⟩⟩
      -- the dropped entry is the one of `q`, which is too old
      rintro ⟨rfl, heq⟩
      rcases List.mem_cons.mp (h.cached _ e hk.1) with hqe | hmem
      · rw [← hqe] at hq
        exact hq hk.2
      · exact absurd (hseq _ hmem) (by simp [heq])

/-! ### One shard -/

/-- When `k` was inserted last. -/
def lastInsertion (inserted : List (Instant × Key)) (k : Key) : Option Instant :=
  (inserted.find? (fun p => decide (p.2 = k))).map Prod.fst

theorem lastInsertion_cons (now : Instant) (key k : Key) (inserted : List (Instant × Key)) :
    lastInsertion ((now, key) :: inserted) k =
      if key = k then some now else lastInsertion inserted k := by
  unfold lastInsertion
  by_cases h : key = k <;> simp [h]

theorem lastInsertion_mem {inserted : List (Instant × Key)} {k : Key} {t : Instant}
    (h : lastInsertion inserted k = some t) : (t, k) ∈ inserted := by
  obtain ⟨⟨t', k'⟩, hfind, rfl⟩ := Option.map_eq_some_iff.mp h
  have hk := List.find?_some hfind
  obtain rfl : k' = k := by simpa using hk
  exact List.mem_of_find?_eq_some hfind

/-- No operation so far was later than `clock`, and every entry of the cache is the last insertion
    of its key. -/
structure Sound (clock : Instant) (s : ReplayShard) : Prop where
  linked : Linked s.cache s.queue
  past : ∀ q ∈ s.queue, q.time ≤ clock ∧ q.seq ≤ s.seqCounter
  last : ∀ k e, s.cache.peek k = some e → lastInsertion s.inserted k = some e.seenAt

/-- An insertion at `t` is not too old at `now`. With a window of zero nothing gets too old. -/
def Live (window : ℕ) (now t : Instant) : Prop := window = 0 ∨ now ≤ t + window

instance (window : ℕ) (now t : Instant) : Decidable (Live window now t) :=
  inferInstanceAs (Decidable (_ ∨ _))

theorem live_iff {window : ℕ} (hw : 0 < window) {now t : Instant} :
    Live window now t ↔ now ≤ t + window := or_iff_right (Nat.pos_iff_ne_zero.mp hw)

theorem live_self (window : ℕ) (now : Instant) : Live window now now :=
  .inr (Nat.le_add_right now window)

theorem Live.earlier {window : ℕ} {now now' t : Instant} (h : Live window now' t)
    (hle : now ≤ now') : Live window now t := h.imp id (hle.trans ·)

theorem Live.later {window : ℕ} {now t t' : Instant} (h : Live window now t) (hle : t ≤ t') :
    Live window now t' := h.imp id (·.trans (Nat.add_le_add_right hle window))

/-- A last insertion that is not too old at `clock` is in the cache. -/
def Complete (window clock : ℕ) (s : ReplayShard) : Prop :=
  ∀ k t, lastInsertion s.inserted k = some t → Live window clock t →
    ∃ e, s.cache.peek k = some e ∧ e.seenAt = t

/-- The keys with an insertion no older than the window. -/
def liveKeys (window : ℕ) (now : Instant) (inserted : List (Instant × Key)) : Finset Key :=
  ((inserted.filter (fun p => decide (Live window now p.1))).map Prod.snd).toFinset

theorem mem_liveKeys {window : ℕ} {now : Instant} {inserted : List (Instant × Key)} {k : Key} :
    k ∈ liveKeys window now inserted ↔ ∃ t, (t, k) ∈ inserted ∧ Live window now t := by
  simp [liveKeys]

section
variable {window : ℕ} {clock clock' now : Instant} {s : ReplayShard} {key : Key}

theorem Sound.mono (h : Sound clock s) (hle : clock ≤ clock') : Sound clock' s :=
  ⟨h.linked, fun q hq => ⟨(h.past q hq).1.trans hle, (h.past q hq).2⟩, h.last⟩

theorem Complete.mono (h : Complete window clock s) (hle : clock ≤ clock') :
    Complete window clock' s :=
  fun k t hk ht => h k t hk (ht.earlier hle)

theorem cleanup_inserted (s : ReplayShard) (now : Instant) (window : ℕ) :
    (s.cleanup now window).inserted = s.inserted := by
  unfold cleanup
  split_ifs <;> rfl

theorem sound_cleanup (h : Sound clock s) (now : Instant) (window : ℕ) :
    Sound clock (s.cleanup now window) ∧ (s.cleanup now window).cache.cap = s.cache.cap := by
  unfold cleanup
  split_ifs with hw
  · exact ⟨h, rfl⟩
  · obtain ⟨hlinked, hsuffix, hcap, hpeek⟩ :=
      cleanupLoop_spec ((checkedSub now window).getD now) s.cache s.queue h.linked
    exact ⟨⟨hlinked, fun q hq => h.past q (hsuffix.subset hq),
      fun k e hk => h.last k e ((hpeek k e).mp hk).1⟩, hcap⟩

theorem peek_cleanup (h : Linked s.cache s.queue) (hrep : window ≤ now) (k : Key) (e : ReplayEntry) :
    (s.cleanup now window).cache.peek k = some e ↔
      s.cache.peek k = some e ∧ Live window now e.seenAt := by
  rcases Nat.eq_zero_or_pos window with hw | hw
  · rw [cleanup, if_pos hw]
    exact (and_iff_left (.inl hw)).symm
  have hcut : (checkedSub now window).getD now = now - window := by
    rw [checkedSub, if_pos hrep]
    rfl
  rw [cleanup, if_neg (by omega)]
  simp only [hcut, (cleanupLoop_spec (now - window) s.cache s.queue h).2.2.2 k e]
  exact and_congr_right fun _ => Nat.sub_le_iff_le_add.trans (live_iff hw).symm

theorem complete_cleanup (hs : Sound clock s) (h : Complete window clock s) (hrep : window ≤ now)
    (hclock : clock ≤ clock') (hnow : now ≤ clock') :
    Complete window clock' (s.cleanup now window) := by
  intro k t hk ht
  rw [cleanup_inserted] at hk
  obtain ⟨e, he, rfl⟩ := h k t hk (ht.earlier hclock)
  exact ⟨e, (peek_cleanup hs.linked hrep k e).mpr ⟨he, ht.earlier hnow⟩, rfl⟩

/-! ### Check and add -/

theorem check_fst (h : Linked s.cache s.queue) (hrep : window ≤ now) (key : Key) :
    (s.check key now window).1 = true ↔
      ∃ e, s.cache.peek key = some e ∧ Live window now e.seenAt := by
  rw [check]
  simp only [LruCache.get_fst, Option.isSome_iff_exists, peek_cleanup h hrep]

theorem sound_check (h : Sound clock s) (key : Key) (now : Instant) (window : ℕ) :
    Sound clock (s.check key now window).2 ∧ (s.check key now window).2.cache.cap = s.cache.cap := by
  obtain ⟨hc, hcap⟩ := sound_cleanup h now window
  refine ⟨⟨⟨hc.linked.sorted, hc.linked.seqs, fun k e hk => ?_⟩, hc.past, fun k e hk => ?_⟩, ?_⟩
  · exact hc.linked.cached k e (LruCache.peek_get.mp hk)
  · exact hc.last k e (LruCache.peek_get.mp hk)
  · exact (LruCache.cap_get _ key).trans hcap

theorem complete_check (hs : Sound clock s) (h : Complete window clock s) (hrep : window ≤ now)
    (hclock : clock ≤ now) (key : Key) :
    Complete window now (s.check key now window).2 := by
  intro k t hk ht
  obtain ⟨e, he, heq⟩ := complete_cleanup hs h hrep hclock (le_refl now) k t hk ht
  exact ⟨e, LruCache.peek_get.mpr he, heq⟩

theorem check_inserted (s : ReplayShard) (key : Key) (now : Instant) (window : ℕ) :
    (s.check key now window).2.inserted = s.inserted := cleanup_inserted s now window

theorem sound_add (h : Sound clock s) (hclock : clock ≤ now) (key : Key) (window : ℕ) :
    Sound now (s.add key now window) ∧ (s.add key now window).cache.cap = s.cache.cap := by
  obtain ⟨hc, hcap⟩ := sound_cleanup h now window
  have hnew : ∀ q ∈ (s.cleanup now window).queue, q.time ≤ now ∧
      q.seq < (s.cleanup now window).seqCounter + 1 := fun q hq =>
    ⟨(hc.past q hq).1.trans hclock, Nat.lt_succ_of_le (hc.past q hq).2⟩
  refine ⟨⟨⟨?_, ?_, fun k e hk => ?_⟩, fun q hq => ?_, fun k e hk => ?_⟩, ?_⟩
  · refine List.pairwise_append.mpr ⟨hc.linked.sorted, List.pairwise_singleton _ _, ?_⟩
    intro q hq r hr
    rw [List.mem_singleton.mp hr]
    exact (hnew q hq).1
  · refine List.pairwise_append.mpr ⟨hc.linked.seqs, List.pairwise_singleton _ _, ?_⟩
    intro q hq r hr
    rw [List.mem_singleton.mp hr]
    exact (hnew q hq).2
  · rcases LruCache.peek_put hk with ⟨rfl, rfl⟩ | ⟨-, hold⟩
    · exact List.mem_append_right _ List.mem_cons_self
    · exact List.mem_append_left _ (hc.linked.cached k e hold)
  · rcases List.mem_append.mp hq with hq | hq
    · exact ⟨(hnew q hq).1, (hnew q hq).2.le⟩
    · rw [List.mem_singleton.mp hq]
      exact ⟨le_refl _, le_refl _⟩
  · rcases LruCache.peek_put hk with ⟨rfl, rfl⟩ | ⟨hne, hold⟩
    · exact (lastInsertion_cons now k k _).trans (if_pos rfl)
    · exact (lastInsertion_cons now key k _).trans ((if_neg (Ne.symm hne)).trans (hc.last k e hold))
  · exact (LruCache.cap_put _ key _).trans hcap

theorem add_inserted (s : ReplayShard) (key : Key) (now : Instant) (window : ℕ) :
    (s.add key now window).inserted = (now, key) :: s.inserted :=
  congrArg ((now, key) :: ·) (cleanup_inserted s now window)

/-- While the live keys fit, the cache has room for a new one. -/
theorem room_of_liveKeys (h : Sound clock s) (hrep : window ≤ now) (key : Key)
    (hcap : (liveKeys window now ((now, key) :: s.inserted)).card ≤ s.cache.cap)
    (hnone : (s.cleanup now window).cache.peek key = none) :
    (s.cleanup now window).cache.entries.length < (s.cleanup now window).cache.cap := by
  have hkey : key ∈ liveKeys window now ((now, key) :: s.inserted) :=
    mem_liveKeys.mpr ⟨now, List.mem_cons_self, live_self window now⟩
  have hlen := (s.cleanup now window).cache.length_le_card
    ((liveKeys window now ((now, key) :: s.inserted)).erase key) fun k e hk => ?_
  · rw [Finset.card_erase_of_mem hkey] at hlen
    have hpos := Finset.card_pos.mpr ⟨key, hkey⟩
    rw [(sound_cleanup h now window).2]
    omega
  · obtain ⟨hold, hlive⟩ := (peek_cleanup h.linked hrep k e).mp hk
    refine Finset.mem_erase.mpr ⟨?_, mem_liveKeys.mpr ⟨e.seenAt, ?_, hlive⟩⟩
    · rintro rfl
      exact absurd (hnone.symm.trans hk) (by simp)
    · exact List.mem_cons_of_mem _ (lastInsertion_mem (h.last k e hold))

theorem complete_add (hs : Sound clock s) (h : Complete window clock s) (hrep : window ≤ now)
    (hclock : clock ≤ now) (key : Key)
    (hcap : (liveKeys window now ((now, key) :: s.inserted)).card ≤ s.cache.cap) :
    Complete window now (s.add key now window) := by
  intro k t hk ht
  rw [add_inserted, lastInsertion_cons] at hk
  split_ifs at hk with hkey
  · subst hkey
    exact ⟨_, LruCache.peek_put_self _ _ _, Option.some.inj hk⟩
  · obtain ⟨e, he, heq⟩ := complete_cleanup hs h hrep hclock (le_refl now) k t
      (by rwa [cleanup_inserted]) ht
    exact ⟨e, LruCache.peek_put_of_room (room_of_liveKeys hs hrep key hcap) (Ne.symm hkey) he, heq⟩

end

/-! ### Every run -/

open ReplayChecker

/-- Every check and every insertion reads a time no earlier than all operations before it, and
    `now - window` is representable. -/
structure Timely (window : ℕ) (ops : List Op) : Prop where
  inOrder : ops.Pairwise (fun a b => b.key ≠ none → a.now ≤ b.now)
  representable : ∀ op ∈ ops, window ≤ op.now

/-- The latest time read so far. -/
def latest (ops : List Op) : Instant := ops.foldr (fun op t => max op.now t) 0

section
variable (hash : Key → UInt64)

/-- The insertions into the shard of `key`. -/
def insertions (c : ReplayChecker) (key : Key) : List (Instant × Key) :=
  (c.shards (getShardIdx hash key)).inserted

/-- Whenever a key is checked or added, no shard has more keys with an insertion no older than the
    window than its capacity, the new one included. -/
def WithinCapacity (cap window : ℕ) (c : ReplayChecker) (ops : List Op) : Prop :=
  ∀ pre op post, ops = pre ++ op :: post → op.key ≠ none → ∀ i, (liveKeys window op.now
    ((after (call hash) c (pre ++ [op])).shards i).inserted).card ≤ cap

end

section
variable {hash : Key → UInt64} {window cap : ℕ} {ops : List Op} {c : ReplayChecker}

/-- `WithinCapacity` by the number of operations done. -/
theorem withinCapacity_of_take (h : ∀ n : Fin ops.length, ops[n].key ≠ none → ∀ i,
    (liveKeys window ops[n].now
      ((after (call hash) c (ops.take (n + 1))).shards i).inserted).card ≤ cap) :
    WithinCapacity hash cap window c ops := by
  rintro pre op post rfl hkey
  have hn := h ⟨pre.length, by simp⟩
  have htake : (pre ++ op :: post).take (pre.length + 1) = pre ++ [op] := by
    rw [List.append_cons, List.take_left' (by simp)]
  simp only [Fin.getElem_fin, List.getElem_append_right, le_refl, Nat.sub_self,
    List.getElem_cons_zero, htake] at hn
  exact hn hkey

theorem latest_concat (ops : List Op) (op : Op) : latest (ops ++ [op]) = max (latest ops) op.now := by
  induction ops with
  | nil => simp [latest]
  | cons o ops ih =>
    simp only [latest, List.cons_append, List.foldr_cons] at ih ⊢
    rw [ih, max_assoc]

theorem latest_le {now : Instant} (h : ∀ op ∈ ops, op.now ≤ now) : latest ops ≤ now := by
  induction ops with
  | nil => exact Nat.zero_le now
  | cons op ops ih =>
    exact max_le (h op (by simp)) (ih fun o ho => h o (List.mem_cons_of_mem _ ho))

/-- An operation with a key comes no earlier than everything before it. -/
theorem Timely.latest_le (h : Timely window ops) {pre post : List Op} {op : Op}
    (hops : ops = pre ++ op :: post) (hkey : op.key ≠ none) : latest pre ≤ op.now := by
  refine Stats.latest_le fun o ho => ?_
  have hpair := List.pairwise_append.mp (hops ▸ h.inOrder)
  exact hpair.2.2 o ho op List.mem_cons_self hkey

/-- All shards are sound at `clock` and keep their capacity. -/
def AllSound (window cap : ℕ) (clock : Instant) (c : ReplayChecker) : Prop :=
  c.window = window ∧ ∀ i, Sound clock (c.shards i) ∧ (c.shards i).cache.cap = cap

/-- An operation changes one shard; what holds of the others and of that one holds of all. -/
theorem forall_update {P : ReplayShard → Prop} {shards : Fin numShards → ReplayShard}
    (h : ∀ i, P (shards i)) (idx : Fin numShards) {s : ReplayShard} (hs : P s) :
    ∀ i, P (Function.update shards idx s i) := by
  intro i
  by_cases hi : i = idx
  · subst hi
    rwa [Function.update_self]
  · rw [Function.update_of_ne hi]
    exact h i

theorem checkAndAdd_shards (c : ReplayChecker) (key : Key) (now : Instant) :
    (c.checkAndAdd hash key now).2.shards = Function.update c.shards (getShardIdx hash key)
      (if ((c.shards (getShardIdx hash key)).check key now c.window).1
        then ((c.shards (getShardIdx hash key)).check key now c.window).2
        else ((c.shards (getShardIdx hash key)).check key now c.window).2.add key now c.window) :=
  rfl

theorem sound_call {clock : Instant} {op : Op} (h : AllSound window cap clock c)
    (hclock : op.key ≠ none → clock ≤ op.now) :
    AllSound window cap (max clock op.now) (call hash c op).2 := by
  obtain ⟨hwin, hall⟩ := h
  have hone : ∀ idx s, Sound (max clock op.now) s ∧ s.cache.cap = cap → AllSound window cap
      (max clock op.now) { c with shards := Function.update c.shards idx s } := fun idx s hs =>
    ⟨hwin, forall_update (P := fun s => Sound (max clock op.now) s ∧ s.cache.cap = cap)
      (fun i => ⟨(hall i).1.mono (le_max_left _ _), (hall i).2⟩) idx hs⟩
  cases op with
  | checkAndAdd key now =>
    have hnow : clock ≤ now := hclock (by simp [Op.key])
    refine hone (getShardIdx hash key) _ ?_
    obtain ⟨hs, hcap⟩ := sound_check (hall (getShardIdx hash key)).1 key now c.window
    rw [(hall (getShardIdx hash key)).2] at hcap
    split_ifs with hfound
    · exact ⟨hs.mono (le_max_left _ _), hcap⟩
    · obtain ⟨ha, hcap'⟩ := sound_add hs hnow key c.window
      exact ⟨ha.mono (le_max_right _ _), hcap'.trans hcap⟩
  | addOnly key now =>
    have hnow : clock ≤ now := hclock (by simp [Op.key])
    obtain ⟨ha, hcap⟩ := sound_add (hall (getShardIdx hash key)).1 hnow key c.window
    exact hone _ _ ⟨ha.mono (le_max_right _ _), hcap.trans (hall _).2⟩
  | cleanup idx now =>
    obtain ⟨hs, hcap⟩ := sound_cleanup (hall idx).1 now c.window
    exact hone _ _ ⟨hs.mono (le_max_left _ _), hcap.trans (hall idx).2⟩

theorem complete_call {clock : Instant} {op : Op} (h : AllSound window cap clock c)
    (hcomplete : ∀ i, Complete window clock (c.shards i)) (hrep : window ≤ op.now)
    (hclock : op.key ≠ none → clock ≤ op.now) (hcap : op.key ≠ none → ∀ i,
      (liveKeys window op.now ((call hash c op).2.shards i).inserted).card ≤ cap) :
    ∀ i, Complete window (max clock op.now) ((call hash c op).2.shards i) := by
  obtain ⟨rfl, hall⟩ := h
  have hmono : ∀ i, Complete c.window (max clock op.now) (c.shards i) := fun i =>
    (hcomplete i).mono (le_max_left _ _)
  cases op with
  | checkAndAdd key now =>
    have hnow : clock ≤ now := hclock (by simp [Op.key])
    have hroom := hcap (by simp [Op.key]) (getShardIdx hash key)
    obtain ⟨hs, hscap⟩ := hall (getShardIdx hash key)
    have hchecked := complete_check hs (hcomplete _) hrep hnow key
    simp only [call, checkAndAdd_shards, Function.update_self] at hroom ⊢
    refine forall_update hmono _ ?_
    split_ifs at hroom ⊢ with hfound
    · exact hchecked.mono (le_max_right _ _)
    · obtain ⟨hsc, hcc⟩ := sound_check hs key now c.window
      rw [add_inserted] at hroom
      refine (complete_add (hsc.mono hnow) hchecked hrep (le_refl now) key ?_).mono
        (le_max_right _ _)
      rwa [hcc, hscap]
  | addOnly key now =>
    have hnow : clock ≤ now := hclock (by simp [Op.key])
    have hroom := hcap (by simp [Op.key]) (getShardIdx hash key)
    obtain ⟨hs, hscap⟩ := hall (getShardIdx hash key)
    refine forall_update hmono _ ?_
    simp only [call, addOnly, Function.update_self, add_inserted] at hroom
    refine (complete_add hs (hcomplete _) hrep hnow key ?_).mono (le_max_right _ _)
    rwa [hscap]
  | cleanup idx now =>
    refine forall_update hmono _ ?_
    exact complete_cleanup (hall idx).1 (hcomplete idx) hrep (le_max_left _ _) (le_max_right _ _)

theorem allSound_new (totalCapacity window : ℕ) :
    AllSound window (max (totalCapacity / numShards) 1) 0 (ReplayChecker.new totalCapacity window) := by
  refine ⟨rfl, fun _ => ⟨⟨⟨List.Pairwise.nil, List.Pairwise.nil, ?_⟩, ?_, ?_⟩, rfl⟩⟩
  · exact fun k e hk => absurd hk (by simp [ReplayChecker.new, ReplayShard.new])
  · exact fun q hq => absurd hq List.not_mem_nil
  · exact fun k e hk => absurd hk (by simp [ReplayChecker.new, ReplayShard.new])

theorem complete_new (totalCapacity window : ℕ) (i : Fin numShards) :
    Complete window 0 ((ReplayChecker.new totalCapacity window).shards i) :=
  fun k t hk => absurd hk (by simp [ReplayChecker.new, ReplayShard.new, lastInsertion])

theorem sound_run (htimely : Timely window ops) (hstart : AllSound window cap 0 c) :
    ∀ pre, pre <+: ops → AllSound window cap (latest pre) (after (call hash) c pre) := by
  refine after_induct (I := fun pre c => AllSound window cap (latest pre) c) hstart ?_
  rintro pre op ⟨post, hops⟩ hall
  rw [List.append_assoc] at hops
  rw [latest_concat]
  exact sound_call hall (htimely.latest_le hops.symm)

theorem complete_run (htimely : Timely window ops)
    (hstart : AllSound window cap 0 c) (hnew : ∀ i, Complete window 0 (c.shards i))
    (hcap : WithinCapacity hash cap window c ops) :
    ∀ pre, pre <+: ops → ∀ i, Complete window (latest pre) ((after (call hash) c pre).shards i) := by
  refine after_induct (I := fun pre (c : ReplayChecker) =>
    ∀ i, Complete window (latest pre) (c.shards i)) hnew ?_
  rintro pre op ⟨post, hops⟩ hall
  rw [List.append_assoc] at hops
  have hsound := @sound_run hash _ _ _ _ htimely hstart pre ⟨op :: post, hops⟩
  rw [latest_concat]
  refine complete_call hsound hall (htimely.representable op (by simp [← hops]))
    (htimely.latest_le hops.symm) fun hkey => ?_
  rw [← after_concat]
  exact hcap pre op post hops.symm hkey

/-- The cache has nothing but insertions, so a hit is one of them. -/
theorem checkAndAdd_sound {clock now : Instant} (h : AllSound window cap clock c)
    (hrep : window ≤ now) {key : Key} (hfound : (c.checkAndAdd hash key now).1 = true) :
    ∃ t, lastInsertion (insertions hash c key) key = some t ∧ Live window now t := by
  obtain ⟨rfl, hall⟩ := h
  have hs := (hall (getShardIdx hash key)).1
  obtain ⟨e, he, hlive⟩ := (check_fst hs.linked hrep key).mp hfound
  exact ⟨e.seenAt, hs.last key e he, hlive⟩

theorem checkAndAdd_complete {clock now : Instant} (h : AllSound window cap clock c)
    (hcomplete : ∀ i, Complete window clock (c.shards i)) (hrep : window ≤ now)
    (hclock : clock ≤ now) {key : Key} {t : Instant}
    (hlast : lastInsertion (insertions hash c key) key = some t) (hlive : Live window now t) :
    (c.checkAndAdd hash key now).1 = true := by
  obtain ⟨rfl, hall⟩ := h
  have hs := (hall (getShardIdx hash key)).1
  obtain ⟨e, he, rfl⟩ := hcomplete _ key t hlast (hlive.earlier hclock)
  exact (check_fst hs.linked hrep key).mpr ⟨e, he, hlive⟩

theorem checkAndAdd_insertions (c : ReplayChecker) (key : Key) (now : Instant) :
    insertions hash (c.checkAndAdd hash key now).2 key =
      if (c.checkAndAdd hash key now).1 then insertions hash c key
      else (now, key) :: insertions hash c key := by
  have hfst : (c.checkAndAdd hash key now).1 =
      ((c.shards (getShardIdx hash key)).check key now c.window).1 := rfl
  rw [insertions, checkAndAdd_shards, Function.update_self, hfst, insertions]
  split_ifs with hfound
  · exact check_inserted _ key now c.window
  · rw [add_inserted, check_inserted]

/-- `check_and_add` answers `true` for a key whose last insertion is within the window and for no
    other, and inserts the key exactly when it answers `false`. Over capacity, a `true` is still
    never given to a key without an insertion within the window. -/
theorem replay_checker_exact (hash : Key → UInt64) (totalCapacity window : ℕ) (hw : 0 < window)
    (ops : List Op) (htimely : Timely window ops) :
    (WithinCapacity hash (max (totalCapacity / numShards) 1) window
        (ReplayChecker.new totalCapacity window) ops →
      ∀ pre key now post, ops = pre ++ .checkAndAdd key now :: post →
        let c := after (call hash) (ReplayChecker.new totalCapacity window) pre
        ((c.checkAndAdd hash key now).1 = true ↔
          ∃ t, lastInsertion (insertions hash c key) key = some t ∧ now ≤ t + window) ∧
        insertions hash (c.checkAndAdd hash key now).2 key =
          if (c.checkAndAdd hash key now).1 then insertions hash c key
          else (now, key) :: insertions hash c key) ∧
    ∀ pre key now post, ops = pre ++ .checkAndAdd key now :: post →
      let c := after (call hash) (ReplayChecker.new totalCapacity window) pre
      (c.checkAndAdd hash key now).1 = true →
        ∃ t, (t, key) ∈ insertions hash c key ∧ now ≤ t + window := by
  have hsound := fun pre => @sound_run hash window _ ops _ htimely
    (allSound_new totalCapacity window) pre
  constructor
  · intro hcap pre key now post hops
    have hpre : pre <+: ops := ⟨.checkAndAdd key now :: post, hops.symm⟩
    have hrep : window ≤ now := htimely.representable (.checkAndAdd key now) (by simp [hops])
    have hcomplete := complete_run htimely (allSound_new totalCapacity window)
      (complete_new totalCapacity window) hcap pre hpre
    refine ⟨⟨fun hfound => ?_, ?_⟩, checkAndAdd_insertions _ key now⟩
    · obtain ⟨t, hlast, hlive⟩ := checkAndAdd_sound (hsound pre hpre) hrep hfound
      exact ⟨t, hlast, (live_iff hw).mp hlive⟩
    · rintro ⟨t, hlast, hlive⟩
      exact checkAndAdd_complete (hsound pre hpre) hcomplete hrep
        (htimely.latest_le hops (by simp [Op.key])) hlast ((live_iff hw).mpr hlive)
  · intro pre key now post hops c hfound
    have hpre : pre <+: ops := ⟨.checkAndAdd key now :: post, hops.symm⟩
    have hrep : window ≤ now := htimely.representable (.checkAndAdd key now) (by simp [hops])
    obtain ⟨t, hlast, hlive⟩ := checkAndAdd_sound (hsound pre hpre) hrep hfound
    exact ⟨t, lastInsertion_mem hlast, (live_iff hw).mp hlive⟩

end

/-- Two keys of one shard; the first is seen again within the window and once more after it. -/
def replayRun : List Op :=
  [.checkAndAdd [1] 100, .addOnly [2] 103, .cleanup (getShardIdx (fun _ => 0) [1]) 101,
    .checkAndAdd [1] 105, .checkAndAdd [1] 120]

theorem replay_checker_exact_replayRun :
    let c := after (call fun _ => 0) (ReplayChecker.new 128 10) (replayRun.take 3)
    (c.checkAndAdd (fun _ => 0) [1] 105).1 = true ↔
      ∃ t, lastInsertion (insertions (fun _ => 0) c [1]) [1] = some t ∧ 105 ≤ t + 10 :=
  ((replay_checker_exact (fun _ => 0) 128 10 (by decide) replayRun
    ⟨by decide, by decide⟩).1 (withinCapacity_of_take (by decide +kernel)) (replayRun.take 3) [1] 105
    [.checkAndAdd [1] 120] rfl).1

end MtProxy.Stats
