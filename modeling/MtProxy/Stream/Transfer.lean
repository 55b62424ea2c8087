import MtProxy.Schemes.Run
import MtProxy.Stream.Layers

/-! One direction of `copy_bidirectional`: what a `CryptoReader` hands out goes into a `CryptoWriter`.

        source ──poll_read──▶ hand ──poll_write──▶ sink
                                │ end of the source, nothing in hand
                                └──poll_flush──▶ finished

    A read into free room, a write of what is in hand and a flush come in any order; nothing is read after
    the end of the source. An error, or a write of nothing, ends the transfer. -/

namespace MtProxy.Stream
open Crypto Schemes

inductive TransferEnd where
  | finished
  | failed
  deriving DecidableEq

/-- Reader and writer come with what they have handed out and accepted. -/
structure Transfer (R W : Type) where
  reader : CryptoReader.Session R
  hand : List UInt8
  readDone : Bool
  writer : CryptoWriter.Session W
  ended : Option TransferEnd

inductive TransferMove where
  | read (room : ℕ)
  | write
  | flush

namespace Transfer
variable {R W : Type}

def start (reader : CryptoReader R) (writer : CryptoWriter W) : Transfer R W :=
  ⟨⟨reader, []⟩, [], false, ⟨writer, []⟩, none⟩

/-- What the sink has taken. -/
def wire (t : Transfer R W) : List UInt8 := t.writer.writer.upstream.accepted

variable [AsyncRead R] [AsyncWrite W]

def read (t : Transfer R W) (room : ℕ) : Transfer R W :=
  let t' := { t with reader := t.reader.next room }
  match (t.reader.reader.pollRead room).1 with
  | .pending => t'
  | .ready (.error _) => { t' with ended := some .failed }
  | .ready (.ok bs) => { t' with hand := t.hand ++ bs, readDone := bs.isEmpty }

def write (t : Transfer R W) : Transfer R W :=
  let t' := { t with writer := t.writer.next (.write t.hand) }
  match (t.writer.writer.pollWrite t.hand).1 with
  | .pending => t'
  | .ready (.error _) => { t' with ended := some .failed }
  | .ready (.ok n) =>
    { t' with hand := t.hand.drop n, ended := if n = 0 then some .failed else none }

def flush (t : Transfer R W) : Transfer R W :=
  let t' := { t with writer := t.writer.next .flush }
  match t.writer.writer.pollFlush.1 with
  | .pending => t'
  | .ready (.error _) => { t' with ended := some .failed }
  | .ready (.ok ()) =>
    { t' with ended := if t.readDone ∧ t.hand = [] then some .finished else none }

def step (t : Transfer R W) (m : TransferMove) : Option (Transfer R W) :=
  if t.ended.isSome then none
  else match m with
    | .read room => if t.readDone = false ∧ 0 < room then some (t.read room) else none
    | .write => if t.hand = [] then none else some t.write
    | .flush => some t.flush

/-! ### What a transfer keeps -/

/-- What was read and is in hand no more was accepted; the reader hands out `data`, and all of it before
    its end; a beginning of what was accepted is on the wire, and all of it when the transfer has
    finished. -/
structure Inv (fromKs : ℕ → UInt8) (p : ℕ) (data : List UInt8) (toKs : ℕ → UInt8) (q : ℕ)
    (t : Transfer R W) : Prop where
  reads : CryptoReader.Decrypts fromKs p data t.reader
  writes : CryptoWriter.Good toKs q t.writer
  wire : t.wire <+: xorStream toKs q t.writer.plain
  moved : t.writer.plain ++ t.hand = t.reader.plain
  done : t.readDone = true → t.reader.plain = data
  finished : t.ended = some .finished →
    t.readDone = true ∧ t.hand = [] ∧ t.wire = xorStream toKs q t.writer.plain

section
variable {fromKs toKs : ℕ → UInt8} {p q : ℕ} {data : List UInt8} {t t' : Transfer R W}

omit [AsyncWrite W] in
theorem inv_start (source : R) (dec enc : AesCtr) (sink : W) (maxPending : ℕ)
    (h : AsyncRead.stream source = xorStream dec.keystream dec.pos data) :
    Inv dec.keystream dec.pos data enc.keystream enc.pos
      (start (CryptoReader.new source dec) (CryptoWriter.new sink enc maxPending)) where
  reads := CryptoReader.decrypts_new source dec h
  writes := .inr (CryptoWriter.synced_new sink enc maxPending)
  wire := List.nil_prefix
  moved := rfl
  done := fun hdone => by cases hdone
  finished := fun hfinished => by cases hfinished

/-- A read of nothing, into free room, is the end of the data. -/
theorem plain_of_end {s : CryptoReader.Session R} {room : ℕ}
    (hs : CryptoReader.Decrypts fromKs p data s) (hroom : 0 < room)
    (hend : (s.reader.pollRead room).1 = .ready (.ok [])) : (s.next room).plain = data := by
  have hnext := CryptoReader.decrypts_next hs room
  have hplain : (s.next room).plain = s.plain := by
    rw [CryptoReader.Session.next, hend]
    exact List.append_nil _
  cases hp : s.reader.isPoisoned with
  | true =>
    obtain ⟨-, ⟨e, he⟩, -⟩ := CryptoReader.poisoned_read hp room
    exact absurd (he.symm.trans hend) (by simp)
  | false =>
    obtain ⟨hidle, -, hrest⟩ := hs.rest hp
    obtain ⟨hanswer, -⟩ := CryptoReader.pollRead_answer hidle hroom
    have hupstream : (AsyncRead.pollRead s.reader.upstream room).1 = .ready (.ok []) := by
      rw [hend] at hanswer
      rcases hr : (AsyncRead.pollRead s.reader.upstream room).1 with _ | (e | bs) <;>
        rw [hr] at hanswer
      · cases hanswer
      · cases hanswer
      · have hbs : ([] : List UInt8) = xorStream _ _ bs := Except.ok.inj (Poll.ready.inj hanswer)
        have hlen := congrArg List.length hbs
        rw [length_xorStream] at hlen
        rw [List.length_eq_zero_iff.mp hlen.symm]
    rw [AsyncRead.pollRead_eof _ _ hupstream hroom, xorStream, List.append_nil] at hrest
    rw [hplain, hrest]

omit [AsyncWrite W] in
theorem Inv.read (h : Inv fromKs p data toKs q t) (hended : t.ended = none) {room : ℕ}
    (hnotDone : t.readDone = false) (hroom : 0 < room) : Inv fromKs p data toKs q (t.read room) := by
  have hreads := CryptoReader.decrypts_next h.reads room
  have hend := plain_of_end h.reads hroom
  have hplain : (t.reader.next room).plain =
      t.reader.plain ++ CryptoReader.received (t.reader.reader.pollRead room).1 := rfl
  have hunfinished : t.ended ≠ some .finished := by
    rw [hended]
    exact fun hfinished => by cases hfinished
  rw [Transfer.read]
  rcases hr : (t.reader.reader.pollRead room).1 with _ | (e | bs) <;> rw [hr] at hend hplain
  · have hsame : (t.reader.next room).plain = t.reader.plain := hplain.trans (List.append_nil _)
    exact ⟨hreads, h.writes, h.wire, h.moved.trans hsame.symm,
      fun hdone => by simp [hnotDone] at hdone, fun hfinished => absurd hfinished hunfinished⟩
  · have hsame : (t.reader.next room).plain = t.reader.plain := hplain.trans (List.append_nil _)
    exact ⟨hreads, h.writes, h.wire, h.moved.trans hsame.symm,
      fun hdone => by simp [hnotDone] at hdone, fun hfinished => by cases hfinished⟩
  · refine ⟨hreads, h.writes, h.wire, ?_, fun hdone => ?_,
      fun hfinished => absurd hfinished hunfinished⟩
    · rw [hplain, ← h.moved, List.append_assoc]
      rfl
    · obtain rfl : bs = [] := List.isEmpty_iff.mp hdone
      exact hend rfl

/-- A call of the writer keeps its end of the transfer. -/
theorem Inv.call (h : Inv fromKs p data toKs q t) (c : CryptoWriter.Call) :
    CryptoWriter.Good toKs q (t.writer.next c) ∧
      (t.writer.next c).writer.upstream.accepted <+: xorStream toKs q (t.writer.next c).plain :=
  ⟨CryptoWriter.good_next h.writes c, CryptoWriter.accepted_next h.writes h.wire c⟩

theorem Inv.write (h : Inv fromKs p data toKs q t) (hended : t.ended = none) :
    Inv fromKs p data toKs q t.write := by
  obtain ⟨hgood, hwire⟩ := h.call (.write t.hand)
  have hplain : (t.writer.next (.write t.hand)).plain = t.writer.plain ++
      CryptoWriter.Call.accepted (.write t.hand) (.write (t.writer.writer.pollWrite t.hand).1) := rfl
  rw [Transfer.write]
  rcases hr : (t.writer.writer.pollWrite t.hand).1 with _ | (e | n) <;> rw [hr] at hplain
  · have hsame : (t.writer.next (.write t.hand)).plain = t.writer.plain :=
      hplain.trans (List.append_nil _)
    refine ⟨h.reads, hgood, hwire, ?_, h.done, fun hfinished => ?_⟩
    · rw [hsame]
      exact h.moved
    · exact absurd (hended.symm.trans hfinished) (by simp)
  · have hsame : (t.writer.next (.write t.hand)).plain = t.writer.plain :=
      hplain.trans (List.append_nil _)
    refine ⟨h.reads, hgood, hwire, ?_, h.done, fun hfinished => (by cases hfinished)⟩
    rw [hsame]
    exact h.moved
  · refine ⟨h.reads, hgood, hwire, ?_, h.done, fun hfinished => ?_⟩
    · rw [hplain, CryptoWriter.Call.accepted, List.append_assoc, List.take_append_drop]
      exact h.moved
    · simp only at hfinished
      split at hfinished <;> cases hfinished

/-- After a flush that succeeded everything accepted is on the wire. -/
theorem wire_of_flush {w : CryptoWriter W} {plain : List UInt8}
    (hw : CryptoWriter.Synced toKs q plain w) {x : Unit} (hflush : w.pollFlush.1 = .ready (.ok x)) :
    w.pollFlush.2.upstream.accepted = xorStream toKs q plain := by
  have hspec := CryptoWriter.flush_spec hw
  unfold CryptoWriter.pollFlush at hflush ⊢
  rw [if_neg (by simp [hw.healthy])] at hflush ⊢
  rcases hr : w.pollFlushPending with ⟨_ | (e | y), v⟩ <;> rw [hr] at hspec hflush
  · cases hflush
  · cases hflush
  · obtain ⟨hv, -, hstate⟩ := hspec
    have hwire := hv.wire
    rw [CryptoWriter.pendingBytes, hstate, List.append_nil] at hwire
    exact hwire

theorem Inv.flush (h : Inv fromKs p data toKs q t) (hended : t.ended = none) :
    Inv fromKs p data toKs q t.flush := by
  obtain ⟨hgood, hwire⟩ := h.call .flush
  have hplain : (t.writer.next .flush).plain = t.writer.plain := List.append_nil _
  have hmoved : (t.writer.next .flush).plain ++ t.hand = t.reader.plain := by
    rw [hplain]
    exact h.moved
  rw [Transfer.flush]
  rcases hr : t.writer.writer.pollFlush.1 with _ | (e | x)
  · exact ⟨h.reads, hgood, hwire, hmoved, h.done,
      fun hfinished => absurd (hended.symm.trans hfinished) (by simp)⟩
  · exact ⟨h.reads, hgood, hwire, hmoved, h.done, fun hfinished => by cases hfinished⟩
  · refine ⟨h.reads, hgood, hwire, hmoved, h.done, fun hfinished => ?_⟩
    simp only at hfinished
    split at hfinished
    · rename_i hlast
      refine ⟨hlast.1, hlast.2, ?_⟩
      rcases h.writes with hp | hw
      · exact absurd (congrArg CryptoWriter.Reply.flush hr)
          ((CryptoWriter.call_poisoned hp .flush).2.2.2 x)
      · exact (wire_of_flush hw hr).trans (congrArg (xorStream toKs q) hplain.symm)
    · cases hfinished

theorem Inv.step (h : Inv fromKs p data toKs q t) {m : TransferMove} (hstep : t.step m = some t') :
    Inv fromKs p data toKs q t' := by
  unfold Transfer.step at hstep
  split at hstep
  · cases hstep
  · rename_i hrunning
    have hended : t.ended = none := by simpa using hrunning
    cases m with
    | read room =>
      dsimp only at hstep
      split at hstep
      · rename_i hread
        obtain rfl := Option.some.inj hstep
        exact h.read hended hread.1 hread.2
      · cases hstep
    | write =>
      dsimp only at hstep
      split at hstep
      · cases hstep
      · obtain rfl := Option.some.inj hstep
        exact h.write hended
    | flush =>
      obtain rfl := Option.some.inj hstep
      exact h.flush hended

omit [AsyncWrite W] in
/-- The wire carries a beginning of the data, and all of it when the transfer has finished. -/
theorem Inv.arrived (h : Inv fromKs p data toKs q t) :
    t.writer.plain <+: data ∧ (t.ended = some .finished → t.writer.plain = data) := by
  constructor
  · have hread : t.writer.plain <+: t.reader.plain := ⟨t.hand, h.moved⟩
    exact hread.trans h.reads.plain
  · intro hfinished
    obtain ⟨hdone, hhand, -⟩ := h.finished hfinished
    rw [← h.done hdone, ← h.moved, hhand, List.append_nil]

end

/-! ### What a transfer does to its sink -/

section
variable {P : Upstream W → Prop} {t t' : Transfer R W}

/-- What writes and flushes of the sink keep is kept, and a transfer that has finished has flushed the
    sink last. -/
structure Keeps (P : Upstream W → Prop) (t : Transfer R W) : Prop where
  kept : P t.writer.writer.upstream
  finished : t.ended = some .finished → ∃ u x, P u ∧ u.pollFlush.1 = .ready (.ok x) ∧
    t.writer.writer.upstream = u.pollFlush.2

omit [AsyncRead R] in
theorem keeps_running (h : P t.writer.writer.upstream) (hended : t.ended ≠ some .finished) : Keeps P t :=
  ⟨h, fun hfinished => absurd hfinished hended⟩

theorem Keeps.step (hwrite : ∀ u data, P u → P (u.pollWrite data).2)
    (hflush : ∀ u : Upstream W, P u → P u.pollFlush.2) (h : Keeps P t) {m : TransferMove}
    (hstep : t.step m = some t') : Keeps P t' := by
  unfold Transfer.step at hstep
  split at hstep
  · cases hstep
  · rename_i hrunning
    have hended : t.ended = none := by simpa using hrunning
    cases m with
    | read room =>
      dsimp only at hstep
      split at hstep
      · obtain rfl := Option.some.inj hstep
        rw [Transfer.read]
        split
        · exact keeps_running h.kept (by simp [hended])
        · exact keeps_running h.kept (by simp)
        · exact keeps_running h.kept (by simp [hended])
      · cases hstep
    | write =>
      have hkept := CryptoWriter.pollWrite_upstream hwrite h.kept t.hand
      dsimp only at hstep
      split at hstep
      · cases hstep
      · obtain rfl := Option.some.inj hstep
        rw [Transfer.write]
        split
        · exact keeps_running hkept (by simp [hended])
        · exact keeps_running hkept (by simp)
        · exact keeps_running hkept (by simp only; split <;> simp)
    | flush =>
      obtain ⟨hkept, hlast⟩ := CryptoWriter.pollFlush_upstream hwrite hflush h.kept
      obtain rfl := Option.some.inj hstep
      rw [Transfer.flush]
      split
      · exact keeps_running hkept (by simp [hended])
      · exact keeps_running hkept (by simp)
      · rename_i hok
        obtain ⟨u, hu, hflushed, hsame⟩ := hlast () hok
        exact ⟨hkept, fun _ => ⟨u, (), hu, hflushed, hsame⟩⟩

end

end Transfer

end MtProxy.Stream
