import MtProxy.MiddleProxy.Reader
import MtProxy.MiddleProxy.Wire
import MtProxy.Schemes.Channel

/-! The command channel of a Middle-End connection. Its reader sends `RPC_CLOSE_CONN` and `RPC_PONG` through
    it and waits for room, for as long as it takes; so do clients, pings and the pool with what they send.
    The writer task takes the commands off, and the channel closes when it ends.

        reader ──┐
        others ──┴──▶ room for 4096 ──▶ writer task ──▶ Middle-End -/

namespace MtProxy.MiddleProxy
open Crypto Schemes

inductive WriterCommand where
  | data (payload : List UInt8)
  | dataAndFlush (payload : List UInt8)
  | close

def writerChannelCapacity : ℕ := 4096

/-- What `send_close_conn` sends. -/
def closeConnCommand (connId : ℕ) : WriterCommand :=
  .dataAndFlush (u32Bytes rpcCloseConn ++ leBytes 8 connId)

/-- The answer to a ping. -/
def pongCommand (pingId : Int64) : WriterCommand :=
  .dataAndFlush (u32Bytes rpcPong ++ leBytes 8 pingId.toBitVec.toNat)

/-- The command tells the Middle-End that a conn is closed. -/
def WriterCommand.isCloseConn : WriterCommand → Bool
  | .dataAndFlush payload => payload.take 4 == u32Bytes rpcCloseConn
  | _ => false

theorem closeConnCommand_isCloseConn (connId : ℕ) : (closeConnCommand connId).isCloseConn = true :=
  beq_iff_eq.mpr (List.take_left' (length_leBytes 4 _))

theorem pongCommand_isCloseConn (pingId : Int64) : (pongCommand pingId).isCloseConn = false := by
  have htake : (u32Bytes rpcPong ++ leBytes 8 pingId.toBitVec.toNat).take 4 = u32Bytes rpcPong :=
    List.take_left' (length_leBytes 4 _)
  rw [pongCommand, WriterCommand.isCloseConn, htake]
  decide

inductive Sender where
  | reader
  | task (k : ℕ)
  deriving DecidableEq

/-- The commands with their senders. -/
abbrev Commands := Channel Sender (Sender × WriterCommand)

/-- What the other tasks do to the channel: send into it, with or without waiting, and empty it. -/
inductive CommandMove where
  | trySend (k : ℕ) (command : WriterCommand)
  | acquire (k : ℕ)
  | send (k : ℕ) (command : WriterCommand)
  | withdraw (k : ℕ)
  | recv
  | close

namespace Commands

def new : Commands := Channel.new writerChannelCapacity

def move (c : Commands) : CommandMove → Option Commands
  | .trySend k command => some (c.trySend (.task k, command)).2
  | .acquire k => some (c.acquire (.task k))
  | .send k command =>
    if c.isOpen = true ∧ .task k ∈ c.granted then some (c.send (.task k) (.task k, command)) else none
  | .withdraw k => some (c.withdraw (.task k))
  | .recv => c.recv
  | .close => some c.close

/-- The conns whose end the reader has put into the channel, as commands. -/
def told (c : Commands) : List WriterCommand :=
  (c.accepted.filter (fun x => x.1 == .reader && x.2.isCloseConn)).map (·.2)

section
variable {c c' : Commands} {m : CommandMove}

theorem reader_ne_task (k : ℕ) : Sender.reader ≠ .task k := nofun

theorem told_task {k : ℕ} {command : WriterCommand}
    (h : c'.accepted = c.accepted ++ [(.task k, command)]) : c'.told = c.told := by
  have htask : (Sender.task k == .reader) = false := beq_false_of_ne (reader_ne_task k).symm
  simp [told, h, htask]

theorem told_of_accepted (h : c'.accepted = c.accepted) : c'.told = c.told := by
  rw [told, told, h]

theorem balanced_move (h : Channel.Balanced writerChannelCapacity c) (hmove : c.move m = some c') :
    Channel.Balanced writerChannelCapacity c' := by
  cases m with
  | trySend k command =>
    obtain rfl := Option.some.inj hmove
    exact h.trySend _
  | acquire k =>
    obtain rfl := Option.some.inj hmove
    exact h.acquire _
  | send k command =>
    rw [move] at hmove
    split at hmove
    · rename_i hsend
      obtain rfl := Option.some.inj hmove
      exact h.send hsend.2 _
    · cases hmove
  | withdraw k =>
    obtain rfl := Option.some.inj hmove
    exact h.withdraw _
  | recv => exact h.recv hmove
  | close =>
    obtain rfl := Option.some.inj hmove
    exact h.close

/-- The reader keeps its place in the line. -/
theorem present_move (h : Channel.Present c .reader) (hmove : c.move m = some c') :
    Channel.Present c' .reader := by
  cases m with
  | trySend k command =>
    obtain rfl := Option.some.inj hmove
    exact h.trySend _
  | acquire k =>
    obtain rfl := Option.some.inj hmove
    exact h.acquire _
  | send k command =>
    rw [move] at hmove
    split at hmove
    · obtain rfl := Option.some.inj hmove
      exact h.send (reader_ne_task k) _
    · cases hmove
  | withdraw k =>
    obtain rfl := Option.some.inj hmove
    exact h.withdraw (reader_ne_task k)
  | recv => exact h.recv hmove
  | close =>
    obtain rfl := Option.some.inj hmove
    exact Channel.Present.close

/-- The others tell nothing in the name of the reader, and do not open the channel again. -/
theorem told_move (hmove : c.move m = some c') :
    c'.told = c.told ∧ (c'.isOpen = true → c.isOpen = true) := by
  cases m with
  | trySend k command =>
    obtain rfl := Option.some.inj hmove
    refine ⟨?_, fun hopen => (by rwa [Channel.trySend_isOpen] at hopen)⟩
    have haccepted := Channel.trySend_accepted (c := c) (Sender.task k, command)
    split at haccepted
    · exact told_task haccepted
    · exact told_of_accepted haccepted
  | acquire k =>
    obtain rfl := Option.some.inj hmove
    refine ⟨told_of_accepted (Channel.acquire_accepted _), fun hopen => ?_⟩
    rwa [Channel.acquire_isOpen] at hopen
  | send k command =>
    rw [move] at hmove
    split at hmove
    · obtain rfl := Option.some.inj hmove
      exact ⟨told_task rfl, id⟩
    · cases hmove
  | withdraw k =>
    obtain rfl := Option.some.inj hmove
    refine ⟨told_of_accepted (Channel.withdraw_accepted _), fun hopen => ?_⟩
    rwa [Channel.withdraw_isOpen] at hopen
  | recv =>
    refine ⟨told_of_accepted (Channel.recv_accepted hmove), fun hopen => ?_⟩
    rwa [Channel.recv_isOpen hmove] at hopen
  | close =>
    obtain rfl := Option.some.inj hmove
    exact ⟨rfl, fun hopen => by cases hopen⟩

end

end Commands

end MtProxy.MiddleProxy
