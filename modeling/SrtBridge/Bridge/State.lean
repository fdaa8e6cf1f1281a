import Mathlib.Data.List.AList
import SrtBridge.Bridge.Options
import SrtBridge.General.Mpsc
import SrtBridge.Members.Group

/-! The I/O thread's state: its `sockets` map, the channels it shares with Tokio
tasks, and a record of what it did. Every change of the state is one of a few
primitive ones. -/

namespace SrtBridge

open General

/-- One application-layer packet, with the sender's timestamp when there is one. -/
structure ReceivedPacket where
  data : Bytes
  senderTimestampUs : Option ℤ
  deriving DecidableEq

/-- libsrt writes `0` for a sender time that is not set. -/
def ReceivedPacket.withSrctime (data : Bytes) (srctimeUs : ℤ) : ReceivedPacket :=
  ⟨data, if srctimeUs = 0 then none else some srctimeUs⟩

/-- Commands from Tokio tasks to the I/O thread. -/
inductive IoCommand where
  | createSocket (config : SrtConfig) (reply : ReplyId)
  | bind (id : SocketId) (addr : SocketAddr) (reply : ReplyId)
  | listen (id : SocketId) (backlog : ℤ) (reply : ReplyId)
  | connect (id : SocketId) (addr : SocketAddr) (reply : ReplyId)
  | registerSocket (id : SocketId) (recvTx sendRx statusTx : ChannelId)
  | registerListener (id : SocketId) (acceptTx : ChannelId) (accessControl : Option ℕ)
  | getStats (id : SocketId) (reply : ReplyId)
  | getState (id : SocketId) (reply : ReplyId)
  | getPeerAddr (id : SocketId) (reply : ReplyId)
  | getLocalAddr (id : SocketId) (reply : ReplyId)
  | getStreamId (id : SocketId) (reply : ReplyId)
  | close (id : SocketId)
  | createGroup (mode : GroupType) (config : SrtConfig) (reply : ReplyId)
  | connectGroup (id : SocketId) (endpoints : List GroupEndpoint) (reply : ReplyId)
  | addGroupMember (id : SocketId) (endpoint : GroupEndpoint) (reply : ReplyId)
  | getGroupMemberStats (id : SocketId) (reply : ReplyId)
  | shutdown

/-- What a oneshot reply carries; statistics are reported without their numbers. -/
inductive Reply where
  | socket (result : Except SrtError SocketId)
  | done (result : Except SrtError Unit)
  | state (status : SocketStatus)
  | addr (addr : Option SocketAddr)
  | streamId (text : Text)
  | stats (result : Except SrtError Unit)
  | memberStats

/-- What the I/O thread does, one thing after the other. -/
inductive IoEvent where
  | created (id : SocketId)
  | optionSet (id : SocketId) (call : OptCall) (accepted : Bool)
  | bound (id : SocketId) (accepted : Bool)
  | armed (id : SocketId) (slot : ℕ) (accepted : Bool)
  | listening (id : SocketId) (accepted : Bool)
  | connecting (id : SocketId)
  /-- `srt_accept` returned `id` for the listener. -/
  | accepted (listener id : SocketId)
  | subscribed (id : SocketId)
  | unsubscribed (id : SocketId)
  | closed (id : SocketId)
  /-- An entry is put into the map. -/
  | entered (id : SocketId)
  /-- An entry is given its channels. -/
  | registered (id : SocketId) (recvTx sendRx : ChannelId)
  /-- A status is recorded in an entry. -/
  | recorded (id : SocketId) (status : SocketStatus)
  /-- An entry leaves the map. -/
  | released (id : SocketId)
  /-- `srt_recvmsg2` returned a message. -/
  | took (id : SocketId) (packet : ReceivedPacket)
  | sent (id : SocketId) (data : Bytes) (accepted : Bool)
  | answered (reply : ReplyId) (answer : Reply)
  /-- A oneshot is let go of without an answer. -/
  | unanswered (reply : ReplyId)
  | member (grp : SocketId) (event : MemberEvent)

/-- The event settles the oneshot: it is answered, or let go of. -/
def IoEvent.settles (reply : ReplyId) : IoEvent → Bool
  | .answered i _ | .unanswered i => i = reply
  | _ => false

structure Bridge where
  sockets : AList fun _ : SocketId => SocketState
  accepts : ChannelId → Mpsc SocketId
  packets : ChannelId → Mpsc ReceivedPacket
  sends : ChannelId → Mpsc Bytes
  clock : Instant
  step : ℕ
  /-- False once the thread has shut down. -/
  running : Bool
  trace : List IoEvent

namespace Bridge

def start : Bridge where
  sockets := ∅
  accepts _ := .empty
  packets _ := .empty
  sends _ := .empty
  clock := 0
  step := 0
  running := true
  trace := []

def entry (b : Bridge) (id : SocketId) : Option SocketState := b.sockets.lookup id

def emit (e : IoEvent) (b : Bridge) : Bridge := { b with trace := b.trace ++ [e] }

def emits (es : List IoEvent) (b : Bridge) : Bridge := { b with trace := b.trace ++ es }

def answer (reply : ReplyId) (r : Reply) (b : Bridge) : Bridge := b.emit (.answered reply r)

def setEntry (id : SocketId) (s : SocketState) (b : Bridge) : Bridge :=
  { b with sockets := b.sockets.insert id s }

def enter (id : SocketId) (s : SocketState) (b : Bridge) : Bridge :=
  (b.setEntry id s).emit (.entered id)

/-- Change an entry, if there is one. -/
def modify (id : SocketId) (f : SocketState → SocketState) (b : Bridge) : Bridge :=
  match b.entry id with
  | some s => b.setEntry id (f s)
  | none => b

/-- `update_status` on an entry, if there is one. -/
def record (id : SocketId) (status : SocketStatus) (b : Bridge) : Bridge :=
  match b.entry id with
  | some s => (b.setEntry id (s.updateStatus status)).emit (.recorded id status)
  | none => b

def register (id : SocketId) (recvTx sendRx statusTx : ChannelId) (b : Bridge) : Bridge :=
  match b.entry id with
  | some s =>
    (b.setEntry id
      { s with recvTx := some recvTx, sendRx := some sendRx, statusTx := some statusTx }).emit
        (.registered id recvTx sendRx)
  | none => b

def release (id : SocketId) (b : Bridge) : Bridge :=
  match b.entry id with
  | some _ => { b with sockets := b.sockets.erase id }.emit (.released id)
  | none => b

section Entries

variable (b : Bridge) (id id' : SocketId) (s : SocketState)

@[simp] theorem entry_start : start.entry id = none := rfl

@[simp] theorem entry_emit (e : IoEvent) : (b.emit e).entry id = b.entry id := rfl

@[simp] theorem entry_emits (es : List IoEvent) : (b.emits es).entry id = b.entry id := rfl

@[simp] theorem entry_answer (reply : ReplyId) (r : Reply) :
    (b.answer reply r).entry id = b.entry id := rfl

theorem entry_setEntry : (b.setEntry id s).entry id' = if id' = id then some s else b.entry id' := by
  unfold entry setEntry
  split_ifs with h
  · rw [h, AList.lookup_insert]
  · exact AList.lookup_insert_ne h

@[simp] theorem entry_enter :
    (b.enter id s).entry id' = if id' = id then some s else b.entry id' := entry_setEntry ..

theorem entry_modify (f : SocketState → SocketState) :
    (b.modify id f).entry id' = if id' = id then (b.entry id).map f else b.entry id' := by
  unfold modify
  cases h : b.entry id with
  | none =>
    split_ifs with hid
    · rw [hid, h]
      rfl
    · rfl
  | some s => exact entry_setEntry ..

theorem entry_record (status : SocketStatus) : (b.record id status).entry id' =
    if id' = id then (b.entry id).map (·.updateStatus status) else b.entry id' := by
  unfold record
  cases h : b.entry id with
  | none =>
    split_ifs with hid
    · rw [hid, h]
      rfl
    · rfl
  | some s => exact entry_setEntry ..

theorem entry_release :
    (b.release id).entry id' = if id' = id then none else b.entry id' := by
  unfold release
  cases h : b.entry id with
  | none =>
    split_ifs with hid
    · rw [hid, h]
    · rfl
  | some s =>
    show AList.lookup id' (b.sockets.erase id) = _
    split_ifs with hid
    · rw [hid, AList.lookup_erase]
    · exact AList.lookup_erase_ne hid

end Entries

end Bridge

end SrtBridge
