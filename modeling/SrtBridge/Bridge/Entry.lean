import SrtBridge.Members.Watched

/-! One entry of the bridge's `sockets` map. Channel ends are named by the channel
they belong to: an entry holds an end while its field is `some`. -/

namespace SrtBridge

abbrev ChannelId := ℕ

/-- Whom a oneshot reply goes to. -/
abbrev ReplyId := ℕ

/-- Per-socket state tracked on the I/O thread. -/
structure SocketState where
  recvTx : Option ChannelId
  sendRx : Option ChannelId
  sendBacklog : List Bytes
  statusTx : Option ChannelId
  /-- For listener sockets: the channel accepted ids go to. -/
  acceptTx : Option ChannelId
  /-- For listener sockets: the slot whose address libsrt holds. -/
  accessControl : Option ℕ
  isListener : Bool
  isGroup : Bool
  /-- A backup-mode group. -/
  backup : Bool
  lastStatus : SocketStatus
  connectReply : Option ReplyId
  /-- The members spawned into this caller group that are still watched. -/
  watched : List WatchedMember

namespace SocketState

/-- What `RegisterSocket` starts from. -/
def fresh : SocketState where
  recvTx := none
  sendRx := none
  sendBacklog := []
  statusTx := none
  acceptTx := none
  accessControl := none
  isListener := false
  isGroup := false
  backup := false
  lastStatus := .init
  connectReply := none
  watched := []

/-- What `RegisterListener` starts from. -/
def freshListener : SocketState := { fresh with isListener := true }

/-- What `CreateGroup` registers. -/
def freshGroup (backup : Bool) : SocketState := { fresh with isGroup := true, backup := backup }

/-- Record a status. A terminal one drops the receive channel, and the send channel
of a socket that was live until now. -/
def updateStatus (s : SocketState) (status : SocketStatus) : SocketState :=
  if isTerminalStatus status then
    { s with
      lastStatus := status
      recvTx := none
      sendRx := if s.lastStatus = .connected ∨ s.lastStatus = .connecting then none else s.sendRx }
  else { s with lastStatus := status }

section UpdateStatus

variable (s : SocketState) (status : SocketStatus)

@[simp] theorem updateStatus_lastStatus : (s.updateStatus status).lastStatus = status := by
  unfold updateStatus; split_ifs <;> rfl

@[simp] theorem updateStatus_watched : (s.updateStatus status).watched = s.watched := by
  unfold updateStatus; split_ifs <;> rfl

@[simp] theorem updateStatus_isGroup : (s.updateStatus status).isGroup = s.isGroup := by
  unfold updateStatus; split_ifs <;> rfl

@[simp] theorem updateStatus_isListener : (s.updateStatus status).isListener = s.isListener := by
  unfold updateStatus; split_ifs <;> rfl

@[simp] theorem updateStatus_backup : (s.updateStatus status).backup = s.backup := by
  unfold updateStatus; split_ifs <;> rfl

@[simp] theorem updateStatus_accessControl : (s.updateStatus status).accessControl = s.accessControl := by
  unfold updateStatus; split_ifs <;> rfl

@[simp] theorem updateStatus_acceptTx : (s.updateStatus status).acceptTx = s.acceptTx := by
  unfold updateStatus; split_ifs <;> rfl

@[simp] theorem updateStatus_connectReply : (s.updateStatus status).connectReply = s.connectReply := by
  unfold updateStatus; split_ifs <;> rfl

@[simp] theorem updateStatus_sendBacklog : (s.updateStatus status).sendBacklog = s.sendBacklog := by
  unfold updateStatus; split_ifs <;> rfl

/-- A status that is not terminal leaves the channels alone. -/
theorem updateStatus_channels {s : SocketState} {status : SocketStatus}
    (h : isTerminalStatus status = false) :
    (s.updateStatus status).recvTx = s.recvTx ∧ (s.updateStatus status).sendRx = s.sendRx := by
  unfold updateStatus
  rw [if_neg (by simp [h])]
  exact ⟨rfl, rfl⟩

end UpdateStatus

end SocketState

end SrtBridge
