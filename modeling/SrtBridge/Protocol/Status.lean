import Mathlib.Tactic

/-! Socket and member states. libsrt reports a raw state for a socket
(`SRT_SOCKSTATUS`) and one for a group member (`SRT_MEMBERSTATUS`); the bridge
works on `SocketStatus` and `MemberStatus`, with every value it does not know
mapped to the dead end. -/

namespace SrtBridge

/-- `SRTSOCKET`: an `i32`, negative when libsrt has no socket to name. -/
abbrev SocketId := ℤ

/-- `SRT_SOCKSTATUS` as `srt_getsockstate` returns it. -/
inductive SockState where
  | init | opened | listening | connecting | connected | broken | closing | closed | nonexist
  | unknown (raw : ℤ)
  deriving DecidableEq, Repr

/-- `SRT_MEMBERSTATUS` as `srt_group_data` lists it. -/
inductive MemberState where
  | pending | idle | running | broken
  | unknown (raw : ℤ)
  deriving DecidableEq, Repr

inductive SocketStatus where
  | init | opened | listening | connecting | connected | broken | closing | closed | nonExist
  deriving DecidableEq, Repr

inductive MemberStatus where
  | pending | idle | running | broken
  deriving DecidableEq, Repr

def rawStateToStatus : SockState → SocketStatus
  | .init => .init
  | .opened => .opened
  | .listening => .listening
  | .connecting => .connecting
  | .connected => .connected
  | .broken => .broken
  | .closing => .closing
  | .closed => .closed
  | .nonexist => .nonExist
  | .unknown _ => .nonExist

def mapMemberStatus : MemberState → MemberStatus
  | .pending => .pending
  | .idle => .idle
  | .running => .running
  | .broken => .broken
  | .unknown _ => .broken

/-- `true` for every state from which no further I/O is possible. -/
def isTerminalStatus : SocketStatus → Bool
  | .broken | .closing | .closed | .nonExist => true
  | _ => false

@[simp] theorem rawStateToStatus_eq_connected {raw : SockState} :
    rawStateToStatus raw = .connected ↔ raw = .connected := by
  cases raw <;> simp [rawStateToStatus]

/-- How far a socket has come: `0` not yet connected, `1` connected, `2` dead. -/
def SockState.phase (raw : SockState) : ℕ :=
  if raw = .connected then 1 else if isTerminalStatus (rawStateToStatus raw) then 2 else 0

@[simp] theorem SockState.phase_connected : SockState.connected.phase = 1 := rfl

theorem SockState.phase_eq_one {raw : SockState} : raw.phase = 1 ↔ raw = .connected := by
  cases raw <;> simp [SockState.phase, isTerminalStatus, rawStateToStatus]

theorem SockState.phase_eq_two {raw : SockState} :
    raw.phase = 2 ↔ isTerminalStatus (rawStateToStatus raw) = true := by
  cases raw <;> simp [SockState.phase, isTerminalStatus, rawStateToStatus]

theorem SockState.phase_le_two (raw : SockState) : raw.phase ≤ 2 := by
  unfold SockState.phase; split_ifs <;> omega

end SrtBridge
