import Mathlib.Tactic

/-! The error codes of libsrt's `SRT_ERRNO` as the bridge reports them. -/

namespace SrtBridge

inductive SrtError where
  | success
  | connectionSetup | noServer | connectionRejected | socketFail | securityFail | socketClosed
  | connectionFail | connectionLost | noConnection
  | resource | thread | noBuffer | sysObject
  | file | invalidReadOffset | readPermission | invalidWriteOffset | writePermission
  | invalidOperation | boundSocket | connectedSocket | invalidParam | invalidSocket
  | unboundSocket | noListen | rendezvousNoServer | rendezvousUnbound | invalidMessageApi
  | invalidBufferApi | duplicateListen | largeMessage | invalidPollId | pollEmpty | bindConflict
  | asyncFail | asyncSend | asyncRecv | timeout | congestion
  | peerError
  | unknown
  deriving DecidableEq, Repr

namespace SrtError

def fromCode : ℤ → SrtError
  | 0 => .success
  | 1000 => .connectionSetup
  | 1001 => .noServer
  | 1002 => .connectionRejected
  | 1003 => .socketFail
  | 1004 => .securityFail
  | 1005 => .socketClosed
  | 2000 => .connectionFail
  | 2001 => .connectionLost
  | 2002 => .noConnection
  | 3000 => .resource
  | 3001 => .thread
  | 3002 => .noBuffer
  | 3003 => .sysObject
  | 4000 => .file
  | 4001 => .invalidReadOffset
  | 4002 => .readPermission
  | 4003 => .invalidWriteOffset
  | 4004 => .writePermission
  | 5000 => .invalidOperation
  | 5001 => .boundSocket
  | 5002 => .connectedSocket
  | 5003 => .invalidParam
  | 5004 => .invalidSocket
  | 5005 => .unboundSocket
  | 5006 => .noListen
  | 5007 => .rendezvousNoServer
  | 5008 => .rendezvousUnbound
  | 5009 => .invalidMessageApi
  | 5010 => .invalidBufferApi
  | 5011 => .duplicateListen
  | 5012 => .largeMessage
  | 5013 => .invalidPollId
  | 5014 => .pollEmpty
  | 5015 => .bindConflict
  | 6000 => .asyncFail
  | 6001 => .asyncSend
  | 6002 => .asyncRecv
  | 6003 => .timeout
  | 6004 => .congestion
  | 7000 => .peerError
  | _ => .unknown

theorem fromCode_eq_success {code : ℤ} : fromCode code = .success ↔ code = 0 := by
  constructor
  · intro h
    unfold fromCode at h
    split at h <;> first | rfl | cases h
  · rintro rfl
    rfl

end SrtError

end SrtBridge
