import SrtBridge.Protocol.Status
import SrtBridge.Protocol.Error
import SrtBridge.Protocol.Config

/-! What libsrt answers to the bridge. The I/O thread's work is cut into steps,
numbered from `0` on; an answer depends on the step it is given in and, where one
step makes a call more than once, on the number of that call within the step. A
value of `Libsrt` is one possible behaviour of the library over a whole run. -/

namespace SrtBridge

/-- The `SRTO_*` options the bridge sets or reads. -/
inductive SockOpt where
  | rcvsyn | sndsyn | transtype | rcvlatency | peerlatency | mss | fc | sndbuf | rcvbuf
  | peeridletimeo | conntimeo | payloadsize | passphrase | pbkeylen | cryptomode
  | enforcedencryption | maxbw | inputbw | oheadbw | maxrexmitbw | streamid | packetfilter
  | iptos | ipttl | retransmitalgo | snddropdelay | lossmaxttl | kmrefreshrate | kmpreannounce
  | tlpktdrop | rendezvous | groupconnect
  deriving DecidableEq, Repr

inductive OptVal where
  | i32 (v : Int32)
  | i64 (v : Int64)
  | bool (v : Bool)
  | str (v : Text)
  deriving DecidableEq

/-- `SRT_SOCKGROUPCONFIG`: one member record handed to `srt_connect_group`, which
writes the member's id and error code into it. -/
structure GroupConfig where
  srcaddr : Option SocketAddr
  peeraddr : SocketAddr
  weight : UInt16
  token : ℤ
  id : SocketId
  errorcode : ℤ
  deriving DecidableEq

/-- `SRT_SOCKGROUPDATA`: one row of a group's member listing. -/
structure GroupData where
  id : SocketId
  sockstate : SockState
  memberstate : MemberState
  weight : UInt16
  token : ℤ
  deriving DecidableEq

/-- One turn of the receive loop: what `SRTO_RCVDATA` reads (`none` when the call
fails), and the message and sender time `srt_recvmsg2` hands over, if any. -/
structure RecvAnswer where
  rcvdata : Option ℤ
  message : Option (Bytes × ℤ)
  deriving DecidableEq

structure Libsrt where
  createSocket : ℕ → SocketId
  createGroup : ℕ → GroupType → SocketId
  /-- Whether the option is accepted. -/
  setsockflag : ℕ → ℕ → SocketId → SockOpt → OptVal → Bool
  getsockflag : ℕ → SocketId → SockOpt → Option ℤ
  getsockstate : ℕ → ℕ → SocketId → SockState
  getlasterror : ℕ → ℕ → ℤ
  bind : ℕ → SocketId → SocketAddr → ℤ
  listenCallback : ℕ → SocketId → ℕ → ℤ
  listen : ℕ → SocketId → ℤ → ℤ
  connect : ℕ → SocketId → SocketAddr → ℤ
  accept : ℕ → SocketId → SocketId
  /-- The turns of the receive loop of one step, up to the one that finds nothing. -/
  recvmsg : ℕ → ℕ → SocketId → List RecvAnswer
  sendmsg : ℕ → ℕ → SocketId → Bytes → ℤ
  /-- `none` when the call fails. -/
  groupData : ℕ → ℕ → SocketId → Option (List GroupData)
  /-- The return value, and the id and error code written into each target. -/
  connectGroup : ℕ → SocketId → List GroupConfig → ℤ × (ℕ → SocketId × ℤ)
  getsockname : ℕ → SocketId → Option SocketAddr
  getpeername : ℕ → SocketId → Option SocketAddr
  getStreamId : ℕ → SocketId → Text
  bistats : ℕ → SocketId → ℤ

def Libsrt.refusing : Libsrt where
  createSocket _ := -1
  createGroup _ _ := -1
  setsockflag _ _ _ _ _ := false
  getsockflag _ _ _ := none
  getsockstate _ _ _ := .nonexist
  getlasterror _ _ := 5004
  bind _ _ _ := -1
  listenCallback _ _ _ := -1
  listen _ _ _ := -1
  connect _ _ _ := -1
  accept _ _ := -1
  recvmsg _ _ _ := []
  sendmsg _ _ _ _ := -1
  groupData _ _ _ := none
  connectGroup _ _ _ := (-1, fun _ => (-1, 0))
  getsockname _ _ := none
  getpeername _ _ := none
  getStreamId _ _ := []
  bistats _ _ := -1

/-- A library that follows a script: the member listing and the socket states of each
step are given, and the first target of a connect call in step `k` becomes the
member `k + 1`. -/
def Libsrt.scripted (listing : ℕ → List GroupData) (state : ℕ → SocketId → SockState) : Libsrt :=
  { Libsrt.refusing with
    getsockstate := fun k _ id => state k id
    groupData := fun k _ _ => some (listing k)
    connectGroup := fun k _ _ => (0, fun i => if i = 0 then (k + 1, 0) else (-1, 1001)) }

/-- A library that takes every call, names each new socket `7`, and reads every socket in
the state given for the step. -/
def Libsrt.reading (state : ℕ → SockState) : Libsrt :=
  { Libsrt.refusing with
    createSocket := fun _ => 7
    createGroup := fun _ _ => 7
    setsockflag := fun _ _ _ _ _ => true
    getsockstate := fun k _ _ => state k
    bind := fun _ _ _ => 0
    listenCallback := fun _ _ _ => 0
    listen := fun _ _ _ => 0
    connect := fun _ _ _ => 0
    sendmsg := fun _ _ _ _ => 0
    groupData := fun _ _ _ => some []
    connectGroup := fun _ _ _ => (0, fun i => (8 + i, 0)) }

/-- A member listing; empty when the group is gone. -/
def readGroupRows (lib : Libsrt) (k j : ℕ) (grp : SocketId) : List GroupData :=
  (lib.groupData k j grp).getD []

def Libsrt.status (lib : Libsrt) (k j : ℕ) (id : SocketId) : SocketStatus :=
  rawStateToStatus (lib.getsockstate k j id)

def Libsrt.lastSrtError (lib : Libsrt) (k j : ℕ) : SrtError :=
  .fromCode (lib.getlasterror k j)

def srtGroupMask : ℕ := 30

def isGroupId (id : SocketId) : Bool := decide (0 ≤ id) && id.toNat.testBit srtGroupMask

end SrtBridge
