import Mathlib.Tactic

/-! What a connection is configured with, and where it goes. Durations and
instants are in nanoseconds of the monotonic clock; text is its list of
characters. `SrtConfig` holds the fields the bridge passes on to libsrt. -/

namespace SrtBridge

abbrev Instant := ℕ
abbrev Duration := ℕ
abbrev Text := List Char
abbrev Bytes := List UInt8

def fromMillis (ms : ℕ) : Duration := ms * 1000000
def fromSecs (s : ℕ) : Duration := s * 1000000000

def asMillis (d : Duration) : ℕ := d / 1000000

inductive SocketAddr where
  | v4 (ip : BitVec 32) (port : BitVec 16)
  | v6 (ip : BitVec 128) (port : BitVec 16) (flowinfo scopeId : BitVec 32)
  deriving DecidableEq, Repr

def SocketAddr.isIpv4 : SocketAddr → Bool
  | .v4 _ _ => true
  | .v6 _ _ _ _ => false

inductive TransType where
  | live | file
  deriving DecidableEq, Repr

inductive CryptoModeConfig where
  | aesCtr | aesGcm
  deriving DecidableEq, Repr

inductive KeySize where
  | aes128 | aes192 | aes256
  deriving DecidableEq, Repr

def KeySize.bytes : KeySize → ℕ
  | .aes128 => 16
  | .aes192 => 24
  | .aes256 => 32

inductive RetransmitAlgo where
  | default | reduced
  deriving DecidableEq, Repr

structure SrtConfig where
  mss : UInt32 := 1500
  flightFlagSize : UInt32 := 25600
  sendBufferSize : UInt32 := 8192 * 1316
  recvBufferSize : UInt32 := 8192 * 1316
  connectTimeout : Duration := fromSecs 3
  rendezvous : Bool := false
  ipTtl : Int32 := 64
  ipTos : Int32 := 0
  peerIdleTimeout : Duration := fromSecs 5
  transType : TransType := .live
  payloadSize : UInt32 := 1316
  maxBw : Int64 := -1
  inputBw : Int64 := 0
  overheadBw : Int32 := 25
  maxRexmitBw : Int64 := -1
  recvLatency : UInt32 := 120
  peerLatency : UInt32 := 0
  tlpktDrop : Bool := true
  sendDropDelay : Int32 := -1
  lossMaxTtl : Int32 := 0
  passphrase : Text := []
  keySize : KeySize := .aes128
  cryptoMode : CryptoModeConfig := .aesCtr
  enforcedEncryption : Bool := true
  kmRefreshRate : UInt32 := 0x01000000
  kmPreAnnounce : UInt32 := 0x1000
  streamId : Text := []
  packetFilter : Text := []
  retransmitAlgo : RetransmitAlgo := .default
  groupConnect : Bool := false
  deriving DecidableEq

inductive GroupType where
  | broadcast | backup
  deriving DecidableEq, Repr

/-- The greatest member weight libsrt accepts. -/
def maxGroupMemberWeight : UInt16 := 32767

/-- One member link of a group: target, optional source, weight and token. -/
structure GroupEndpoint where
  addr : SocketAddr
  localAddr : Option SocketAddr
  weight : UInt16
  token : ℤ
  deriving DecidableEq

end SrtBridge
