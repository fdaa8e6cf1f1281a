import SrtBridge.Libsrt.Calls

/-! The socket options a configuration asks for. `applyConfig` lists the option
calls in the order they are made; each goes through one of four setters, none of
which looks at what libsrt answers. -/

namespace SrtBridge

abbrev OptCall := SockOpt × OptVal

def callsIf (c : Bool) (calls : List OptCall) : List OptCall := if c then calls else []

def transportCalls (config : SrtConfig) : List OptCall :=
  let peerIdleMs : Int32 := (asMillis config.peerIdleTimeout).toInt32
  let connTimeoutMs : Int32 := (asMillis config.connectTimeout).toInt32
  [(.transtype, .i32 (match config.transType with | .live => 0 | .file => 1))] ++
  callsIf (0 < config.recvLatency) [(.rcvlatency, .i32 config.recvLatency.toInt32)] ++
  callsIf (0 < config.peerLatency) [(.peerlatency, .i32 config.peerLatency.toInt32)] ++
  callsIf (config.mss ≠ 1500) [(.mss, .i32 config.mss.toInt32)] ++
  callsIf (config.flightFlagSize ≠ 25600) [(.fc, .i32 config.flightFlagSize.toInt32)] ++
  callsIf (config.sendBufferSize ≠ 8192 * 1316) [(.sndbuf, .i32 config.sendBufferSize.toInt32)] ++
  callsIf (config.recvBufferSize ≠ 8192 * 1316) [(.rcvbuf, .i32 config.recvBufferSize.toInt32)] ++
  callsIf (0 < peerIdleMs) [(.peeridletimeo, .i32 peerIdleMs)] ++
  callsIf (0 < connTimeoutMs) [(.conntimeo, .i32 connTimeoutMs)] ++
  callsIf (0 < config.payloadSize) [(.payloadsize, .i32 config.payloadSize.toInt32)]

def encryptionCalls (config : SrtConfig) : List OptCall :=
  callsIf (config.passphrase ≠ [])
    ([(.passphrase, .str config.passphrase), (.pbkeylen, .i32 config.keySize.bytes.toInt32)] ++
      callsIf (config.cryptoMode = .aesGcm) [(.cryptomode, .i32 2)]) ++
  [(.enforcedencryption, .bool config.enforcedEncryption)]

def bandwidthCalls (config : SrtConfig) : List OptCall :=
  callsIf (0 ≤ config.maxBw) [(.maxbw, .i64 config.maxBw)] ++
  callsIf (0 < config.inputBw) [(.inputbw, .i64 config.inputBw)] ++
  callsIf (config.overheadBw ≠ 25) [(.oheadbw, .i32 config.overheadBw)] ++
  callsIf (config.maxRexmitBw ≠ -1) [(.maxrexmitbw, .i64 config.maxRexmitBw)]

/-- Stream ID, packet filter and IP options. -/
def pathCalls (config : SrtConfig) : List OptCall :=
  callsIf (config.streamId ≠ []) [(.streamid, .str config.streamId)] ++
  callsIf (config.packetFilter ≠ []) [(.packetfilter, .str config.packetFilter)] ++
  callsIf (config.ipTos ≠ 0) [(.iptos, .i32 config.ipTos)] ++
  callsIf (config.ipTtl ≠ 64) [(.ipttl, .i32 config.ipTtl)]

/-- Retransmission, key refresh, drop and the way of connecting. -/
def deliveryCalls (config : SrtConfig) : List OptCall :=
  callsIf (config.retransmitAlgo = .reduced) [(.retransmitalgo, .i32 1)] ++
  callsIf (config.sendDropDelay ≠ -1) [(.snddropdelay, .i32 config.sendDropDelay)] ++
  callsIf (0 < config.lossMaxTtl) [(.lossmaxttl, .i32 config.lossMaxTtl)] ++
  callsIf (config.kmRefreshRate ≠ 0x01000000) [(.kmrefreshrate, .i32 config.kmRefreshRate.toInt32)] ++
  callsIf (config.kmPreAnnounce ≠ 0x1000) [(.kmpreannounce, .i32 config.kmPreAnnounce.toInt32)] ++
  [(.tlpktdrop, .bool config.tlpktDrop)] ++
  callsIf config.rendezvous [(.rendezvous, .bool true)] ++
  callsIf config.groupConnect [(.groupconnect, .bool true)]

/-- The options `apply_config` asks libsrt to set, in order. -/
def applyConfig (config : SrtConfig) : List OptCall :=
  transportCalls config ++ encryptionCalls config ++ bandwidthCalls config ++ pathCalls config ++
    deliveryCalls config

/-- What one setter does: the call it makes and libsrt's answer, or nothing for a string
that cannot become a C string. -/
def setOpt (lib : Libsrt) (k : ℕ) (sock : SocketId) (call : OptCall) : Option (OptCall × Bool) :=
  match call.2 with
  | .str s => if '\x00' ∈ s then none else some (call, lib.setsockflag k 0 sock call.1 call.2)
  | _ => some (call, lib.setsockflag k 0 sock call.1 call.2)

/-- The option calls a list of settings comes to, with libsrt's answers. -/
def setOpts (lib : Libsrt) (k : ℕ) (sock : SocketId) (calls : List OptCall) :
    List (OptCall × Bool) :=
  calls.filterMap (setOpt lib k sock)

/-- The bridge's sockets do not block. -/
def nonBlocking : List OptCall := [(.rcvsyn, .bool false), (.sndsyn, .bool false)]

/-- The value can be handed to libsrt as a C string or a number. -/
def OptVal.settable : OptVal → Bool
  | .str s => '\x00' ∉ s
  | _ => true

section SetOpts

variable {lib : Libsrt} {k : ℕ} {sock : SocketId} {call : OptCall} {calls : List OptCall}

theorem setOpt_eq : setOpt lib k sock call =
    if call.2.settable then some (call, lib.setsockflag k 0 sock call.1 call.2) else none := by
  obtain ⟨opt, v⟩ := call
  cases v <;> simp [setOpt, OptVal.settable]

/-- An option is set when its value can be handed over and libsrt accepts it. -/
theorem mem_setOpts : (call, true) ∈ setOpts lib k sock calls ↔
    call ∈ calls ∧ call.2.settable = true ∧ lib.setsockflag k 0 sock call.1 call.2 = true := by
  simp only [setOpts, List.mem_filterMap, setOpt_eq]
  constructor
  · rintro ⟨c, hc, h⟩
    split_ifs at h with hs
    obtain ⟨rfl, ha⟩ := Prod.mk.inj (Option.some.inj h)
    exact ⟨hc, hs, ha⟩
  · rintro ⟨hc, hs, ha⟩
    exact ⟨call, hc, by rw [if_pos hs, ha]⟩

/-- A passphrase is among what its configuration asks for. -/
theorem mem_applyConfig_passphrase {config : SrtConfig} (h : config.passphrase ≠ []) :
    (.passphrase, .str config.passphrase) ∈ applyConfig config := by
  have hmem : (.passphrase, .str config.passphrase) ∈ encryptionCalls config := by
    simp [encryptionCalls, callsIf, h]
  simp only [applyConfig, List.mem_append]
  tauto

end SetOpts

end SrtBridge
