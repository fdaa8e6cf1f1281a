import SrtBridge.Bridge.Options

/-! The timeouts, latencies and sizes an application asks a builder for, and the options
in force once they are applied. -/

namespace SrtBridge

def maxDuration : Duration := fromSecs (2 ^ 64 - 1) + 999999999

/-- A setter of the builders, with what it is passed. -/
inductive Setting where
  | latency (d : Duration)
  | senderLatency (d : Duration)
  | receiverLatency (d : Duration)
  | mss (n : UInt32)
  | flightFlagSize (size : UInt32)
  | sendBufferSize (size : UInt32)
  | recvBufferSize (size : UInt32)
  | peerIdleTimeout (timeout : Duration)
  | connectTimeout (timeout : Duration)

def Setting.apply (config : SrtConfig) : Setting → SrtConfig
  | .latency d =>
    let ms := (asMillis d).toUInt32
    { config with recvLatency := ms, peerLatency := ms }
  | .senderLatency d => { config with peerLatency := (asMillis d).toUInt32 }
  | .receiverLatency d => { config with recvLatency := (asMillis d).toUInt32 }
  | .mss n => { config with mss := n }
  | .flightFlagSize size => { config with flightFlagSize := size }
  | .sendBufferSize size => { config with sendBufferSize := size }
  | .recvBufferSize size => { config with recvBufferSize := size }
  | .peerIdleTimeout timeout => { config with peerIdleTimeout := timeout }
  | .connectTimeout timeout => { config with connectTimeout := timeout }

/-- The options a setter is for, each with the value asked for it. -/
def Setting.asks : Setting → List (SockOpt × ℕ)
  | .latency d => [(.rcvlatency, asMillis d), (.peerlatency, asMillis d)]
  | .senderLatency d => [(.peerlatency, asMillis d)]
  | .receiverLatency d => [(.rcvlatency, asMillis d)]
  | .mss n => [(.mss, n.toNat)]
  | .flightFlagSize size => [(.fc, size.toNat)]
  | .sendBufferSize size => [(.sndbuf, size.toNat)]
  | .recvBufferSize size => [(.rcvbuf, size.toNat)]
  | .peerIdleTimeout timeout => [(.peeridletimeo, asMillis timeout)]
  | .connectTimeout timeout => [(.conntimeo, asMillis timeout)]

/-- What a configuration gives for an option, in the option's unit. -/
def SrtConfig.wanted (config : SrtConfig) : SockOpt → ℕ
  | .rcvlatency => config.recvLatency.toNat
  | .peerlatency => config.peerLatency.toNat
  | .mss => config.mss.toNat
  | .fc => config.flightFlagSize.toNat
  | .sndbuf => config.sendBufferSize.toNat
  | .rcvbuf => config.recvBufferSize.toNat
  | .peeridletimeo => asMillis config.peerIdleTimeout
  | .conntimeo => asMillis config.connectTimeout
  | _ => 0

def callsFor (opt : SockOpt) (calls : List OptCall) : List OptCall := calls.filter (·.1 = opt)

/-- The value of an option on a socket that began with the defaults, when every call stores
what it is given. -/
def inForce (config : SrtConfig) (opt : SockOpt) : ℤ :=
  match (callsFor opt (applyConfig config)).getLast? with
  | some (_, .i32 v) => v.toInt
  | _ => SrtConfig.wanted {} opt

/-- The deadline `SrtSocketBuilder::connect` computes; none when the addition overflows. -/
def connectBudget (config : SrtConfig) : Option Duration :=
  if config.connectTimeout + fromSecs 2 ≤ maxDuration then some (config.connectTimeout + fromSecs 2)
  else none

/-- The value asked for an option is in force if it fits in 32 bits, else the option is not set. -/
def Honoured (config : SrtConfig) (opt : SockOpt) (value : ℕ) : Prop :=
  if value < 2 ^ 31 then inForce config opt = value else callsFor opt (applyConfig config) = []

/-- The deadline is above the connect timeout in force. -/
def OutlastsConnect (config : SrtConfig) : Prop :=
  ∃ budget ∈ connectBudget config, fromMillis (inForce config .conntimeo).toNat < budget

/-- A setter does what it is asked, and a connect timeout leaves a deadline above it. -/
def Setting.Kept (config : SrtConfig) (setting : Setting) : Prop :=
  (∀ ask ∈ setting.asks, Honoured (setting.apply config) ask.1 ask.2) ∧
    ∀ timeout, setting = .connectTimeout timeout → OutlastsConnect (setting.apply config)

/-- The low 32 bits of a number that does not fit. -/
def low32 (n : ℕ) : ℕ := n % 2 ^ 32

def Setting.harmless : Setting → Prop
  | .latency d | .receiverLatency d =>
    asMillis d ≠ 0 ∧ (asMillis d < 2 ^ 31 ∨ low32 (asMillis d) = 0)
  | .senderLatency d => asMillis d < 2 ^ 31 ∨ low32 (asMillis d) = 0
  | .mss size | .flightFlagSize size | .sendBufferSize size | .recvBufferSize size => size.toNat < 2 ^ 31
  | .peerIdleTimeout timeout =>
    asMillis timeout ≠ 0 ∧ (asMillis timeout < 2 ^ 31 ∨ low32 (asMillis timeout) = 0 ∨
      2 ^ 31 ≤ low32 (asMillis timeout))
  | .connectTimeout timeout =>
    (asMillis timeout ≠ 0 ∧ (asMillis timeout < 2 ^ 31 ∨ low32 (asMillis timeout) = 0 ∨
      2 ^ 31 ≤ low32 (asMillis timeout))) ∧ timeout + fromSecs 2 ≤ maxDuration

section Calls

variable {config : SrtConfig} {opt : SockOpt} {c : Bool} {call : OptCall} {calls : List OptCall}

theorem callsFor_append (calls calls' : List OptCall) :
    callsFor opt (calls ++ calls') = callsFor opt calls ++ callsFor opt calls' := List.filter_append ..

theorem callsFor_callsIf : callsFor opt (callsIf c calls) = callsIf c (callsFor opt calls) := by
  cases c <;> rfl

theorem callsIf_nil : callsIf c [] = [] := by
  cases c <;> rfl

theorem callsFor_cons : callsFor opt (call :: calls) =
    if call.1 = opt then call :: callsFor opt calls else callsFor opt calls := by
  simp [callsFor, List.filter_cons]

theorem callsFor_nil : callsFor opt [] = [] := rfl

variable (config)

theorem callsFor_applyConfig :
    callsFor .rcvlatency (applyConfig config) =
        callsIf (0 < config.recvLatency) [(.rcvlatency, .i32 config.recvLatency.toInt32)] ∧
      callsFor .peerlatency (applyConfig config) =
        callsIf (0 < config.peerLatency) [(.peerlatency, .i32 config.peerLatency.toInt32)] ∧
      callsFor .mss (applyConfig config) = callsIf (config.mss ≠ 1500) [(.mss, .i32 config.mss.toInt32)] ∧
      callsFor .fc (applyConfig config) =
        callsIf (config.flightFlagSize ≠ 25600) [(.fc, .i32 config.flightFlagSize.toInt32)] ∧
      callsFor .sndbuf (applyConfig config) =
        callsIf (config.sendBufferSize ≠ 8192 * 1316) [(.sndbuf, .i32 config.sendBufferSize.toInt32)] ∧
      callsFor .rcvbuf (applyConfig config) =
        callsIf (config.recvBufferSize ≠ 8192 * 1316) [(.rcvbuf, .i32 config.recvBufferSize.toInt32)] ∧
      callsFor .peeridletimeo (applyConfig config) =
        callsIf (0 < (asMillis config.peerIdleTimeout).toInt32)
          [(.peeridletimeo, .i32 (asMillis config.peerIdleTimeout).toInt32)] ∧
      callsFor .conntimeo (applyConfig config) =
        callsIf (0 < (asMillis config.connectTimeout).toInt32)
          [(.conntimeo, .i32 (asMillis config.connectTimeout).toInt32)] := by
  refine ⟨?_, ?_, ?_, ?_, ?_, ?_, ?_, ?_⟩ <;>
    simp only [applyConfig, transportCalls, encryptionCalls, bandwidthCalls, pathCalls, deliveryCalls,
      callsFor_append, callsFor_callsIf, callsFor_cons, callsFor_nil, callsIf_nil, reduceCtorEq, if_false,
      if_true, List.append_nil, List.nil_append]

end Calls

section Words

theorem toInt_toInt32 (n : UInt32) :
    n.toInt32.toInt = if n.toNat < 2 ^ 31 then (n.toNat : ℤ) else n.toNat - 2 ^ 32 := by
  have hn := n.toNat_lt
  have hmod : n.toInt32.toInt = (n.toNat : ℤ).bmod (2 ^ 32) := BitVec.toInt_eq_toNat_bmod _
  rw [hmod, Int.bmod_def]
  split_ifs <;> omega

theorem toInt_cutOff (n : ℕ) :
    n.toInt32.toInt = if low32 n < 2 ^ 31 then (low32 n : ℤ) else low32 n - 2 ^ 32 := by
  have hmod : n.toInt32.toInt = (n : ℤ).bmod (2 ^ 32) := Int32.toInt_ofNat'
  rw [hmod, Int.bmod_def, low32]
  split_ifs <;> omega

theorem toNat_cutOff (n : ℕ) : n.toUInt32.toNat = low32 n := rfl

theorem cutOff_pos {n : ℕ} : 0 < n.toInt32 ↔ low32 n ≠ 0 ∧ low32 n < 2 ^ 31 := by
  rw [Int32.lt_iff_toInt_lt, toInt_cutOff]
  have hzero : (0 : Int32).toInt = 0 := rfl
  have hlt : low32 n < 2 ^ 32 := Nat.mod_lt _ (by decide)
  rw [hzero]
  split_ifs <;> omega

end Words

section Kept

variable {config : SrtConfig} {opt : SockOpt} {c : Bool} {v : Int32} {value : ℕ}

/-- An option that is set if `c`, and to `v`, is as asked for. -/
theorem honoured_iff (h : callsFor opt (applyConfig config) = callsIf c [(opt, .i32 v)]) :
    Honoured config opt value ↔
      if value < 2 ^ 31 then (if c then v.toInt else SrtConfig.wanted {} opt) = value else c = false := by
  unfold Honoured inForce
  rw [h]
  cases c <;> simp [callsIf]

theorem inForce_eq (h : callsFor opt (applyConfig config) = callsIf c [(opt, .i32 v)]) :
    inForce config opt = if c then v.toInt else SrtConfig.wanted {} opt := by
  unfold inForce
  rw [h]
  cases c <;> rfl

/-- A latency that is set unless its low bits are zero. -/
theorem honoured_latency {n : ℕ} {w : UInt32} (hw : w = n.toUInt32)
    (h : callsFor opt (applyConfig config) = callsIf (0 < w) [(opt, .i32 w.toInt32)]) :
    Honoured config opt n ↔
      (n = 0 → SrtConfig.wanted {} opt = 0) ∧ (n < 2 ^ 31 ∨ low32 n = 0) := by
  subst hw
  have hpos : 0 < n.toUInt32 ↔ low32 n ≠ 0 := by
    rw [UInt32.lt_iff_toNat_lt, toNat_cutOff]
    exact Nat.pos_iff_ne_zero
  rw [honoured_iff h, toInt_toInt32, toNat_cutOff]
  simp only [decide_eq_true_eq, decide_eq_false_iff_not, hpos]
  have hlow : low32 n = n % 2 ^ 32 := rfl
  split_ifs <;> omega

theorem honoured_size {w d : UInt32} (hd : SrtConfig.wanted {} opt = d.toNat)
    (h : callsFor opt (applyConfig config) = callsIf (w ≠ d) [(opt, .i32 w.toInt32)]) (hlt : d.toNat < 2 ^ 31) :
    Honoured config opt w.toNat ↔ w.toNat < 2 ^ 31 := by
  have hne : w ≠ d ↔ w.toNat ≠ d.toNat := by rw [ne_eq, ← UInt32.toNat_inj]
  rw [honoured_iff h, toInt_toInt32, hd]
  simp only [decide_eq_true_eq, decide_eq_false_iff_not, hne]
  split_ifs <;> omega

/-- A timeout that is set when it is positive as a 32-bit number. -/
theorem honoured_timeout {n : ℕ} (hd : SrtConfig.wanted {} opt ≠ 0)
    (h : callsFor opt (applyConfig config) = callsIf (0 < n.toInt32) [(opt, .i32 n.toInt32)]) :
    Honoured config opt n ↔ n ≠ 0 ∧ (n < 2 ^ 31 ∨ low32 n = 0 ∨ 2 ^ 31 ≤ low32 n) := by
  rw [honoured_iff h, toInt_cutOff]
  simp only [decide_eq_true_eq, decide_eq_false_iff_not, cutOff_pos]
  have hlow : low32 n = n % 2 ^ 32 := rfl
  split_ifs <;> omega

/-- A connect timeout that is honoured leaves a deadline above it, unless that overflows. -/
theorem outlastsConnect_iff
    (h : callsFor .conntimeo (applyConfig config) = callsIf (0 < (asMillis config.connectTimeout).toInt32)
      [(.conntimeo, .i32 (asMillis config.connectTimeout).toInt32)])
    (hk : Honoured config .conntimeo (asMillis config.connectTimeout)) :
    OutlastsConnect config ↔ config.connectTimeout + fromSecs 2 ≤ maxDuration := by
  set d := config.connectTimeout with hd
  have hms : asMillis d = d / 1000000 := rfl
  have hforce : fromMillis (inForce config .conntimeo).toNat < d + fromSecs 2 := by
    obtain ⟨hne, hfit⟩ := (honoured_timeout (by decide) h).mp hk
    have hlow : low32 (asMillis d) = asMillis d % 2 ^ 32 := rfl
    have hdefault : SrtConfig.wanted {} .conntimeo = 3000 := rfl
    rw [inForce_eq h, toInt_cutOff, hdefault]
    simp only [decide_eq_true_eq, cutOff_pos, fromMillis, fromSecs]
    show @LT.lt ℕ _ _ _
    split_ifs <;> omega
  unfold OutlastsConnect connectBudget
  constructor
  · rintro ⟨budget, hb, -⟩
    by_contra hover
    rw [if_neg hover] at hb
    cases hb
  · intro hfits
    exact ⟨d + fromSecs 2, by rw [if_pos hfits]; rfl, hforce⟩

end Kept

/-- A setter's value is in force, or not set where it does not fit, and a connect timeout leaves a
deadline above it, exactly when: a latency for the receiver or a timeout is not below a millisecond,
what does not fit in 32 bits has no low bits that pass for a value, and the deadline does not
overflow. -/
theorem setting_kept_iff (config : SrtConfig) (setting : Setting) :
    setting.Kept config ↔ setting.harmless := by
  have hnone {s : Setting} {d : Duration} (h : ∀ t, s ≠ .connectTimeout t) :
      ∀ timeout, s = .connectTimeout timeout → OutlastsConnect (s.apply config) :=
    fun t ht => absurd ht (h t)
  obtain ⟨hrcv, hpeer, hmss, hfc, hsnd, hrbuf, hidle, hconn⟩ := callsFor_applyConfig (setting.apply config)
  have hdefaults : SrtConfig.wanted {} .rcvlatency ≠ 0 ∧ SrtConfig.wanted {} .peerlatency = 0 := by decide
  unfold Setting.Kept
  cases setting with
  | latency d =>
    have hr := honoured_latency (n := asMillis d) rfl hrcv
    have hp := honoured_latency (n := asMillis d) rfl hpeer
    simp only [Setting.asks, List.forall_mem_cons, hr, hp, Setting.harmless, reduceCtorEq, false_implies,
      implies_true, and_true]
    constructor
    · rintro ⟨⟨hz, hfit⟩, -⟩
      exact ⟨fun hd => hdefaults.1 (hz hd), hfit⟩
    · rintro ⟨hne, hfit⟩
      exact ⟨⟨fun hd => absurd hd hne, hfit⟩, ⟨fun _ => hdefaults.2, hfit⟩, by simp⟩
  | senderLatency d =>
    have hp := honoured_latency (n := asMillis d) rfl hpeer
    simp only [Setting.asks, List.forall_mem_cons, hp, Setting.harmless, reduceCtorEq, false_implies,
      implies_true, and_true]
    constructor
    · rintro ⟨⟨-, hfit⟩, -⟩
      exact hfit
    · intro hfit
      exact ⟨⟨fun _ => hdefaults.2, hfit⟩, by simp⟩
  | receiverLatency d =>
    have hr := honoured_latency (n := asMillis d) rfl hrcv
    simp only [Setting.asks, List.forall_mem_cons, hr, Setting.harmless, reduceCtorEq, false_implies,
      implies_true, and_true]
    constructor
    · rintro ⟨⟨hz, hfit⟩, -⟩
      exact ⟨fun hd => hdefaults.1 (hz hd), hfit⟩
    · rintro ⟨hne, hfit⟩
      exact ⟨⟨fun hd => absurd hd hne, hfit⟩, by simp⟩
  | mss n =>
    have hs := honoured_size (w := n) rfl hmss (by decide)
    simpa [Setting.asks, Setting.harmless] using hs
  | flightFlagSize n =>
    have hs := honoured_size (w := n) rfl hfc (by decide)
    simpa [Setting.asks, Setting.harmless] using hs
  | sendBufferSize n =>
    have hs := honoured_size (w := n) rfl hsnd (by decide)
    simpa [Setting.asks, Setting.harmless] using hs
  | recvBufferSize n =>
    have hs := honoured_size (w := n) rfl hrbuf (by decide)
    simpa [Setting.asks, Setting.harmless] using hs
  | peerIdleTimeout t =>
    have ht := honoured_timeout (n := asMillis t) (by decide) hidle
    simpa [Setting.asks, Setting.harmless] using ht
  | connectTimeout t =>
    have ht := honoured_timeout (n := asMillis t) (by decide) hconn
    simp only [Setting.asks, List.forall_mem_cons, Setting.connectTimeout.injEq, forall_eq', Setting.harmless]
    constructor
    · rintro ⟨⟨hk, -⟩, hout⟩
      exact ⟨ht.mp hk, (outlastsConnect_iff hconn hk).mp hout⟩
    · rintro ⟨hfit, hover⟩
      exact ⟨⟨ht.mpr hfit, by simp⟩, (outlastsConnect_iff hconn (ht.mpr hfit)).mpr hover⟩

/-- A connect timeout of zero leaves the default of three seconds in force, and a deadline of two;
a latency of zero leaves the default of 120 ms; one that does not fit is set to its low bits. -/
theorem settings_lost :
    ¬(Setting.connectTimeout 0).Kept {} ∧
      inForce ((Setting.connectTimeout 0).apply {}) .conntimeo = 3000 ∧
      connectBudget ((Setting.connectTimeout 0).apply {}) = some (fromSecs 2) ∧
      inForce ((Setting.receiverLatency 0).apply {}) .rcvlatency = 120 ∧
      inForce ((Setting.receiverLatency (fromMillis (2 ^ 32 + 5))).apply {}) .rcvlatency = 5 := by
  refine ⟨fun h => ?_, by decide +kernel, by decide +kernel, by decide +kernel, by decide +kernel⟩
  have hzero : Honoured _ .conntimeo 0 := h.1 _ (List.mem_singleton_self _)
  have hforce : inForce ((Setting.connectTimeout 0).apply {}) .conntimeo = 0 := by
    simpa [Honoured] using hzero
  exact absurd hforce (by decide +kernel)

end SrtBridge
