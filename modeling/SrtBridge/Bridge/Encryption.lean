import SrtBridge.Bridge.Changes

/-! What an `Ok` of `CreateSocket` and `CreateGroup` says of the options the configuration
asks for: no setter looks at what libsrt answers, and one does not even call it. -/

namespace SrtBridge

namespace Bridge

/-- A successful reply comes only with every option accepted that the configuration asks for. -/
def FailsClosed (config : SrtConfig) (reply : ReplyId) (es : List IoEvent) : Prop :=
  ∀ sock, .answered reply (.socket (.ok sock)) ∈ es →
    ∀ call ∈ applyConfig config, .optionSet sock call true ∈ es

def Encrypts (config : SrtConfig) (reply : ReplyId) (es : List IoEvent) : Prop :=
  ∀ sock, .answered reply (.socket (.ok sock)) ∈ es →
    .optionSet sock (.passphrase, .str config.passphrase) true ∈ es

section Opened

variable {lib : Libsrt} {b : Bridge} {config : SrtConfig} {reply : ReplyId} {sock : SocketId}
  {extra : List IoEvent}

def openedEvents (lib : Libsrt) (k : ℕ) (sock : SocketId) (config : SrtConfig) (extra : List IoEvent)
    (reply : ReplyId) : List IoEvent :=
  .created sock :: ((setOpts lib k sock nonBlocking).map fun c => IoEvent.optionSet sock c.1 c.2) ++
    ((setOpts lib k sock (applyConfig config)).map fun c => IoEvent.optionSet sock c.1 c.2) ++
    extra ++ [.answered reply (.socket (.ok sock))]

theorem mem_optionSet {calls : List OptCall} {call : OptCall} {k : ℕ} :
    IoEvent.optionSet sock call true ∈
        ((setOpts lib k sock calls).map fun c => IoEvent.optionSet sock c.1 c.2) ↔
      call ∈ calls ∧ call.2.settable = true ∧ lib.setsockflag k 0 sock call.1 call.2 = true := by
  rw [← mem_setOpts, List.mem_map]
  constructor
  · rintro ⟨⟨call', ok⟩, hmem, heq⟩
    obtain ⟨-, rfl, rfl⟩ := IoEvent.optionSet.inj heq
    exact hmem
  · intro hmem
    exact ⟨_, hmem, rfl⟩

/-- An option the configuration asks for is accepted when it can be handed over and libsrt
accepts it. -/
theorem mem_openedEvents {call : OptCall} {k : ℕ} (hextra : ∀ x ∈ extra, ∃ i, x = .entered i)
    (hcall : call ∈ applyConfig config) :
    .optionSet sock call true ∈ openedEvents lib k sock config extra reply ↔
      call.2.settable = true ∧ lib.setsockflag k 0 sock call.1 call.2 = true := by
  have hno : .optionSet sock call true ∉ extra := by
    intro hmem
    obtain ⟨i, hi⟩ := hextra _ hmem
    cases hi
  simp only [openedEvents, List.mem_append, List.mem_cons, mem_optionSet, reduceCtorEq, hno,
    List.not_mem_nil, or_false, false_or, hcall, true_and]
  exact or_iff_right_of_imp And.right

theorem answered_openedEvents {k : ℕ} {sock' : SocketId} (hextra : ∀ x ∈ extra, ∃ i, x = .entered i) :
    .answered reply (.socket (.ok sock')) ∈ openedEvents lib k sock config extra reply ↔ sock' = sock := by
  have hopts (calls : List OptCall) : .answered reply (.socket (.ok sock')) ∉
      ((setOpts lib k sock calls).map fun c => IoEvent.optionSet sock c.1 c.2) := by
    simp
  have hno : .answered reply (.socket (.ok sock')) ∉ extra := by
    intro hmem
    obtain ⟨i, hi⟩ := hextra _ hmem
    cases hi
  simp [openedEvents, hno]

theorem failsClosed_openedEvents {k : ℕ} (hextra : ∀ x ∈ extra, ∃ i, x = .entered i) :
    FailsClosed config reply (openedEvents lib k sock config extra reply) ↔
      ∀ call ∈ applyConfig config,
        call.2.settable = true ∧ lib.setsockflag k 0 sock call.1 call.2 = true := by
  constructor
  · intro h call hcall
    have hset := h sock ((answered_openedEvents hextra).mpr rfl) call hcall
    exact (mem_openedEvents hextra hcall).mp hset
  · intro h sock' hok call hcall
    obtain rfl := (answered_openedEvents hextra).mp hok
    exact (mem_openedEvents hextra hcall).mpr (h call hcall)

theorem encrypts_openedEvents {k : ℕ} (hextra : ∀ x ∈ extra, ∃ i, x = .entered i)
    (hpass : config.passphrase ≠ []) :
    Encrypts config reply (openedEvents lib k sock config extra reply) ↔
      '\x00' ∉ config.passphrase ∧
        lib.setsockflag k 0 sock .passphrase (.str config.passphrase) = true := by
  have hcall := mem_applyConfig_passphrase hpass
  have hsettable : (OptVal.str config.passphrase).settable = true ↔ '\x00' ∉ config.passphrase := by
    simp [OptVal.settable]
  rw [← hsettable]
  constructor
  · intro h
    exact (mem_openedEvents hextra hcall).mp (h sock ((answered_openedEvents hextra).mpr rfl))
  · intro h sock' hok
    obtain rfl := (answered_openedEvents hextra).mp hok
    exact (mem_openedEvents hextra hcall).mpr h

theorem trace_createSocket (h : 0 ≤ lib.createSocket b.step) :
    (b.createSocket lib config reply).trace.drop b.trace.length =
      openedEvents lib b.step (lib.createSocket b.step) config [] reply := by
  unfold createSocket
  rw [if_neg (not_lt.mpr h)]
  simp only [setOptions, trace_answer, trace_emits, trace_emit, List.append_assoc, List.drop_left,
    openedEvents, List.nil_append, List.cons_append]
  rfl

theorem trace_createGroup {mode : GroupType} (h : 0 ≤ lib.createGroup b.step mode) :
    (b.createGroup lib mode config reply).trace.drop b.trace.length =
      openedEvents lib b.step (lib.createGroup b.step mode) config
        [.entered (lib.createGroup b.step mode)] reply := by
  unfold createGroup
  rw [if_neg (not_lt.mpr h)]
  simp only [setOptions, trace_answer, trace_enter, trace_emits, trace_emit, List.append_assoc,
    List.drop_left, openedEvents, List.nil_append, List.cons_append]
  rfl

theorem trace_refused (config : SrtConfig) {c : Bridge} {err : SrtError}
    (h : c = b.answer reply (.socket (.error err))) :
    FailsClosed config reply (c.trace.drop b.trace.length) ∧
      Encrypts config reply (c.trace.drop b.trace.length) := by
  subst h
  rw [trace_answer, List.drop_left]
  constructor <;> rintro sock hok <;> simp at hok

/-- A creation that is refused, or opens something with the options asked for. -/
theorem created_iff {k : ℕ} {es : List IoEvent} (hextra : ∀ x ∈ extra, ∃ i, x = .entered i)
    (h : (FailsClosed config reply es ∧ Encrypts config reply es) ∧ sock < 0 ∨
      es = openedEvents lib k sock config extra reply ∧ ¬sock < 0) :
    (FailsClosed config reply es ↔ sock < 0 ∨ ∀ call ∈ applyConfig config,
      call.2.settable = true ∧ lib.setsockflag k 0 sock call.1 call.2 = true) ∧
    (config.passphrase ≠ [] → (Encrypts config reply es ↔ sock < 0 ∨ '\x00' ∉ config.passphrase ∧
      lib.setsockflag k 0 sock .passphrase (.str config.passphrase) = true)) := by
  rcases h with ⟨⟨hf, he⟩, hneg⟩ | ⟨rfl, hpos⟩
  · exact ⟨iff_of_true hf (.inl hneg), fun _ => iff_of_true he (.inl hneg)⟩
  · constructor
    · rw [failsClosed_openedEvents hextra, or_iff_right hpos]
    · intro hpass
      rw [encrypts_openedEvents hextra hpass, or_iff_right hpos]

end Opened

/-- `CreateSocket` and `CreateGroup` answer with success only when all the options asked for are
accepted, exactly when libsrt creates nothing, or every value can be handed over and libsrt
accepts every option; and the same of a passphrase that is not empty. -/
theorem create_fails_closed_iff (lib : Libsrt) (b : Bridge) (config : SrtConfig) (mode : GroupType)
    (reply : ReplyId) :
    let socket := lib.createSocket b.step
    let group := lib.createGroup b.step mode
    let socketEvents := (b.createSocket lib config reply).trace.drop b.trace.length
    let groupEvents := (b.createGroup lib mode config reply).trace.drop b.trace.length
    ((FailsClosed config reply socketEvents ↔ socket < 0 ∨ ∀ call ∈ applyConfig config,
        call.2.settable = true ∧ lib.setsockflag b.step 0 socket call.1 call.2 = true) ∧
      (FailsClosed config reply groupEvents ↔ group < 0 ∨ ∀ call ∈ applyConfig config,
        call.2.settable = true ∧ lib.setsockflag b.step 0 group call.1 call.2 = true)) ∧
    (config.passphrase ≠ [] →
      (Encrypts config reply socketEvents ↔ socket < 0 ∨ '\x00' ∉ config.passphrase ∧
        lib.setsockflag b.step 0 socket .passphrase (.str config.passphrase) = true) ∧
      (Encrypts config reply groupEvents ↔ group < 0 ∨ '\x00' ∉ config.passphrase ∧
        lib.setsockflag b.step 0 group .passphrase (.str config.passphrase) = true)) := by
  intro socket group socketEvents groupEvents
  have hsocket : (FailsClosed config reply socketEvents ∧ Encrypts config reply socketEvents) ∧ socket < 0 ∨
      socketEvents = openedEvents lib b.step socket config [] reply ∧ ¬socket < 0 := by
    by_cases h : socket < 0
    · exact .inl ⟨trace_refused config (show b.createSocket lib config reply = _ from if_pos h), h⟩
    · exact .inr ⟨trace_createSocket (not_lt.mp h), h⟩
  have hgroup : (FailsClosed config reply groupEvents ∧ Encrypts config reply groupEvents) ∧ group < 0 ∨
      groupEvents = openedEvents lib b.step group config [.entered group] reply ∧ ¬group < 0 := by
    by_cases h : group < 0
    · exact .inl ⟨trace_refused config (show b.createGroup lib mode config reply = _ from if_pos h), h⟩
    · exact .inr ⟨trace_createGroup (not_lt.mp h), h⟩
  obtain ⟨hsf, hse⟩ := created_iff (by simp) hsocket
  obtain ⟨hgf, hge⟩ := created_iff (by simp) hgroup
  exact ⟨⟨hsf, hgf⟩, fun hpass => ⟨hse hpass, hge hpass⟩⟩

def nulConfig : SrtConfig := { passphrase := ['p', '\x00', 'q'] }

/-- With a library that accepts everything, a socket is opened without the passphrase it was
asked for. -/
theorem create_drops_passphrase :
    let lib := Libsrt.reading fun _ => .init
    let es := (start.createSocket lib nulConfig 0).trace.drop start.trace.length
    .answered 0 (.socket (.ok 7)) ∈ es ∧ ¬Encrypts nulConfig 0 es ∧ ¬FailsClosed nulConfig 0 es := by
  intro lib es
  have hes : es = openedEvents lib 0 7 nulConfig [] 0 :=
    trace_createSocket (by decide : 0 ≤ lib.createSocket start.step)
  have hno : ¬Encrypts nulConfig 0 es := by
    rw [hes, encrypts_openedEvents (by simp) (by decide)]
    exact fun h => h.1 (by decide)
  refine ⟨?_, hno, fun h => hno fun sock hok => ?_⟩
  · rw [hes]
    exact (answered_openedEvents (by simp)).mpr rfl
  · exact h sock hok _ (mem_applyConfig_passphrase (by decide))

end Bridge

end SrtBridge
