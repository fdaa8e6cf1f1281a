import SrtBridge.Bridge.Loop

/-! What one step of the I/O thread can do to the map, its channels and the record of
what it did: a transition system of small moves, which every step of the thread is a
sequence of. An invariant is proved over the moves, never over the code of a step. -/

namespace SrtBridge

open General

def IoEvent.subject : IoEvent → Option SocketId
  | .created id | .optionSet id _ _ | .bound id _ | .armed id _ _ | .listening id _ | .connecting id
  | .accepted _ id | .subscribed id | .unsubscribed id | .closed id | .entered id
  | .registered id _ _ | .recorded id _ | .released id | .took id _ | .sent id _ _ | .member id _ =>
    some id
  | .answered _ _ | .unanswered _ => none

/-- An event that leaves the map of entries as it is. -/
def IoEvent.isNote : IoEvent → Bool
  | .entered _ | .registered _ _ _ | .recorded _ _ | .released _ => false
  | _ => true

/-- A note of a call to libsrt that no other part of the state depends on. -/
def IoEvent.isPlain : IoEvent → Bool
  | .created _ | .optionSet _ _ _ | .bound _ _ | .connecting _ | .unsubscribed _ | .closed _
  | .member _ _ => true
  | _ => false

def IoEvent.isReply : IoEvent → Bool
  | .answered _ _ | .unanswered _ => true
  | _ => false

/-- The event makes an entry of `id`, or takes it out of the map. -/
def IoEvent.turns (id : SocketId) : IoEvent → Bool
  | .entered i | .released i => i = id
  | _ => false

def IoCommand.reply : IoCommand → Option ReplyId
  | .createSocket _ r | .bind _ _ r | .listen _ _ r | .connect _ _ r | .getStats _ r | .getState _ r
  | .getPeerAddr _ r | .getLocalAddr _ r | .getStreamId _ r | .createGroup _ _ r
  | .connectGroup _ _ r | .addGroupMember _ _ r | .getGroupMemberStats _ r => some r
  | .registerSocket .. | .registerListener .. | .close _ | .shutdown => none

namespace Bridge

def channels (b : Bridge) :
    (ChannelId → Mpsc SocketId) × (ChannelId → Mpsc ReceivedPacket) × (ChannelId → Mpsc Bytes) :=
  (b.accepts, b.packets, b.sends)

section Changes

variable (lib : Libsrt) (s : IoStep) (n : ℕ) (e₀ : Option SocketState) (id : SocketId)

inductive Subscribes : Prop
  | listen {backlog reply} (hs : s = .command (.listen id backlog reply))
  | connect {addr reply} (hs : s = .command (.connect id addr reply))
  | join {eps reply} (hs : s = .command (.connectGroup id eps reply))
      (hr : (SrtBridge.connectGroup lib n 0 id eps).refused = none)
  | accept {listener flags} (hs : s = .event listener flags) (hid : lib.accept n listener = id)

/-- Why an entry is made; `e` is the one it takes the place of, if any. -/
inductive Enters : Option SocketState → SocketState → Prop
  | socket {r d t} (hs : s = .command (.registerSocket id r d t)) (h₀ : e₀ = none) :
      Enters none .fresh
  | listener {c a} (hs : s = .command (.registerListener id c a)) (h₀ : e₀ = none) :
      Enters none .freshListener
  | group {mode config reply e} (hs : s = .command (.createGroup mode config reply))
      (hid : lib.createGroup n mode = id) (h₀ : e = e₀) (hpos : 0 ≤ id) :
      Enters e (.freshGroup (mode = .backup))

/-- Why the status `q` is recorded in the entry `e`, which was `e₀` when the step began. -/
inductive Cause (e : SocketState) : SocketStatus → Prop
  | registered {r d t} (hs : s = .command (.registerSocket id r d t)) (hg : e.isGroup = false)
      (h₀ : e = { e₀.getD .fresh with recvTx := some r, sendRx := some d, statusTx := some t }) :
      Cause e (lib.status n 0 id)
  | connected {addr reply} (hs : s = .command (.connect id addr reply)) (h₀ : e₀ = some e)
      (ha : ¬(lib.connect n id addr < 0 ∧ lib.lastSrtError n 0 ≠ .asyncFail))
      (hq : lib.getsockstate n 0 id = .connected) : Cause e .connected
  | joined {eps reply} (hs : s = .command (.connectGroup id eps reply))
      (hr : (SrtBridge.connectGroup lib n 0 id eps).refused = none)
      (h₀ : e₀.map SocketState.lastStatus = some e.lastStatus) : Cause e .connected
  | errored {flags} (hs : s = .event id flags) (hf : flags.err = true)
      (hi : ¬(e₀.any SocketState.isListener = true ∧ flags.inp = true))
      (hg : e.isGroup = true → groupErrIsReal lib n id = true)
      (hc : flags.connect = true → e.connectReply = none)
      (h₀ : flags.connect = false → ∃ l, e₀ = some { e with sendBacklog := l }) : Cause e .broken
  | recovered (hs : s = .check id) (h : e.lastStatus = .connecting) : Cause e .connected
  | polled (hs : s = .poll id) (h₀ : e₀ = some e) (hg : ¬(e.isGroup = true ∧ e.lastStatus = .init))
      (hn : lib.status n 0 id ≠ e.lastStatus) : Cause e (lib.status n 0 id)

/-- What becomes of the connect that waits on an entry that is closed. -/
inductive Closes (e : SocketState) : List IoEvent → Prop
  | listen {backlog reply} (hs : s = .command (.listen id backlog reply)) :
      Closes e (e.connectReply.map .unanswered).toList
  | close (hs : s = .command (.close id)) :
      Closes e (e.connectReply.map (.answered · (.done (.error .socketClosed)))).toList
  | shutdown (hs : s = .command .shutdown) :
      Closes e (e.connectReply.map (.answered · (.done (.error .socketClosed)))).toList
  | reaped (hs : s = .cleanup) (ht : isTerminalStatus e.lastStatus = true)
      (hl : e.isListener = false) (hg : e.isGroup = false) (h₀ : e₀ = some e) :
      Closes e (e.connectReply.map (.answered · (.done (.error .connectionLost)))).toList

/-- A change of the entry of `id`, which was `e₀` when step `s` began, and the events it
comes with. -/
inductive Change : Option SocketState → Option SocketState → List IoEvent → Prop
  | enter {e fresh} (h : Enters lib s n e₀ id e fresh) : Change e (some fresh) [.entered id]
  | register {e r d t} (hs : s = .command (.registerSocket id r d t)) :
      Change (some e) (some { e with recvTx := some r, sendRx := some d, statusTx := some t })
        [.registered id r d]
  | provide {e c a} (hs : s = .command (.registerListener id c a))
      (h₀ : e = e₀.getD .freshListener) :
      Change (some e) (some { e with acceptTx := some c, accessControl := a.or e.accessControl }) []
  | record {e q} (h : Cause lib s n e₀ id e q) :
      Change (some e) (some (e.updateStatus q)) [.recorded id q]
  | listen {e backlog reply} (hs : s = .command (.listen id backlog reply)) (h₀ : e₀ = some e)
      (ha : ∀ slot, e.accessControl = some slot → 0 ≤ lib.listenCallback n id slot)
      (hl : 0 ≤ lib.listen n id backlog) :
      Change (some e) (some ({ e with isListener := true }.updateStatus .listening))
        [.recorded id .listening]
  | await {e addr reply} (hs : s = .command (.connect id addr reply)) (h₀ : e₀ = some e)
      (ha : ¬(lib.connect n id addr < 0 ∧ lib.lastSrtError n 0 ≠ .asyncFail))
      (hq : lib.getsockstate n 0 id ∈ [.connecting, .opened, .init]) :
      Change (some e) (some ({ e with connectReply := some reply }.updateStatus .connecting))
        ((e.connectReply.map .unanswered).toList ++ [.recorded id .connecting])
  | complete {e flags reply result q} (hs : s = .event id flags) (hf : flags.connect = true)
      (hi : ¬(e.isListener = true ∧ flags.inp = true)) (h₀ : e₀ = some e)
      (hr : e.connectReply = some reply)
      (hq : lib.getsockstate n 0 id = .connected ∧ q = .connected ∧ result = .ok () ∨
        lib.getsockstate n 0 id ≠ .connected ∧ q = .broken ∧ ∃ err, result = .error err) :
      Change (some e) (some ({ e with connectReply := none }.updateStatus q))
        [.answered reply (.done result), .recorded id q]
  | fail {e reply err} (hs : s = .poll id) (hr : e.connectReply = some reply)
      (hq : e.lastStatus = .broken ∨ e.lastStatus = .closed) :
      Change (some e) (some { e with connectReply := none }) [.answered reply (.done (.error err))]
  | watch {e ws es} (hes : ∀ x ∈ es, ∃ m, x = .member id m)
      (hg : ws ≠ [] → e.watched ≠ [] ∨ e.isGroup = true) :
      Change (some e) (some { e with watched := ws }) es
  | close {e pre post} (hpre : ∀ x ∈ pre, x.isPlain = true) (h : Closes s e₀ id e post) :
      Change (some e) none (pre ++ .closed id :: .released id :: post)

/-- One move of the thread within step `s`, which began in `b₀`. -/
inductive Moved (b₀ : Bridge) : Bridge → Bridge → Prop
  | note {b b' es} (hes : ∀ x ∈ es, x.isPlain = true) (he : ∀ i, b'.entry i = b.entry i)
      (ht : b'.trace = b.trace ++ es) (hc : b'.channels = b.channels) : Moved b₀ b b'
  | answer {b cmd reply x} (hs : s = .command cmd) (hr : cmd.reply = some reply)
      (hx : x = .unanswered reply ∨ ∃ a, x = .answered reply a) : Moved b₀ b (b.emit x)
  | arm {b id backlog reply slot} (hs : s = .command (.listen id backlog reply))
      (h : b.accessSlot id = some slot) (ok : Bool) : Moved b₀ b (b.emit (.armed id slot ok))
  | subscribe {b id} (h : Subscribes lib s b₀.step id) : Moved b₀ b (b.emit (.subscribed id))
  | listening {b id backlog reply} (hs : s = .command (.listen id backlog reply)) (ok : Bool) :
      Moved b₀ b (b.emit (.listening id ok))
  | change {b b' i new es} (h : Change lib s b₀.step (b₀.entry i) i (b.entry i) new es)
      (he : ∀ i', b'.entry i' = if i' = i then new else b.entry i') (ht : b'.trace = b.trace ++ es)
      (hc : b'.channels = b.channels) : Moved b₀ b b'
  | take {b id} (hs : (∃ flags, s = .event id flags) ∨ s = .sweep id) (packet : ReceivedPacket) :
      Moved b₀ b (b.deliver id packet)
  | send {b id} (hs : (∃ flags, s = .event id flags) ∨ s = .drain id) : Moved b₀ b (b.handleSend lib id)
  | accepted {b listener id flags} (hs : s = .event listener flags) :
      Moved b₀ b (b.emit (.accepted listener id))
  | handOver {b listener id flags c chan} (hs : s = .event listener flags)
      (hc : (b.entry listener).bind SocketState.acceptTx = some c)
      (h : (b.accepts c).trySend acceptCapacity id = some chan) :
      Moved b₀ b { b with accepts := Function.update b.accepts c chan }

abbrev Moves (b₀ : Bridge) : Bridge → Bridge → Prop := Relation.ReflTransGen (Moved lib s b₀)

end Changes

section Primitive

variable {b : Bridge} {id : SocketId} {e : SocketState}

theorem modify_some (h : b.entry id = some e) (f : SocketState → SocketState) :
    b.modify id f = b.setEntry id (f e) := by
  unfold modify; rw [h]

theorem modify_none (h : b.entry id = none) (f : SocketState → SocketState) : b.modify id f = b := by
  unfold modify; rw [h]

theorem record_some (h : b.entry id = some e) (q : SocketStatus) :
    b.record id q = (b.setEntry id (e.updateStatus q)).emit (.recorded id q) := by
  unfold record; rw [h]

theorem record_none (h : b.entry id = none) (q : SocketStatus) : b.record id q = b := by
  unfold record; rw [h]

theorem register_some (h : b.entry id = some e) (r d t : ChannelId) : b.register id r d t =
    (b.setEntry id { e with recvTx := some r, sendRx := some d, statusTx := some t }).emit
      (.registered id r d) := by
  unfold register; rw [h]

theorem release_none (h : b.entry id = none) : b.release id = b := by
  unfold release; rw [h]

theorem trace_release (h : b.entry id = some e) : (b.release id).trace = b.trace ++ [.released id] := by
  unfold release; rw [h]; rfl

theorem connectReply_some (h : b.entry id = some e) : b.connectReply id = e.connectReply := by
  unfold connectReply; rw [h]; rfl

theorem connectReply_none (h : b.entry id = none) : b.connectReply id = none := by
  unfold connectReply; rw [h]; rfl

theorem channels_release : (b.release id).channels = b.channels := by
  unfold release
  split <;> rfl

variable (b id)

@[simp] theorem channels_emit (x : IoEvent) : (b.emit x).channels = b.channels := rfl

@[simp] theorem channels_emits (es : List IoEvent) : (b.emits es).channels = b.channels := rfl

@[simp] theorem channels_answer (reply : ReplyId) (r : Reply) :
    (b.answer reply r).channels = b.channels := rfl

@[simp] theorem trace_emit (x : IoEvent) : (b.emit x).trace = b.trace ++ [x] := rfl

@[simp] theorem trace_emits (es : List IoEvent) : (b.emits es).trace = b.trace ++ es := rfl

@[simp] theorem trace_answer (reply : ReplyId) (r : Reply) :
    (b.answer reply r).trace = b.trace ++ [.answered reply r] := rfl

@[simp] theorem trace_setEntry (s : SocketState) : (b.setEntry id s).trace = b.trace := rfl

@[simp] theorem trace_enter (s : SocketState) : (b.enter id s).trace = b.trace ++ [.entered id] := rfl

end Primitive

section Moves

variable {lib : Libsrt} {s : IoStep} {b₀ b : Bridge} {id : SocketId}

theorem Moves.notes {es : List IoEvent} (hp : ∀ x ∈ es, x.isPlain = true) :
    Moves lib s b₀ b (b.emits es) :=
  .single (.note hp (fun _ => rfl) rfl rfl)

theorem Moves.emit (x : IoEvent) (hp : x.isPlain = true) : Moves lib s b₀ b (b.emit x) :=
  Moves.notes (List.forall_mem_singleton.mpr hp)

theorem Moves.answer {cmd : IoCommand} {reply : ReplyId} (hs : s = .command cmd)
    (hr : cmd.reply = some reply) (r : Reply) : Moves lib s b₀ b (b.answer reply r) :=
  .single (.answer hs hr (.inr ⟨r, rfl⟩))

theorem Moves.unanswered {cmd : IoCommand} {reply : ReplyId} (hs : s = .command cmd)
    (hr : cmd.reply = some reply) : Moves lib s b₀ b (b.emit (.unanswered reply)) :=
  .single (.answer hs hr (.inl rfl))

theorem Moves.setOptions (i : SocketId) (calls : List OptCall) :
    Moves lib s b₀ b (b.setOptions lib i calls) :=
  Moves.notes (List.forall_mem_map.mpr fun _ _ => rfl)

theorem Moves.changed {b' : Bridge} {e : SocketState} {new : Option SocketState} {es : List IoEvent}
    (he : b.entry id = some e) (h : Change lib s b₀.step (b₀.entry id) id (some e) new es)
    (hent : ∀ i, b'.entry i = if i = id then new else b.entry i) (ht : b'.trace = b.trace ++ es)
    (hc : b'.channels = b.channels) : Moves lib s b₀ b b' :=
  .single (.change (he ▸ h) hent ht hc)

theorem Moves.set {e' : SocketState} {es : List IoEvent}
    (h : Change lib s b₀.step (b₀.entry id) id (b.entry id) (some e') es) :
    Moves lib s b₀ b ((b.setEntry id e').emits es) :=
  .single (.change h (fun _ => entry_setEntry ..) rfl rfl)

theorem Moves.record {q : SocketStatus}
    (h : ∀ e, b.entry id = some e → Cause lib s b₀.step (b₀.entry id) id e q) :
    Moves lib s b₀ b (b.record id q) := by
  cases he : b.entry id with
  | none => rw [record_none he]
  | some e =>
    rw [record_some he]
    exact Moves.set (he ▸ .record (h e he))

theorem Moves.enterIfAbsent {fresh : SocketState}
    (h : b.entry id = none → Enters lib s b₀.step (b₀.entry id) id none fresh) :
    Moves lib s b₀ b (b.enterIfAbsent id fresh) := by
  unfold Bridge.enterIfAbsent
  cases he : b.entry id with
  | some e => exact .refl
  | none => exact Moves.set (he ▸ .enter (h he))

theorem entry_enterIfAbsent (b : Bridge) (id : SocketId) (fresh : SocketState) :
    (b.enterIfAbsent id fresh).entry id = some ((b.entry id).getD fresh) := by
  unfold Bridge.enterIfAbsent
  cases he : b.entry id with
  | some e => exact he
  | none => simp

theorem Moves.close {e : SocketState} {pre post : List IoEvent} {b' : Bridge}
    (he : b.entry id = some e) (hpre : ∀ x ∈ pre, x.isPlain = true)
    (h : Closes s (b₀.entry id) id e post) (hent : ∀ i, b'.entry i = if i = id then none else b.entry i)
    (ht : b'.trace = b.trace ++ (pre ++ .closed id :: .released id :: post))
    (hc : b'.channels = b.channels) : Moves lib s b₀ b b' :=
  Moves.changed he (.close hpre h) hent ht hc

/-- What closing and releasing a socket does first. -/
def unsubscribe (b : Bridge) (id : SocketId) : List IoEvent :=
  if b.neverPolled id then [] else [.unsubscribed id]

theorem unsubscribe_plain (b : Bridge) (id : SocketId) : ∀ x ∈ b.unsubscribe id, x.isPlain = true := by
  unfold unsubscribe
  split_ifs <;> simp [IoEvent.isPlain]

theorem entry_closeAndRelease (i : SocketId) :
    (b.closeAndRelease id).entry i = if i = id then none else b.entry i := by
  show (Bridge.release id _).entry i = _
  rw [entry_release]
  split_ifs <;> rfl

theorem channels_closeAndRelease : (b.closeAndRelease id).channels = b.channels := by
  show (Bridge.release id _).channels = _
  rw [channels_release]
  split_ifs <;> rfl

theorem trace_closeAndRelease {e : SocketState} (h : b.entry id = some e) :
    (b.closeAndRelease id).trace =
      b.trace ++ (b.unsubscribe id ++ [.closed id, .released id]) := by
  unfold closeAndRelease unsubscribe
  split_ifs <;> rw [trace_release (e := e) (by simpa using h)] <;> simp

/-- Closing an entry, and failing the connect that waits on it. -/
theorem trace_closeAndFail {e : SocketState} (err : SrtError) (h : b.entry id = some e) :
    (b.closeAndFail id err).trace = b.trace ++ (b.unsubscribe id ++ .closed id :: .released id ::
      (e.connectReply.map (.answered · (.done (.error err)))).toList) := by
  unfold Bridge.closeAndFail
  rw [connectReply_some h]
  cases e.connectReply <;> simp [trace_closeAndRelease h]

/-- Closing an entry, and letting go of the connect that waits on it. -/
theorem trace_closeAndDrop {e : SocketState} (h : b.entry id = some e) :
    (b.closeAndDrop id).trace = b.trace ++ (b.unsubscribe id ++ .closed id :: .released id ::
      (e.connectReply.map .unanswered).toList) := by
  unfold Bridge.closeAndDrop
  rw [connectReply_some h]
  cases e.connectReply <;> simp [trace_closeAndRelease h]

theorem entry_closeAndFail (err : SrtError) (i : SocketId) :
    (b.closeAndFail id err).entry i = if i = id then none else b.entry i := by
  unfold Bridge.closeAndFail
  split <;> exact entry_closeAndRelease i

theorem entry_closeAndDrop (i : SocketId) :
    (b.closeAndDrop id).entry i = if i = id then none else b.entry i := by
  unfold Bridge.closeAndDrop
  split <;> exact entry_closeAndRelease i

theorem channels_closeAndFail (err : SrtError) : (b.closeAndFail id err).channels = b.channels := by
  unfold Bridge.closeAndFail
  split <;> exact channels_closeAndRelease

theorem channels_closeAndDrop : (b.closeAndDrop id).channels = b.channels := by
  unfold Bridge.closeAndDrop
  split <;> exact channels_closeAndRelease

theorem Moves.closeAndRelease_none (h : b.entry id = none) :
    Moves lib s b₀ b (b.closeAndRelease id) := by
  unfold Bridge.closeAndRelease
  split_ifs
  · rw [release_none (by simpa using h)]
    exact Moves.emit _ rfl
  · rw [release_none (by simpa using h)]
    exact (Moves.emit _ rfl).trans (Moves.emit _ rfl)

theorem Moves.closeAndFail {err : SrtError}
    (h : ∀ e, b.entry id = some e → Closes s (b₀.entry id) id e
      (e.connectReply.map (.answered · (.done (.error err)))).toList) :
    Moves lib s b₀ b (b.closeAndFail id err) := by
  cases he : b.entry id with
  | none =>
    unfold Bridge.closeAndFail
    rw [connectReply_none he]
    exact Moves.closeAndRelease_none he
  | some e =>
    exact Moves.close he (unsubscribe_plain b id) (h e he) (entry_closeAndFail err)
      (trace_closeAndFail err he) (channels_closeAndFail err)

theorem Moves.closeAndDrop {backlog : ℤ} {reply : ReplyId}
    (hs : s = .command (.listen id backlog reply)) : Moves lib s b₀ b (b.closeAndDrop id) := by
  cases he : b.entry id with
  | none =>
    unfold Bridge.closeAndDrop
    rw [connectReply_none he]
    exact Moves.closeAndRelease_none he
  | some e =>
    exact Moves.close he (unsubscribe_plain b id) (.listen hs) entry_closeAndDrop
      (trace_closeAndDrop he) channels_closeAndDrop

end Moves

end Bridge

end SrtBridge
