import SrtBridge.Bridge.Changes

/-! Every step of the I/O thread is a sequence of moves. -/

namespace SrtBridge

/-- What a group's run leaves of its entry. -/
structure GroupRun.Leaves (r r' : GroupRun) (e' : SocketState) : Prop where
  watched : e'.watched ≠ [] → r.entry.watched ≠ [] ∨ r.entry.isGroup = true
  rest : e' = { r.entry with watched := e'.watched }
  entry : r'.entry = e' ∨ e'.lastStatus = .connecting ∧ r'.entry = e'.updateStatus .connected

section GroupRuns

variable {lib : Libsrt} {grp : SocketId} {r : GroupRun}

theorem GroupRun.addGroupMember_leaves (ep : GroupEndpoint) :
    r.Leaves (r.addGroupMember lib grp ep).2 (r.addGroupMember lib grp ep).2.entry := by
  have hsame : r.Leaves { r with step := r.step + 1 } r.entry := ⟨fun h => .inl h, rfl, .inl rfl⟩
  unfold GroupRun.addGroupMember
  dsimp only
  split_ifs with hg hc
  · exact hsame
  · split
    · exact hsame
    · split
      · exact hsame
      · exact ⟨fun _ => .inr hg.1, rfl, .inl rfl⟩
  · exact hsame

theorem GroupRun.checkGroup_leaves (lib : Libsrt) (grp : SocketId) (r : GroupRun) : ∃ e', r.Leaves (r.checkGroup lib grp) e' := by
  unfold GroupRun.checkGroup
  split_ifs with hdue
  · have hne : r.entry.watched ≠ [] := by
      rintro h
      simp [h] at hdue
    let c := checkLoop lib (r.checkInput lib grp) r.entry.watched.length
      ⟨readLive lib r.step r.entry.watched, 0, [], r.step + r.entry.watched.length + 1, r.trace⟩
    refine ⟨{ r.entry with watched := c.watched ++ c.spawned }, fun _ => .inl hne, rfl, ?_⟩
    dsimp only
    split_ifs with hs
    · exact .inr ⟨hs.1, rfl⟩
    · exact .inl rfl
  · exact ⟨r.entry, fun h => .inl h, rfl, .inl rfl⟩

theorem GroupRun.connect_leaves {lib : Libsrt} {grp : SocketId} (r : GroupRun)
    {eps : List GroupEndpoint} (hr : (connectGroup lib r.step 0 grp eps).refused = none) :
    ∃ ws, (ws ≠ [] → r.entry.watched ≠ [] ∨ r.entry.isGroup = true) ∧
      (r.connect lib grp eps).2.entry =
        { r.entry with watched := ws }.updateStatus .connected := by
  simp only [GroupRun.connect, hr]
  refine ⟨_, fun h => ?_, rfl⟩
  by_contra hno
  push Not at hno
  simp [hno.1, hno.2, SocketState.updateStatus, isTerminalStatus] at h

end GroupRuns

namespace Bridge

section Commands

variable {lib : Libsrt} {b₀ b : Bridge} {id : SocketId} {reply : ReplyId}

theorem createSocket_moves (config : SrtConfig) :
    Moves lib (.command (.createSocket config reply)) b b (b.createSocket lib config reply) := by
  unfold createSocket
  dsimp only
  split_ifs
  · exact Moves.answer rfl rfl _
  · exact (((Moves.emit _ rfl).trans (Moves.setOptions _ _)).trans (Moves.setOptions _ _)).trans
      (Moves.answer rfl rfl _)

theorem bindSocket_moves (addr : SocketAddr) :
    Moves lib (.command (.bind id addr reply)) b b (b.bindSocket lib id addr reply) := by
  unfold bindSocket
  split_ifs <;> exact (Moves.emit _ rfl).trans (Moves.answer rfl rfl _)

/-- Arming the hook: nothing to arm, libsrt takes the slot, or libsrt refuses it. -/
theorem registerListenCallback_cases (lib : Libsrt) (b : Bridge) (id : SocketId) :
    b.accessSlot id = none ∧ b.registerListenCallback lib id = (.ok (), b) ∨
      (∃ slot, b.accessSlot id = some slot ∧ 0 ≤ lib.listenCallback b.step id slot ∧
        b.registerListenCallback lib id = (.ok (), b.emit (.armed id slot true))) ∨
      ∃ slot err, b.accessSlot id = some slot ∧ lib.listenCallback b.step id slot < 0 ∧
        b.registerListenCallback lib id = (.error err, b.emit (.armed id slot false)) := by
  unfold registerListenCallback
  cases h : b.accessSlot id with
  | none => exact .inl ⟨rfl, rfl⟩
  | some slot =>
    by_cases hlt : lib.listenCallback b.step id slot < 0
    · exact .inr (.inr ⟨slot, _, rfl, hlt, by simp [hlt]; rfl⟩)
    · exact .inr (.inl ⟨slot, rfl, not_lt.mp hlt, by simp [hlt]⟩)

theorem listenArmed_moves {backlog : ℤ} {s : IoStep} (hs : s = .command (.listen id backlog reply))
    (hent : b.entry id = b₀.entry id)
    (harm : ∀ slot, b₀.accessSlot id = some slot → 0 ≤ lib.listenCallback b₀.step id slot)
    (hl : 0 ≤ lib.listen b₀.step id backlog) :
    Moves lib s b₀ b ((b.modify id fun s => { s with isListener := true }).record id .listening) := by
  cases he : b.entry id with
  | none => rw [modify_none he, record_none he]
  | some e =>
    rw [modify_some he, record_some (e := { e with isListener := true })
      (by rw [entry_setEntry, if_pos rfl])]
    have h₀ : b₀.entry id = some e := hent ▸ he
    have hslot (slot : ℕ) (h : e.accessControl = some slot) :
        0 ≤ lib.listenCallback b₀.step id slot := by
      refine harm slot ?_
      unfold accessSlot
      rw [h₀]
      exact h
    refine Moves.changed he (.listen hs h₀ hslot hl) (fun i => ?_) rfl rfl
    simp only [entry_emit, entry_setEntry]
    split_ifs <;> rfl

def listenOn (lib : Libsrt) (id : SocketId) (backlog : ℤ) (reply : ReplyId) (b : Bridge) : Bridge :=
  if lib.listen b.step id backlog < 0 then
    ((b.emit (.listening id false)).closeAndDrop id).answer reply
      (.done (.error (lib.lastSrtError b.step 1)))
  else
    ((((b.emit (.listening id true)).emit (.subscribed id)).modify id fun s =>
      { s with isListener := true }).record id .listening).answer reply (.done (.ok ()))

theorem listen_eq {c : Bridge} (backlog : ℤ) (reply : ReplyId)
    (h : b.registerListenCallback lib id = (.ok (), c)) :
    b.listen lib id backlog reply = c.listenOn lib id backlog reply := by
  unfold listen
  rw [h]
  rfl

theorem listenOn_moves {c : Bridge} (backlog : ℤ) (reply : ReplyId) (hent : c.entry id = b.entry id)
    (harm : ∀ slot, b.accessSlot id = some slot → 0 ≤ lib.listenCallback b.step id slot)
    (hstep : c.step = b.step) :
    Moves lib (.command (.listen id backlog reply)) b c (c.listenOn lib id backlog reply) := by
  unfold listenOn
  rw [hstep]
  split_ifs with hl
  · exact (Relation.ReflTransGen.head (.listening rfl false) (Moves.closeAndDrop rfl)).trans
      (Moves.answer rfl rfl _)
  · have hopen : Moves lib (.command (.listen id backlog reply)) b c
        ((c.emit (.listening id true)).emit (.subscribed id)) :=
      .head (.listening rfl true) (.single (.subscribe (.listen rfl)))
    exact (hopen.trans (listenArmed_moves rfl hent harm (not_lt.mp hl))).trans
      (Moves.answer rfl rfl _)

theorem listen_moves (backlog : ℤ) :
    Moves lib (.command (.listen id backlog reply)) b b (b.listen lib id backlog reply) := by
  rcases registerListenCallback_cases lib b id with
    ⟨hn, heq⟩ | ⟨slot, hn, hok, heq⟩ | ⟨slot, err, hn, hok, heq⟩
  · rw [listen_eq backlog reply heq]
    exact listenOn_moves backlog reply rfl (fun slot h => by rw [hn] at h; cases h) rfl
  · rw [listen_eq backlog reply heq]
    refine .head (.arm rfl hn true) (listenOn_moves backlog reply rfl (fun slot' h => ?_) rfl)
    rw [hn] at h
    obtain rfl := Option.some.inj h
    exact hok
  · unfold listen
    rw [heq]
    exact (Relation.ReflTransGen.head (.arm rfl hn false) (Moves.closeAndDrop rfl)).trans
      (Moves.answer rfl rfl _)

theorem awaitConnect_moves (addr : SocketAddr) (h : b.entry id = b₀.entry id)
    (ha : ¬(lib.connect b₀.step id addr < 0 ∧ lib.lastSrtError b₀.step 0 ≠ .asyncFail))
    (hq : lib.getsockstate b₀.step 0 id ∈ [.connecting, .opened, .init]) :
    Moves lib (.command (.connect id addr reply)) b₀ b (b.awaitConnect id reply) := by
  unfold awaitConnect
  cases he : b.entry id with
  | none => exact Moves.unanswered rfl rfl
  | some e =>
    have hgen (c : Bridge) (hc : ∀ i, c.entry i = b.entry i)
        (ht : c.trace = b.trace ++ (e.connectReply.map .unanswered).toList)
        (hch : c.channels = b.channels) :
        Moves lib (.command (.connect id addr reply)) b₀ b
          ((c.modify id fun s => { s with connectReply := some reply }).record id .connecting) := by
      have hce : c.entry id = some e := (hc id).trans he
      rw [modify_some hce, record_some (e := { e with connectReply := some reply })
        (by rw [entry_setEntry, if_pos rfl])]
      refine Moves.changed he (.await rfl (h ▸ he) ha hq) (fun i => ?_) (by simp [ht]) hch
      simp only [entry_emit, entry_setEntry]
      split_ifs
      · rfl
      · exact hc i
    dsimp only
    cases hr : e.connectReply with
    | none => exact hgen b (fun _ => rfl) (by simp [hr]) rfl
    | some earlier => exact hgen (b.emit (.unanswered earlier)) (fun _ => rfl) (by simp [hr]) rfl

theorem connect_moves (addr : SocketAddr) :
    Moves lib (.command (.connect id addr reply)) b b (b.connect lib id addr reply) := by
  unfold connect
  dsimp only
  split_ifs with ha
  · exact (Moves.emit (.connecting id) rfl).trans (Moves.answer rfl rfl _)
  · refine (Moves.emit (.connecting id) rfl).trans ?_
    cases hq : lib.getsockstate b.step 0 id with
    | connected =>
      refine (Relation.ReflTransGen.head (.subscribe (.connect rfl)) (Moves.record fun e he => ?_)).trans
        (Moves.answer rfl rfl _)
      exact .connected rfl he ha hq
    | connecting | opened | init =>
      exact .head (.subscribe (.connect rfl)) (awaitConnect_moves addr rfl ha (by simp [hq]))
    | _ => exact Moves.answer rfl rfl _

/-- What `RegisterSocket` gives the entry before it reads the socket's state. -/
theorem entry_register (b : Bridge) (id : SocketId) (r d t : ChannelId) :
    ((b.enterIfAbsent id .fresh).register id r d t).entry id =
      some { (b.entry id).getD .fresh with recvTx := some r, sendRx := some d, statusTx := some t } := by
  rw [register_some (entry_enterIfAbsent b id .fresh), entry_emit, entry_setEntry, if_pos rfl]

theorem step_register (b : Bridge) (id : SocketId) (r d t : ChannelId) :
    ((b.enterIfAbsent id .fresh).register id r d t).step = b.step := by
  rw [register_some (entry_enterIfAbsent b id .fresh)]
  show (b.enterIfAbsent id .fresh).step = b.step
  unfold enterIfAbsent
  split <;> rfl

theorem entry_registerSocket (lib : Libsrt) (b : Bridge) (id : SocketId) (r d t : ChannelId)
    (i : SocketId) : (b.registerSocket lib id r d t).entry i =
      if i = id then
        some (if ((b.entry id).getD .fresh).isGroup = true ∨
            lib.status b.step 0 id = ((b.entry id).getD .fresh).lastStatus then
          { (b.entry id).getD .fresh with recvTx := some r, sendRx := some d, statusTx := some t }
        else
          { (b.entry id).getD .fresh with
            recvTx := some r
            sendRx := some d
            statusTx := some t }.updateStatus (lib.status b.step 0 id))
      else b.entry i := by
  have hother (hi : i ≠ id) : ((b.enterIfAbsent id .fresh).register id r d t).entry i = b.entry i := by
    rw [register_some (entry_enterIfAbsent b id .fresh), entry_emit, entry_setEntry, if_neg hi]
    unfold enterIfAbsent
    split
    · rfl
    · rw [entry_enter, if_neg hi]
  unfold registerSocket
  dsimp only
  rw [entry_register, step_register]
  dsimp only
  by_cases hi : i = id
  · subst hi
    rw [if_pos rfl]
    split_ifs
    · exact entry_register ..
    · rw [entry_record, if_pos rfl, entry_register]
      rfl
  · rw [if_neg hi]
    split_ifs
    · exact hother hi
    · rw [entry_record, if_neg hi, hother hi]

theorem registerSocket_moves (r d t : ChannelId) :
    Moves lib (.command (.registerSocket id r d t)) b b (b.registerSocket lib id r d t) := by
  unfold registerSocket
  dsimp only
  have hent := entry_enterIfAbsent b id .fresh
  have hreg := entry_register b id r d t
  have hstep := step_register b id r d t
  have hfirst : Moves lib (.command (.registerSocket id r d t)) b b
      ((b.enterIfAbsent id .fresh).register id r d t) := by
    refine (Moves.enterIfAbsent fun h => .socket rfl h).trans ?_
    rw [register_some hent]
    exact Moves.set (hent ▸ .register rfl)
  rw [hreg, hstep]
  dsimp only
  split_ifs with hg
  · exact hfirst
  · refine hfirst.trans (Moves.record fun e he => ?_)
    rw [hreg] at he
    obtain rfl := Option.some.inj he
    exact .registered rfl (by simpa using (not_or.mp hg).1) rfl

theorem registerListener_moves (c : ChannelId) (a : Option ℕ) :
    Moves lib (.command (.registerListener id c a)) b b (b.registerListener id c a) := by
  unfold registerListener
  refine (Moves.enterIfAbsent fun h => .listener rfl h).trans ?_
  have hent := entry_enterIfAbsent b id .freshListener
  rw [modify_some hent]
  have hprovide : Change lib (.command (.registerListener id c a)) b.step (b.entry id) id
      (some ((b.entry id).getD .freshListener)) _ [] := .provide rfl rfl
  exact Moves.changed hent hprovide (fun i => entry_setEntry ..) (List.append_nil _).symm rfl

theorem createGroup_moves (mode : GroupType) (config : SrtConfig) :
    Moves lib (.command (.createGroup mode config reply)) b b
      (b.createGroup lib mode config reply) := by
  unfold createGroup
  dsimp only
  set grp := lib.createGroup b.step mode with hgrp
  split_ifs with hneg
  · exact Moves.answer rfl rfl _
  · set c := ((b.emit (.created grp)).setOptions lib grp nonBlocking).setOptions lib grp
      (applyConfig config)
    have hopen : Moves lib (.command (.createGroup mode config reply)) b b c :=
      ((Moves.emit _ rfl).trans (Moves.setOptions _ _)).trans (Moves.setOptions _ _)
    have henter : Moves lib (.command (.createGroup mode config reply)) b c
        (c.enter grp (.freshGroup (mode = .backup))) :=
      Moves.set (.enter (.group rfl hgrp.symm rfl (not_lt.mp hneg)))
    exact (hopen.trans henter).trans (Moves.answer rfl rfl _)

/-- A group's run put back: what is watched changes, then perhaps the status. -/
theorem Moves.put {s : IoStep} {e e' : SocketState} {r' : GroupRun} {b' : Bridge}
    (he : b.entry id = some e) (hl : (b.groupRun e).Leaves r' e')
    (hent : ∀ i, b'.entry i = if i = id then some e' else b.entry i)
    (ht : b'.trace = b.trace ++ r'.trace.map (.member id)) (hc : b'.channels = b.channels) :
    Moves lib s b₀ b b' := by
  have hmember : ∀ x ∈ r'.trace.map (IoEvent.member id), ∃ m, x = .member id m := by
    rintro x hx
    obtain ⟨m, -, rfl⟩ := List.mem_map.mp hx
    exact ⟨m, rfl⟩
  have hwatch : Change lib s b₀.step (b₀.entry id) id (some e)
      (some { e with watched := e'.watched }) (r'.trace.map (.member id)) :=
    .watch hmember hl.watched
  refine Moves.changed he hwatch (fun i => ?_) ht hc
  rw [hent, hl.rest]
  rfl

theorem addGroupMember_moves (ep : GroupEndpoint) :
    Moves lib (.command (.addGroupMember id ep reply)) b b (b.addGroupMember lib id ep reply) := by
  unfold addGroupMember
  cases he : b.entry id with
  | none => exact Moves.answer rfl rfl _
  | some e =>
    refine Relation.ReflTransGen.trans ?_ (Moves.answer rfl rfl _)
    exact Moves.put he (GroupRun.addGroupMember_leaves ep) (fun i => entry_setEntry ..) rfl rfl

theorem connectGroup_moves (eps : List GroupEndpoint) :
    Moves lib (.command (.connectGroup id eps reply)) b b (b.connectGroup lib id eps reply) := by
  unfold connectGroup
  cases hr : (SrtBridge.connectGroup lib b.step 0 id eps).refused with
  | some err => exact Moves.answer rfl rfl _
  | none =>
    dsimp only
    refine Relation.ReflTransGen.head (.subscribe (.join rfl hr))
      (Relation.ReflTransGen.trans ?_ (Moves.answer rfl rfl _))
    set c := b.emit (.subscribed id)
    cases he : c.entry id with
    | none => exact .refl
    | some e =>
      obtain ⟨ws, hws, hent⟩ := (c.groupRun e).connect_leaves hr
      set r := ((c.groupRun e).connect lib id eps).2
      let mid := (c.setEntry id { e with watched := ws }).emits (r.trace.map (.member id))
      have hwatch : Moves lib (.command (.connectGroup id eps reply)) b c mid := by
        refine Moves.changed he (.watch (fun x hx => ?_) hws) (fun i => entry_setEntry ..) rfl rfl
        obtain ⟨m, -, rfl⟩ := List.mem_map.mp hx
        exact ⟨m, rfl⟩
      have hmid : mid.entry id = some { e with watched := ws } := by
        simp [mid, entry_setEntry]
      refine hwatch.trans (Moves.changed hmid (.record (.joined rfl hr (congrArg _ he)))
        (fun i => ?_) rfl rfl)
      simp only [putGroup, entry_emit, entry_emits, entry_setEntry, mid]
      split_ifs
      · exact congrArg some hent
      · rfl

theorem shutdown_closeOne_moves : Moves lib (.command .shutdown) b₀ b (shutdownOne b id) := by
  unfold shutdownOne
  cases he : b.entry id with
  | none =>
    rw [connectReply_none he, release_none (by simpa using he)]
    exact (Moves.emit (.unsubscribed id) rfl).trans (Moves.emit (.closed id) rfl)
  | some e =>
    rw [connectReply_some he]
    have hpre : ∀ x ∈ [IoEvent.unsubscribed id], x.isPlain = true := by simp [IoEvent.isPlain]
    refine Moves.close he hpre (.shutdown rfl) (fun i => ?_) ?_ ?_ <;> cases hr : e.connectReply <;>
        simp [entry_release, channels_release, trace_release (e := e), he]

theorem shutdown_moves : Moves lib (.command .shutdown) b b b.shutdown := by
  have hall (ids : List SocketId) (c : Bridge) :
      Moves lib (.command .shutdown) b c (ids.foldl shutdownOne c) := by
    induction ids generalizing c with
    | nil => exact .refl
    | cons i ids ih => exact shutdown_closeOne_moves.trans (ih _)
  refine (hall b.sockets.keys b).trans (.single ?_)
  exact .note (List.forall_mem_nil _) (fun _ => rfl) (List.append_nil _).symm rfl

theorem processCommand_moves (cmd : IoCommand) :
    Moves lib (.command cmd) b b (b.processCommand lib cmd) := by
  cases cmd with
  | createSocket config reply => exact createSocket_moves config
  | bind id addr reply => exact bindSocket_moves addr
  | listen id backlog reply => exact listen_moves backlog
  | connect id addr reply => exact connect_moves addr
  | registerSocket id r d t => exact registerSocket_moves r d t
  | registerListener id c a => exact registerListener_moves c a
  | createGroup mode config reply => exact createGroup_moves mode config
  | connectGroup id eps reply => exact connectGroup_moves eps
  | addGroupMember id ep reply => exact addGroupMember_moves ep
  | close id => exact Moves.closeAndFail fun e _ => .close rfl
  | shutdown => exact shutdown_moves
  | _ => exact Moves.answer rfl rfl _

end Commands

section Frames

variable {lib : Libsrt} {b : Bridge} {id : SocketId}

/-- Handing over a message changes a receive channel, and is recorded. -/
theorem deliver_frame (b : Bridge) (id : SocketId) (packet : ReceivedPacket) :
    ∃ p, b.deliver id packet = { b.emit (.took id packet) with packets := p } := by
  unfold deliver
  dsimp only
  split <;> exact ⟨_, rfl⟩

@[simp] theorem entry_deliver (packet : ReceivedPacket) (i : SocketId) :
    (b.deliver id packet).entry i = b.entry i := by
  obtain ⟨p, h⟩ := deliver_frame b id packet
  rw [h]
  rfl

theorem trace_deliver (packet : ReceivedPacket) :
    (b.deliver id packet).trace = b.trace ++ [.took id packet] := by
  obtain ⟨p, h⟩ := deliver_frame b id packet
  rw [h]
  rfl

@[simp] theorem step_deliver (packet : ReceivedPacket) : (b.deliver id packet).step = b.step := by
  obtain ⟨p, h⟩ := deliver_frame b id packet
  rw [h]
  rfl

/-- Sending changes what is held back, and nothing else of the entry. -/
theorem entry_handleSend (lib : Libsrt) (b : Bridge) (id : SocketId) : ∃ l, ∀ i, (b.handleSend lib id).entry i =
    if i = id then (b.entry id).map fun s => { s with sendBacklog := l } else b.entry i := by
  unfold handleSend
  cases he : b.entry id with
  | none =>
    refine ⟨[], fun i => ?_⟩
    split_ifs with hi
    · rw [hi, he]
      rfl
    · rfl
  | some e =>
    dsimp only
    split_ifs
    · exact ⟨_, fun i => entry_setEntry ..⟩
    · split
      · exact ⟨_, fun i => entry_setEntry ..⟩
      · exact ⟨_, fun i => entry_setEntry ..⟩

/-- Sending changes the map and the send channels, and is recorded. -/
theorem handleSend_frame (lib : Libsrt) (b : Bridge) (id : SocketId) : ∃ m q tr,
    b.handleSend lib id = { b with sockets := m, sends := q, trace := tr } := by
  unfold handleSend
  split
  · exact ⟨b.sockets, b.sends, b.trace, rfl⟩
  · dsimp only
    split_ifs
    · exact ⟨_, b.sends, _, rfl⟩
    · split
      · exact ⟨_, b.sends, _, rfl⟩
      · exact ⟨_, _, _, rfl⟩

@[simp] theorem step_handleSend : (b.handleSend lib id).step = b.step := by
  obtain ⟨m, q, tr, h⟩ := handleSend_frame lib b id
  rw [h]

@[simp] theorem entry_handleRecv (j : ℕ) (i : SocketId) :
    (b.handleRecv lib j id).entry i = b.entry i := by
  have hall (packets : List ReceivedPacket) (c : Bridge) :
      (packets.foldl (deliver id) c).entry i = c.entry i := by
    induction packets generalizing c with
    | nil => rfl
    | cons p packets ih => rw [List.foldl_cons, ih, entry_deliver]
  unfold handleRecv
  split_ifs
  · rfl
  · exact hall _ b

@[simp] theorem step_handleRecv (j : ℕ) : (b.handleRecv lib j id).step = b.step := by
  have hall (packets : List ReceivedPacket) (c : Bridge) :
      (packets.foldl (deliver id) c).step = c.step := by
    induction packets generalizing c with
    | nil => rfl
    | cons p packets ih => rw [List.foldl_cons, ih, step_deliver]
  unfold handleRecv
  split_ifs
  · rfl
  · exact hall _ b

theorem step_connectCompletion : (b.connectCompletion lib id).step = b.step := by
  unfold connectCompletion
  cases he : b.entry id with
  | none => rw [connectReply_none he]
  | some e =>
    rw [connectReply_some he]
    cases e.connectReply with
    | none => rfl
    | some reply =>
      dsimp only
      rw [modify_some he]
      split_ifs <;> rw [record_some (e := { e with connectReply := none })
        (by rw [entry_answer, entry_setEntry, if_pos rfl])] <;> rfl

end Frames

section Events

variable {lib : Libsrt} {s : IoStep} {b₀ b : Bridge} {id : SocketId} {flags : EpollFlags}

theorem handleRecv_moves (hs : (∃ flags, s = .event id flags) ∨ s = .sweep id) (j : ℕ) :
    Moves lib s b₀ b (b.handleRecv lib j id) := by
  have hall (packets : List ReceivedPacket) (c : Bridge) :
      Moves lib s b₀ c (packets.foldl (deliver id) c) := by
    induction packets generalizing c with
    | nil => exact .refl
    | cons p packets ih => exact .head (.take hs p) (ih _)
  unfold handleRecv
  split_ifs
  · exact .refl
  · exact hall _ b

theorem handleAccept_moves (hs : s = .event id flags) :
    Moves lib s b b (b.handleAccept lib id) := by
  unfold handleAccept
  dsimp only
  split_ifs
  · exact .refl
  · set conn := lib.accept b.step id
    set c := b.emit (.accepted id conn)
    have hacc : Moves lib s b b c := .single (.accepted hs)
    refine hacc.trans ?_
    cases hh : (c.entry id).bind SocketState.acceptTx with
    | none => exact Moves.emit (.closed conn) rfl
    | some a =>
      cases ht : (c.accepts a).trySend acceptCapacity conn with
      | none =>
        simp only [Option.bind_eq_bind, Option.bind_some, ht, Option.map_none]
        exact Moves.emit (.closed conn) rfl
      | some chan =>
        simp only [Option.bind_eq_bind, Option.bind_some, ht, Option.map_some]
        exact .head (.handOver hs hh ht)
          ((Moves.setOptions conn nonBlocking).trans (.single (.subscribe (.accept hs rfl))))

theorem connectCompletion_moves (hs : s = .event id flags) (hf : flags.connect = true)
    (hi : ∀ e, b.entry id = some e → ¬(e.isListener = true ∧ flags.inp = true)) :
    Moves lib s b b (b.connectCompletion lib id) := by
  unfold connectCompletion
  cases he : b.entry id with
  | none => rw [connectReply_none he]
  | some e =>
    rw [connectReply_some he]
    cases hr : e.connectReply with
    | none => exact .refl
    | some reply =>
      dsimp only
      rw [modify_some he]
      have hdone (q : SocketStatus) (result : Except SrtError Unit)
          (hq : lib.getsockstate b.step 0 id = .connected ∧ q = .connected ∧ result = .ok () ∨
            lib.getsockstate b.step 0 id ≠ .connected ∧ q = .broken ∧ ∃ err, result = .error err) :
          Moves lib s b b (((b.setEntry id { e with connectReply := none }).answer reply
            (.done result)).record id q) := by
        rw [record_some (e := { e with connectReply := none })
          (by rw [entry_answer, entry_setEntry, if_pos rfl])]
        refine Moves.changed he (.complete hs hf (hi e he) he hr hq) (fun i => ?_) (by simp) rfl
        rw [entry_emit, entry_setEntry, entry_answer, entry_setEntry]
        split_ifs <;> rfl
      split_ifs with hq
      · exact hdone _ _ (.inl ⟨hq, rfl, rfl⟩)
      · exact hdone _ _ (.inr ⟨hq, rfl, _, rfl⟩)

/-- After the connect event no connect waits on the entry. -/
theorem connectReply_connectCompletion : (b.connectCompletion lib id).connectReply id = none := by
  unfold connectCompletion
  cases he : b.entry id with
  | none => rw [connectReply_none he]; exact connectReply_none he
  | some e =>
    rw [connectReply_some he]
    cases hr : e.connectReply with
    | none => exact (connectReply_some he).trans hr
    | some reply =>
      dsimp only
      rw [modify_some he]
      unfold connectReply
      split_ifs <;> rw [entry_record, if_pos rfl, entry_answer, entry_setEntry, if_pos rfl] <;>
        simp [SocketState.updateStatus] <;> split_ifs <;> rfl

theorem errorEvent_moves (hstep : b.step = b₀.step)
    (h : ∀ e, b.entry id = some e → (e.isGroup = true → groupErrIsReal lib b₀.step id = true) →
      Cause lib s b₀.step (b₀.entry id) id e .broken) : Moves lib s b₀ b (b.errorEvent lib id) := by
  unfold errorEvent
  cases he : b.entry id with
  | none => exact .refl
  | some e =>
    dsimp only
    split_ifs with hg
    · exact .refl
    · refine Moves.record fun e' he' => ?_
      obtain rfl := Option.some.inj (he.symm.trans he')
      refine h e he fun hgrp => ?_
      rw [hstep] at hg
      simpa [hgrp] using hg

theorem processEvent_moves :
    Moves lib (.event id flags) b b (b.processEvent lib id flags) := by
  unfold processEvent
  by_cases hlis : (b.entry id).any SocketState.isListener = true ∧ flags.inp = true
  · rw [if_pos hlis]
    exact handleAccept_moves rfl
  rw [if_neg hlis]
  dsimp only
  have hi (e : SocketState) (he : b.entry id = some e) : ¬(e.isListener = true ∧ flags.inp = true) := by
    simpa [he] using hlis
  -- the connect event first: what it leaves waits on nothing
  set b₁ := if flags.connect = true then b.connectCompletion lib id else b with hb₁
  have h₁ : Moves lib (.event id flags) b b b₁ := by
    rw [hb₁]
    split_ifs with hc
    · exact connectCompletion_moves rfl hc hi
    · exact .refl
  have hstep₁ : b₁.step = b.step := by
    rw [hb₁]
    split_ifs
    · exact step_connectCompletion
    · rfl
  have hreply₁ : flags.connect = true → b₁.connectReply id = none := by
    intro hc
    rw [hb₁, if_pos hc]
    exact connectReply_connectCompletion
  have hsame₁ : flags.connect = false → b₁ = b := by
    intro hc
    rw [hb₁, if_neg (by simp [hc])]
  set b₂ := if flags.inp = true then b₁.handleRecv lib 1 id else b₁ with hb₂
  have h₂ : Moves lib (.event id flags) b b₁ b₂ := by
    rw [hb₂]
    split_ifs
    · exact handleRecv_moves (.inl ⟨flags, rfl⟩) 1
    · exact .refl
  have hstep₂ : b₂.step = b₁.step := by
    rw [hb₂]
    split_ifs
    · exact step_handleRecv 1
    · rfl
  have hent₂ : b₂.entry id = b₁.entry id := by
    rw [hb₂]
    split_ifs
    · exact entry_handleRecv 1 id
    · rfl
  set b₃ := if flags.out = true then b₂.handleSend lib id else b₂ with hb₃
  have h₃ : Moves lib (.event id flags) b b₂ b₃ := by
    rw [hb₃]
    split_ifs
    · exact .single (.send (.inl ⟨flags, rfl⟩))
    · exact .refl
  have hstep₃ : b₃.step = b₂.step := by
    rw [hb₃]
    split_ifs
    · exact step_handleSend
    · rfl
  have hent₃ (e : SocketState) (he : b₃.entry id = some e) :
      ∃ l, b₁.entry id = some { e with sendBacklog := l } := by
    rw [← hent₂]
    rw [hb₃] at he
    split_ifs at he
    · obtain ⟨l, hl⟩ := entry_handleSend lib b₂ id
      rw [hl, if_pos rfl, Option.map_eq_some_iff] at he
      obtain ⟨e₂, he₂, rfl⟩ := he
      exact ⟨e₂.sendBacklog, he₂⟩
    · exact ⟨e.sendBacklog, he⟩
  refine ((h₁.trans h₂).trans h₃).trans ?_
  split_ifs with herr
  · refine errorEvent_moves ((hstep₃.trans hstep₂).trans hstep₁) fun e he hg => ?_
    obtain ⟨l, hl⟩ := hent₃ e he
    refine .errored rfl herr hlis hg (fun hc => ?_) (fun hc => ?_)
    · have hr := hreply₁ hc
      rw [connectReply_some hl] at hr
      exact hr
    · exact ⟨l, hsame₁ hc ▸ hl⟩
  · exact .refl

theorem drain_moves : Moves lib (.drain id) b b (b.drain lib id) := by
  unfold drain
  split
  · split_ifs
    · exact .single (.send (.inr rfl))
    · exact .refl
  · exact .refl

theorem sweep_moves : Moves lib (.sweep id) b b (b.sweep lib id) := by
  unfold sweep
  split
  · split_ifs
    · exact handleRecv_moves (.inr rfl) 0
    · exact .refl
  · exact .refl

theorem check_moves : Moves lib (.check id) b b (b.check lib id) := by
  unfold check
  cases he : b.entry id with
  | none => exact .refl
  | some e =>
    dsimp only
    split_ifs with hlive hsame
    · obtain ⟨e', hl⟩ := GroupRun.checkGroup_leaves lib id (b.groupRun e)
      rcases hl.entry with hent | ⟨hc, hent⟩
      · exact Moves.put he hl (fun i => by rw [← hent]; exact entry_setEntry ..) rfl rfl
      · rw [hent, SocketState.updateStatus_lastStatus] at hsame
        rw [hl.rest] at hc
        cases hsame.trans hc
    · obtain ⟨e', hl⟩ := GroupRun.checkGroup_leaves lib id (b.groupRun e)
      rcases hl.entry with hent | ⟨hc, hent⟩
      · rw [hent, hl.rest] at hsame
        exact absurd rfl hsame
      · set r := (b.groupRun e).checkGroup lib id
        let mid := (b.setEntry id e').emits (r.trace.map (.member id))
        have hput : Moves lib (.check id) b b mid :=
          Moves.put he hl (fun i => entry_setEntry ..) rfl rfl
        have hmid : mid.entry id = some e' := by simp [mid, entry_setEntry]
        refine hput.trans (Moves.changed hmid (.record (.recovered rfl hc)) (fun i => ?_) ?_ rfl)
        · show (b.setEntry id r.entry).entry i = if i = id then some (e'.updateStatus .connected)
            else (b.setEntry id e').entry i
          rw [entry_setEntry, entry_setEntry, hent]
          split_ifs <;> rfl
        · rw [hent, SocketState.updateStatus_lastStatus]
          rfl
    · exact .refl

theorem failConnect_moves {err : SrtError} (hs : s = .poll id)
    (h : ∀ e, b.entry id = some e → e.lastStatus = .broken ∨ e.lastStatus = .closed) :
    Moves lib s b₀ b (b.failConnect id err) := by
  unfold failConnect
  cases he : b.entry id with
  | none =>
    rw [connectReply_none he]
  | some e =>
    rw [connectReply_some he]
    cases hr : e.connectReply with
    | none => exact .refl
    | some reply =>
      dsimp only
      rw [modify_some he]
      exact Moves.changed he (.fail hs hr (h e he)) (fun i => entry_setEntry ..) rfl rfl

theorem poll_moves : Moves lib (.poll id) b b (b.poll lib id) := by
  unfold poll
  cases he : b.entry id with
  | none => exact .refl
  | some e =>
    dsimp only
    split_ifs with hskip hq
    · exact .refl
    · have hrec : Moves lib (.poll id) b b (b.record id (lib.status b.step 0 id)) := by
        refine Moves.record fun e' he' => ?_
        obtain rfl := Option.some.inj (he.symm.trans he')
        exact .polled rfl he (fun h => hskip (.inl h)) (fun h => hskip (.inr h))
      refine hrec.trans (failConnect_moves rfl fun e' he' => ?_)
      rw [entry_record, if_pos rfl, he] at he'
      obtain rfl := Option.some.inj he'
      simpa using hq
    · refine Moves.record fun e' he' => ?_
      obtain rfl := Option.some.inj (he.symm.trans he')
      exact .polled rfl he (fun h => hskip (.inl h)) (fun h => hskip (.inr h))

theorem mem_zombies : id ∈ b.zombies ↔ ∃ e, b.entry id = some e ∧ b.isZombie e = true := by
  unfold zombies
  rw [List.mem_filter]
  constructor
  · rintro ⟨-, h⟩
    cases he : b.entry id with
    | none => simp [he] at h
    | some e => exact ⟨e, rfl, by simpa [he] using h⟩
  · rintro ⟨e, he, hz⟩
    refine ⟨AList.lookup_isSome.mp ?_, ?_⟩
    · show (b.entry id).isSome = true
      rw [he]
      rfl
    · rw [he]
      exact hz

theorem entry_cleanupZombies (b : Bridge) (i : SocketId) :
    b.cleanupZombies.entry i = if i ∈ b.zombies then none else b.entry i := by
  have hall (ids : List SocketId) (c : Bridge) :
      (ids.foldl (fun b id => b.closeAndFail id .connectionLost) c).entry i =
        if i ∈ ids then none else c.entry i := by
    induction ids generalizing c with
    | nil => rfl
    | cons id ids ih =>
      rw [List.foldl_cons, ih, entry_closeAndFail]
      simp only [List.mem_cons]
      split_ifs <;> tauto
  exact hall _ b

theorem cleanup_moves : Moves lib .cleanup b b b.cleanupZombies := by
  have hall (ids : List SocketId) (hn : ids.Nodup) (hz : ∀ i ∈ ids, i ∈ b.zombies) (c : Bridge)
      (hc : ∀ i ∈ ids, c.entry i = b.entry i) :
      Moves lib .cleanup b c (ids.foldl (fun b id => b.closeAndFail id .connectionLost) c) := by
    induction ids generalizing c with
    | nil => exact .refl
    | cons i ids ih =>
      obtain ⟨hi, hn⟩ := List.nodup_cons.mp hn
      have hfirst : Moves lib .cleanup b c (c.closeAndFail i .connectionLost) := by
        refine Moves.closeAndFail fun e he => ?_
        have he' : b.entry i = some e := (hc i (by simp)).symm.trans he
        obtain ⟨e', hb, hzom⟩ := mem_zombies.mp (hz i (by simp))
        obtain rfl := Option.some.inj (he'.symm.trans hb)
        simp only [isZombie, Bool.and_eq_true, Bool.not_eq_true'] at hzom
        exact .reaped rfl hzom.1.1.1 hzom.1.1.2 hzom.1.2 he'
      refine hfirst.trans (ih hn (fun j hj => hz j (by simp [hj])) _ fun j hj => ?_)
      rw [entry_closeAndFail, if_neg (by rintro rfl; exact hi hj)]
      exact hc j (by simp [hj])
  exact hall _ (b.sockets.keys_nodup.filter _) (fun _ h => h) b fun _ _ => rfl

/-- Every step of the I/O thread is a sequence of moves. -/
theorem ioStep_moves (lib : Libsrt) (b : Bridge) (s : IoStep) : Moves lib s b b (b.ioStep lib s) := by
  cases s with
  | command cmd => exact processCommand_moves cmd
  | event id flags => exact processEvent_moves
  | drain id => exact drain_moves
  | sweep id => exact sweep_moves
  | check id => exact check_moves
  | poll id => exact poll_moves
  | cleanup => exact cleanup_moves

end Events

end Bridge

end SrtBridge
