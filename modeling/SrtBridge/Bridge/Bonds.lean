import SrtBridge.Bridge.Shutdown
import SrtBridge.Members.Grace
import SrtBridge.Members.Repairs

/-! A caller group among everything else the thread serves. Seen from the group's entry, the run of the
thread is a run of the group, so that what holds in every run of a group holds of each group here. -/

namespace SrtBridge

open General

/-- What the run of a caller group sees of its entry, the status apart. -/
def SocketState.bond (e : SocketState) : Bool × Bool × List WatchedMember :=
  (e.isGroup, e.backup, e.watched)

/-- The event as one about a member of the group, if it is one. -/
def IoEvent.memberOf (grp : SocketId) : IoEvent → Option MemberEvent
  | .member i m => if i = grp then some m else none
  | _ => none

/-- What was done to the members of the group, and seen of them. -/
def memberEvents (grp : SocketId) (tr : List IoEvent) : List MemberEvent :=
  tr.filterMap (IoEvent.memberOf grp)

namespace GroupRun

/-- Steps pass that are not the group's; what its run sees of its entry stays. -/
structure Pause (r r' : GroupRun) : Prop where
  clock : r'.clock = r.clock
  step : r.step ≤ r'.step
  trace : r'.trace = r.trace
  bond : r'.entry.bond = r.entry.bond
  status : r'.entry.lastStatus = r.entry.lastStatus

/-- The run of a group among other things. -/
abbrev Within (lib : Libsrt) (grp : SocketId) : GroupRun → List Action → GroupRun → Prop :=
  Paused (act lib grp) Pause

/-- A status that is recorded in the entry comes from outside the run. -/
def Action.isStatus : Action → Bool
  | .status _ => true
  | _ => false

end GroupRun

/-- What holds in every run of a group holds in one among other things. -/
theorem Preserved.holds_within {lib : Libsrt} {grp : SocketId} {ok : GroupRun.Action → Prop}
    {P : List WatchedMember → Instant → ℕ → List MemberEvent → Prop}
    {Q : CheckInput → List WatchedMember → List WatchedMember → List WatchedMember → ℕ →
      List MemberEvent → Prop} (hP : Preserved lib grp ok P Q) {r₀ r : GroupRun}
    {as : List GroupRun.Action} (h : GroupRun.Within lib grp r₀ as r) (ho : ∀ a ∈ as, ok a)
    (h₀ : r₀.Holds P) : r.Holds P := by
  refine h.invariant (fun a ha r hr => hP.holds_act (ho a ha) hr) (fun r r' hp hr => ?_) h₀
  have hskip {ws : List WatchedMember} {now : Instant} {k : ℕ} {T : List MemberEvent} (n : ℕ)
      (h : P ws now k T) : P ws now (k + n) T := by
    induction n with
    | zero => exact h
    | succ n ih => exact hP.skip now ih
  obtain ⟨n, hn⟩ := Nat.exists_eq_add_of_le hp.step
  have hg : r'.entry.isGroup = r.entry.isGroup := congrArg Prod.fst hp.bond
  have hw : r'.entry.watched = r.entry.watched := congrArg (Prod.snd ∘ Prod.snd) hp.bond
  refine ⟨hg.trans hr.1, ?_⟩
  rw [hw, hp.clock, hn, hp.trace]
  exact hskip n hr.2

namespace Bridge

def Bare (grp : SocketId) (b : Bridge) : Prop := ∀ e, b.entry grp = some e → e.watched = []

/-- From `b` to `b'` nothing is done for the members of the group, and its entry is kept but for its
status and its channels, unless it is taken out, or replaced by one without members. -/
def Spares (grp : SocketId) (b b' : Bridge) : Prop :=
  ∃ es, b'.trace = b.trace ++ es ∧ (∀ x ∈ es, x.memberOf grp = none) ∧
    ((∃ x ∈ es, x.turns grp = true) ∧ b'.Bare grp ∨
      (b'.entry grp).map SocketState.bond = (b.entry grp).map SocketState.bond)

section Spares

variable {lib : Libsrt} {grp id : SocketId} {b b' b'' : Bridge} {reply : ReplyId}

theorem Bare.of_bond (h : b.Bare grp)
    (hbond : (b'.entry grp).map SocketState.bond = (b.entry grp).map SocketState.bond) : b'.Bare grp := by
  intro e' he'
  rw [he', Option.map_some, eq_comm, Option.map_eq_some_iff] at hbond
  obtain ⟨e, he, hsame⟩ := hbond
  have hw : e'.watched = e.watched := (congrArg (Prod.snd ∘ Prod.snd) hsame).symm
  exact hw.trans (h e he)

theorem Spares.of_same (ht : b'.trace = b.trace)
    (he : (b'.entry grp).map SocketState.bond = (b.entry grp).map SocketState.bond) : Spares grp b b' :=
  ⟨[], by rw [ht, List.append_nil], by simp, .inr he⟩

theorem Spares.refl : Spares grp b b := .of_same rfl rfl

theorem Spares.trans (h : Spares grp b b') (h' : Spares grp b' b'') : Spares grp b b'' := by
  obtain ⟨es, ht, hno, hkept⟩ := h
  obtain ⟨es', ht', hno', hkept'⟩ := h'
  refine ⟨es ++ es', by rw [ht', ht, List.append_assoc], fun x hx => ?_, ?_⟩
  · exact (List.mem_append.mp hx).elim (hno x) (hno' x)
  · rcases hkept' with ⟨⟨x, hx, hturn⟩, hbare⟩ | hkept'
    · exact .inl ⟨⟨x, List.mem_append_right _ hx, hturn⟩, hbare⟩
    · rcases hkept with ⟨⟨x, hx, hturn⟩, hbare⟩ | hkept
      · exact .inl ⟨⟨x, List.mem_append_left _ hx, hturn⟩, hbare.of_bond hkept'⟩
      · exact .inr (hkept'.trans hkept)

theorem Spares.emits {es : List IoEvent} (h : ∀ x ∈ es, x.memberOf grp = none) : Spares grp b (b.emits es) :=
  ⟨es, rfl, h, .inr rfl⟩

theorem Spares.emit {x : IoEvent} (h : x.memberOf grp = none) : Spares grp b (b.emit x) :=
  .emits (List.forall_mem_singleton.mpr h)

theorem Spares.answer (r : Reply) : Spares grp b (b.answer reply r) := .emit rfl

theorem Spares.setOptions (calls : List OptCall) : Spares grp b (b.setOptions lib id calls) :=
  .emits (List.forall_mem_map.mpr fun _ _ => rfl)

/-- An entry is written back that is another's, or has the same members. -/
theorem Spares.setEntry {s : SocketState}
    (h : id = grp → (b.entry grp).map SocketState.bond = some s.bond) : Spares grp b (b.setEntry id s) := by
  refine .of_same rfl ?_
  rw [entry_setEntry]
  split_ifs with hid
  · exact (h hid.symm).symm
  · rfl

theorem Spares.modify {f : SocketState → SocketState} (h : ∀ e, (f e).bond = e.bond) :
    Spares grp b (b.modify id f) := by
  unfold Bridge.modify
  split
  · rename_i e he
    refine .setEntry fun hid => ?_
    rw [← hid, he, h]
    rfl
  · exact .refl

@[simp] theorem updateStatus_bond (e : SocketState) (q : SocketStatus) : (e.updateStatus q).bond = e.bond := by
  simp [SocketState.bond]

theorem Spares.record (q : SocketStatus) : Spares grp b (b.record id q) := by
  unfold Bridge.record
  split
  · rename_i e he
    refine .trans (.setEntry fun hid => ?_) (.emit rfl)
    rw [← hid, he, updateStatus_bond]
    rfl
  · exact .refl

theorem Spares.register (r d t : ChannelId) : Spares grp b (b.register id r d t) := by
  unfold Bridge.register
  split
  · rename_i e he
    refine .trans (.setEntry fun hid => ?_) (.emit rfl)
    rw [← hid, he]
    rfl
  · exact .refl

theorem Spares.enter {s : SocketState} (hs : s.watched = []) : Spares grp b (b.enter id s) := by
  refine ⟨[.entered id], rfl, List.forall_mem_singleton.mpr rfl, ?_⟩
  by_cases hid : grp = id
  · refine .inl ⟨⟨_, List.mem_singleton_self _, by simp [IoEvent.turns, hid]⟩, fun e he => ?_⟩
    rw [entry_enter, if_pos hid] at he
    exact Option.some.inj he ▸ hs
  · right
    rw [entry_enter, if_neg hid]

theorem Spares.enterIfAbsent {s : SocketState} (hs : s.watched = []) :
    Spares grp b (b.enterIfAbsent id s) := by
  unfold Bridge.enterIfAbsent
  split
  · exact .refl
  · exact .enter hs

theorem Spares.release : Spares grp b (b.release id) := by
  cases he : b.entry id with
  | none =>
    rw [release_none he]
    exact .refl
  | some e =>
    refine ⟨[.released id], trace_release he, List.forall_mem_singleton.mpr rfl, ?_⟩
    by_cases hid : grp = id
    · refine .inl ⟨⟨_, List.mem_singleton_self _, by simp [IoEvent.turns, hid]⟩, fun e he => ?_⟩
      rw [entry_release, if_pos hid] at he
      cases he
    · right
      rw [entry_release, if_neg hid]

theorem Spares.closeAndRelease : Spares grp b (b.closeAndRelease id) := by
  unfold Bridge.closeAndRelease
  dsimp only
  split_ifs
  · exact .trans (.emit rfl) .release
  · exact .trans (.emit rfl) (.trans (.emit rfl) .release)

theorem Spares.closeAndFail (err : SrtError) : Spares grp b (b.closeAndFail id err) := by
  unfold Bridge.closeAndFail
  split
  · exact .trans .closeAndRelease (.answer _)
  · exact .closeAndRelease

theorem Spares.closeAndDrop : Spares grp b (b.closeAndDrop id) := by
  unfold Bridge.closeAndDrop
  split
  · exact .trans .closeAndRelease (.emit rfl)
  · exact .closeAndRelease

theorem Spares.handleSend : Spares grp b (b.handleSend lib id) := by
  obtain ⟨es, ht, hes⟩ := trace_handleSend lib b id
  obtain ⟨l, hl⟩ := entry_handleSend lib b id
  refine ⟨es, ht, fun x hx => ?_, .inr ?_⟩
  · obtain ⟨data, ok, rfl⟩ := hes x hx
    rfl
  · rw [hl]
    split_ifs with hid
    · rw [hid, Option.map_map]
      rfl
    · rfl

theorem Spares.handleRecv (j : ℕ) : Spares grp b (b.handleRecv lib j id) := by
  have hall (packets : List ReceivedPacket) (c : Bridge) : Spares grp c (packets.foldl (deliver id) c) := by
    induction packets generalizing c with
    | nil => exact .refl
    | cons p packets ih =>
      have hfirst : Spares grp c (c.deliver id p) :=
        ⟨[.took id p], trace_deliver p, List.forall_mem_singleton.mpr rfl, .inr (by rw [entry_deliver])⟩
      exact hfirst.trans (ih _)
  unfold Bridge.handleRecv
  split_ifs
  · exact .refl
  · exact hall _ b

theorem Spares.putGroup (r : GroupRun) (h : id ≠ grp) : Spares grp b (b.putGroup id r) := by
  have hset : Spares grp b (b.setEntry id r.entry) := .setEntry fun hid => absurd hid h
  exact hset.trans (.emits (List.forall_mem_map.mpr fun _ _ => if_neg h))

end Spares

/-- What a step is to the group: one of its actions, or nothing. -/
def groupAction (grp : SocketId) : IoStep → Option GroupRun.Action
  | .command (.connectGroup id eps _) => if id = grp then some (.connect eps) else none
  | .command (.addGroupMember id ep _) => if id = grp then some (.add ep) else none
  | .check id => if id = grp then some .check else none
  | _ => none

section Steps

variable {lib : Libsrt} {grp id : SocketId} {b : Bridge} {reply : ReplyId}

theorem createSocket_spares (config : SrtConfig) : Spares grp b (b.createSocket lib config reply) := by
  unfold createSocket
  dsimp only
  split_ifs
  · exact .answer _
  · exact (Spares.emit rfl).trans ((Spares.setOptions _).trans ((Spares.setOptions _).trans (.answer _)))

theorem bindSocket_spares (addr : SocketAddr) : Spares grp b (b.bindSocket lib id addr reply) := by
  unfold bindSocket
  split_ifs <;> exact (Spares.emit rfl).trans (.answer _)

theorem listenOn_spares (backlog : ℤ) : Spares grp b (b.listenOn lib id backlog reply) := by
  unfold listenOn
  split_ifs
  · exact (Spares.emit rfl).trans (Spares.closeAndDrop.trans (.answer _))
  · have hflag : Spares grp ((b.emit (.listening id true)).emit (.subscribed id))
        (((b.emit (.listening id true)).emit (.subscribed id)).modify id fun s =>
          { s with isListener := true }) := .modify fun _ => rfl
    exact (Spares.emit rfl).trans ((Spares.emit rfl).trans (hflag.trans ((Spares.record _).trans (.answer _))))

theorem listen_spares (backlog : ℤ) : Spares grp b (b.listen lib id backlog reply) := by
  rcases registerListenCallback_cases lib b id with ⟨-, heq⟩ | ⟨slot, -, -, heq⟩ | ⟨slot, err, -, -, heq⟩
  · rw [listen_eq backlog reply heq]
    exact listenOn_spares backlog
  · rw [listen_eq backlog reply heq]
    exact (Spares.emit rfl).trans (listenOn_spares backlog)
  · unfold listen
    rw [heq]
    exact (Spares.emit rfl).trans (Spares.closeAndDrop.trans (.answer _))

theorem awaitConnect_spares : Spares grp b (b.awaitConnect id reply) := by
  have hwait (c : Bridge) :
      Spares grp c ((c.modify id fun s => { s with connectReply := some reply }).record id .connecting) := by
    refine Spares.trans (.modify fun _ => ?_) (.record _)
    rfl
  unfold awaitConnect
  split
  · exact .emit rfl
  · split
    · exact (Spares.emit rfl).trans (hwait _)
    · exact hwait b

theorem connect_spares (addr : SocketAddr) : Spares grp b (b.connect lib id addr reply) := by
  unfold connect
  dsimp only
  split_ifs
  · exact (Spares.emit rfl).trans (.answer _)
  · refine (Spares.emit (x := .connecting id) rfl).trans ?_
    cases lib.getsockstate b.step 0 id with
    | connected => exact (Spares.emit rfl).trans ((Spares.record _).trans (.answer _))
    | connecting | opened | init => exact (Spares.emit rfl).trans awaitConnect_spares
    | _ => exact .answer _

theorem registerSocket_spares (r d t : ChannelId) : Spares grp b (b.registerSocket lib id r d t) := by
  have hfirst : Spares grp b ((b.enterIfAbsent id .fresh).register id r d t) :=
    (Spares.enterIfAbsent rfl).trans (.register r d t)
  unfold registerSocket
  dsimp only
  split
  · split_ifs
    · exact hfirst
    · exact hfirst.trans (.record _)
  · exact hfirst

theorem registerListener_spares (c : ChannelId) (a : Option ℕ) :
    Spares grp b (b.registerListener id c a) := by
  refine (Spares.enterIfAbsent rfl).trans (.modify fun _ => ?_)
  rfl

theorem createGroup_spares (mode : GroupType) (config : SrtConfig) :
    Spares grp b (b.createGroup lib mode config reply) := by
  unfold createGroup
  dsimp only
  split_ifs
  · exact .answer _
  · exact (Spares.emit rfl).trans ((Spares.setOptions _).trans ((Spares.setOptions _).trans
      ((Spares.enter rfl).trans (.answer _))))

theorem connectGroup_spares (eps : List GroupEndpoint) (h : id ≠ grp) :
    Spares grp b (b.connectGroup lib id eps reply) := by
  unfold connectGroup
  split
  · exact .answer _
  · refine (Spares.emit (x := .subscribed id) rfl).trans ?_
    dsimp only
    split
    · exact (Spares.putGroup _ h).trans ((Spares.emit rfl).trans (.answer _))
    · exact .answer _

theorem addGroupMember_spares (ep : GroupEndpoint) (h : id ≠ grp) :
    Spares grp b (b.addGroupMember lib id ep reply) := by
  unfold addGroupMember
  split
  · exact .answer _
  · exact (Spares.putGroup _ h).trans (.answer _)

theorem shutdown_spares : Spares grp b b.shutdown := by
  have hone (c : Bridge) (id : SocketId) : Spares grp c (shutdownOne c id) := by
    have hclosed : Spares grp c (((c.emit (.unsubscribed id)).emit (.closed id)).release id) :=
      (Spares.emit rfl).trans ((Spares.emit rfl).trans .release)
    unfold shutdownOne
    dsimp only
    split
    · exact hclosed.trans (.answer _)
    · exact hclosed
  have hall (ids : List SocketId) (c : Bridge) : Spares grp c (ids.foldl shutdownOne c) := by
    induction ids generalizing c with
    | nil => exact .refl
    | cons id ids ih => exact (hone c id).trans (ih _)
  have hlast : Spares grp (b.sockets.keys.foldl shutdownOne b) b.shutdown := .of_same rfl rfl
  exact (hall _ b).trans hlast

theorem processCommand_spares {cmd : IoCommand} (h : groupAction grp (.command cmd) = none) :
    Spares grp b (b.processCommand lib cmd) := by
  cases cmd with
  | createSocket => exact createSocket_spares _
  | bind => exact bindSocket_spares _
  | listen => exact listen_spares _
  | connect => exact connect_spares _
  | registerSocket => exact registerSocket_spares _ _ _
  | registerListener => exact registerListener_spares _ _
  | close => exact .closeAndFail _
  | createGroup => exact createGroup_spares _ _
  | connectGroup id => exact connectGroup_spares _ (by simpa [groupAction] using h)
  | addGroupMember id => exact addGroupMember_spares _ (by simpa [groupAction] using h)
  | shutdown => exact shutdown_spares
  | getStats | getState | getPeerAddr | getLocalAddr | getStreamId | getGroupMemberStats => exact .answer _

theorem handleAccept_spares : Spares grp b (b.handleAccept lib id) := by
  unfold handleAccept
  dsimp only
  split_ifs
  · exact .refl
  · refine (Spares.emit (x := .accepted id (lib.accept b.step id)) rfl).trans ?_
    split
    · exact .emit rfl
    · rename_i c chan _
      have hput (b' : Bridge) : Spares grp b' { b' with accepts := Function.update b'.accepts c chan } :=
        .of_same rfl rfl
      exact (hput _).trans ((Spares.setOptions _).trans (.emit rfl))

theorem connectCompletion_spares : Spares grp b (b.connectCompletion lib id) := by
  unfold connectCompletion
  split
  · exact .refl
  · have hmod : Spares grp b (b.modify id fun s => { s with connectReply := none }) :=
      .modify fun _ => rfl
    dsimp only
    split_ifs <;> exact hmod.trans ((Spares.answer _).trans (.record _))

theorem errorEvent_spares : Spares grp b (b.errorEvent lib id) := by
  unfold errorEvent
  split
  · split_ifs
    · exact .refl
    · exact .record _
  · exact .refl

theorem processEvent_spares (flags : EpollFlags) : Spares grp b (b.processEvent lib id flags) := by
  have hif (c : Bool) (f : Bridge → Bridge) (hf : ∀ b', Spares grp b' (f b')) (b' : Bridge) :
      Spares grp b' (if c = true then f b' else b') := by
    split_ifs
    · exact hf b'
    · exact .refl
  unfold processEvent
  by_cases hlis : (b.entry id).any SocketState.isListener = true ∧ flags.inp = true
  · rw [if_pos hlis]
    exact handleAccept_spares
  · rw [if_neg hlis]
    have h₁ := hif flags.connect (connectCompletion lib id) (fun _ => connectCompletion_spares)
    have h₂ := hif flags.inp (handleRecv lib 1 id) fun _ => .handleRecv 1
    have h₃ := hif flags.out (handleSend lib id) fun _ => .handleSend
    have h₄ := hif flags.err (errorEvent lib id) fun _ => errorEvent_spares
    exact (h₁ b).trans ((h₂ _).trans ((h₃ _).trans (h₄ _)))

theorem drain_spares : Spares grp b (b.drain lib id) := by
  unfold drain
  split
  · split_ifs
    · exact .handleSend
    · exact .refl
  · exact .refl

theorem sweep_spares : Spares grp b (b.sweep lib id) := by
  unfold sweep
  split
  · split_ifs
    · exact .handleRecv 0
    · exact .refl
  · exact .refl

theorem check_spares (h : id ≠ grp) : Spares grp b (b.check lib id) := by
  unfold check
  split
  · rename_i e _
    have hput : Spares grp b { b.putGroup id ((b.groupRun e).checkGroup lib id) with
        step := ((b.groupRun e).checkGroup lib id).step } :=
      (Spares.putGroup _ h).trans (.of_same rfl rfl)
    dsimp only
    split_ifs
    · exact hput
    · exact hput.trans (.emit rfl)
    · exact .refl
  · exact .refl

theorem poll_spares : Spares grp b (b.poll lib id) := by
  have hfail (c : Bridge) (err : SrtError) : Spares grp c (c.failConnect id err) := by
    unfold failConnect
    split
    · refine Spares.trans (.modify fun _ => ?_) (.answer _)
      rfl
    · exact .refl
  unfold poll
  split
  · dsimp only
    split_ifs
    · exact .refl
    · exact (Spares.record _).trans (hfail _ _)
    · exact .record _
  · exact .refl

theorem cleanupZombies_spares : Spares grp b b.cleanupZombies := by
  have hall (ids : List SocketId) (c : Bridge) :
      Spares grp c (ids.foldl (fun b id => b.closeAndFail id .connectionLost) c) := by
    induction ids generalizing c with
    | nil => exact .refl
    | cons i ids ih => exact (Spares.closeAndFail _).trans (ih _)
  exact hall _ b

theorem ioStep_spares {s : IoStep} (h : groupAction grp s = none) : Spares grp b (b.ioStep lib s) := by
  cases s with
  | command => exact processCommand_spares h
  | event id flags => exact processEvent_spares flags
  | drain => exact drain_spares
  | sweep => exact sweep_spares
  | check id => exact check_spares (by simpa [groupAction] using h)
  | poll => exact poll_spares
  | cleanup => exact cleanupZombies_spares

end Steps

def Action.ofGroup (grp : SocketId) : Action → Option GroupRun.Action
  | .io s => groupAction grp s
  | .tokio _ => none
  | .elapse d => some (.elapse d)

section Within

variable {lib : Libsrt} {grp : SocketId} {b₀ b : Bridge} {e : SocketState} {as : List GroupRun.Action}
  {T : List MemberEvent}

theorem memberEvents_append (tr tr' : List IoEvent) :
    memberEvents grp (tr ++ tr') = memberEvents grp tr ++ memberEvents grp tr' :=
  List.filterMap_append

theorem memberEvents_none {es : List IoEvent} (h : ∀ x ∈ es, x.memberOf grp = none) :
    memberEvents grp es = [] :=
  List.filterMap_eq_nil_iff.mpr h

/-- A step's events, those of the group's members among others. -/
theorem memberEvents_around (T : List MemberEvent) {pre post : List IoEvent}
    (hpre : ∀ x ∈ pre, x.memberOf grp = none) (hpost : ∀ x ∈ post, x.memberOf grp = none) :
    memberEvents grp (pre ++ T.map (.member grp) ++ post) = T := by
  have hmembers : memberEvents grp (T.map (.member grp)) = T := by
    induction T with
    | nil => rfl
    | cons m T ih =>
      have hfirst : (IoEvent.member grp m).memberOf grp = some m := if_pos rfl
      rw [List.map_cons, memberEvents, List.filterMap_cons_some hfirst]
      exact congrArg _ ih
  rw [memberEvents_append, memberEvents_append, memberEvents_none hpre, memberEvents_none hpost, hmembers,
    List.nil_append, List.append_nil]

def bondOf (b : Bridge) (e : SocketState) (T : List MemberEvent) : GroupRun := ⟨e, b.clock, b.step, T⟩

/-- A step does to the group what the action does to its run. -/
structure Mirrors (lib : Libsrt) (grp : SocketId) (b : Bridge) (e : SocketState) (a : GroupRun.Action)
    (b' : Bridge) : Prop where
  entry : b'.entry grp = some (GroupRun.act lib grp (b.groupRun e) a).entry
  record : ∃ es, b'.trace = b.trace ++ es ∧
    memberEvents grp es = (GroupRun.act lib grp (b.groupRun e) a).trace
  step : (GroupRun.act lib grp (b.groupRun e) a).step ≤ b'.step + 1
  clock : ∀ d, a ≠ .elapse d

theorem connectGroup_mirrors (he : b.entry grp = some e) (eps : List GroupEndpoint) (reply : ReplyId) :
    Mirrors lib grp b e (.connect eps) (b.connectGroup lib grp eps reply) := by
  have hambient : (b.connectGroup lib grp eps reply).ambient = b.ambient :=
    @ambient_processCommand lib b (.connectGroup grp eps reply) (by simp)
  have hb : (b.connectGroup lib grp eps reply).step = b.step := congrArg (·.2.1) hambient
  cases hr : (SrtBridge.connectGroup lib b.step 0 grp eps).refused with
  | some err =>
    have hrun : GroupRun.act lib grp (b.groupRun e) (.connect eps) =
        { b.groupRun e with step := b.step + 1 } := by
      simp [GroupRun.act, GroupRun.connect, groupRun, hr]
    have hthread : b.connectGroup lib grp eps reply = b.answer reply (.done (.error err)) := by
      simp [connectGroup, hr]
    refine ⟨?_, ⟨[_], by rw [hthread]; exact trace_answer .., ?_⟩, ?_, by simp⟩
    · rw [hthread, hrun, entry_answer, he]
      rfl
    · rw [hrun]
      rfl
    · rw [hrun, hb]
  | none =>
    set r := GroupRun.act lib grp (b.groupRun e) (.connect eps) with hrun
    have hthread : b.connectGroup lib grp eps reply =
        (((b.emit (.subscribed grp)).putGroup grp r).emit (.recorded grp .connected)).answer reply
          (.done (.ok ())) := by
      have hent : (b.emit (.subscribed grp)).entry grp = some e := he
      simp only [connectGroup, hr, hent]
      rfl
    refine ⟨?_, ⟨[.subscribed grp] ++ r.trace.map (.member grp) ++
      [.recorded grp .connected, .answered reply (.done (.ok ()))], ?_, ?_⟩, ?_, by simp⟩
    · rw [hthread, entry_answer, entry_emit, putGroup, entry_emits, entry_setEntry, if_pos rfl]
    · rw [hthread]
      simp [putGroup]
    · exact memberEvents_around r.trace (by simp [IoEvent.memberOf]) (by simp [IoEvent.memberOf])
    · rw [hb]
      simp [GroupRun.act, GroupRun.connect, groupRun, hr]

theorem addGroupMember_mirrors (he : b.entry grp = some e) (ep : GroupEndpoint) (reply : ReplyId) :
    Mirrors lib grp b e (.add ep) (b.addGroupMember lib grp ep reply) := by
  have hambient : (b.addGroupMember lib grp ep reply).ambient = b.ambient :=
    @ambient_processCommand lib b (.addGroupMember grp ep reply) (by simp)
  have hb : (b.addGroupMember lib grp ep reply).step = b.step := congrArg (·.2.1) hambient
  set r := (b.groupRun e).addGroupMember lib grp ep with hr
  have hthread : b.addGroupMember lib grp ep reply = (b.putGroup grp r.2).answer reply (.done r.1) := by
    simp only [addGroupMember, he, hr]
  refine ⟨?_, ⟨[] ++ r.2.trace.map (.member grp) ++ [.answered reply (.done r.1)], ?_, ?_⟩, ?_, by simp⟩
  · rw [hthread, entry_answer, putGroup, entry_emits, entry_setEntry, if_pos rfl]
    rfl
  · rw [hthread]
    simp [putGroup]
  · exact memberEvents_around r.2.trace (by simp) (by simp [IoEvent.memberOf])
  · have hstep : r.2.step = b.step + 1 := by
      rw [hr]
      unfold GroupRun.addGroupMember
      dsimp only
      split_ifs
      · rfl
      · split
        · rfl
        · split <;> rfl
      · rfl
    rw [hb]
    exact hstep.le

/-- A check of the group, or none when the thread has nothing to look at. -/
theorem check_mirrors (he : b.entry grp = some e) :
    b.check lib grp = b ∨ Mirrors lib grp b e .check (b.check lib grp) := by
  set r := (b.groupRun e).checkGroup lib grp with hr
  by_cases hlive : e.watched ≠ [] ∧ e.lastStatus ≠ .init ∧ isTerminalStatus e.lastStatus = false
  · right
    by_cases hsame : r.entry.lastStatus = e.lastStatus
    · have hthread : b.check lib grp = { b.putGroup grp r with step := r.step } := by
        simp only [check, he, if_pos hlive, ← hr, if_pos hsame]
      rw [hthread]
      refine ⟨?_, ⟨[] ++ r.trace.map (.member grp) ++ [], by simp [putGroup],
        memberEvents_around r.trace (by simp) (by simp)⟩, Nat.le_succ _, by simp⟩
      show (b.setEntry grp r.entry).entry grp = _
      rw [entry_setEntry, if_pos rfl]
      rfl
    · have hthread : b.check lib grp =
          { b.putGroup grp r with step := r.step }.emit (.recorded grp r.entry.lastStatus) := by
        simp only [check, he, if_pos hlive, ← hr, if_neg hsame]
      rw [hthread]
      refine ⟨?_, ⟨[] ++ r.trace.map (.member grp) ++ [.recorded grp r.entry.lastStatus], ?_,
        memberEvents_around r.trace (by simp) (by simp [IoEvent.memberOf])⟩, Nat.le_succ _, by simp⟩
      · show (b.setEntry grp r.entry).entry grp = _
        rw [entry_setEntry, if_pos rfl]
        rfl
      · rw [trace_emit, List.nil_append, ← List.append_assoc]
        rfl
  · left
    simp only [check, he, if_neg hlive]

/-- The thread has been seen from the group's entry, `e₀` in `b₀`: as the run `as` of the group, until
the entry is taken out or replaced. -/
def SeenAs (lib : Libsrt) (grp : SocketId) (b₀ : Bridge) (e₀ : SocketState) (actions : List Action)
    (b : Bridge) : Prop :=
  ∃ es, b.trace = b₀.trace ++ es ∧ ((∃ x ∈ es, x.turns grp = true) ∨
    ∃ e as, b.entry grp = some e ∧
      GroupRun.Within lib grp (b₀.groupRun e₀) as (b.bondOf e (memberEvents grp es)) ∧
        (as.filter fun a => !a.isStatus).Sublist (actions.filterMap (Action.ofGroup grp)))

variable {e₀ : SocketState} {actions : List Action}

theorem Mirrors.within {a : GroupRun.Action} {b' : Bridge} (h : Mirrors lib grp b e a b')
    (hc : b'.clock = b.clock) {r₀ : GroupRun}
    (hw : GroupRun.Within lib grp r₀ as (b.bondOf e T)) :
    ∃ es, b'.trace = b.trace ++ es ∧ ∃ e', b'.entry grp = some e' ∧
      GroupRun.Within lib grp r₀ (as ++ [a]) ⟨e', b'.clock, b'.step + 1, T ++ memberEvents grp es⟩ := by
  obtain ⟨es, ht, hes⟩ := h.record
  have hact : GroupRun.act lib grp (b.bondOf e T) a = (GroupRun.act lib grp (b.groupRun e) a).after T := by
    rw [← GroupRun.act_after]
    simp [bondOf, GroupRun.after, groupRun]
  have hstep := Paused.act hw a
  rw [hact] at hstep
  have hkept : b'.clock = (GroupRun.act lib grp (b.groupRun e) a).clock :=
    hc.trans (GroupRun.act_clock (b.groupRun e) h.clock).symm
  exact ⟨es, ht, _, h.entry, hstep.pause ⟨hkept, h.step, by rw [hes]; rfl, rfl, rfl⟩⟩

/-- A step that leaves the members alone: perhaps a status is recorded. -/
theorem Spares.within {b' : Bridge} (h : Spares grp b b') (he : b.entry grp = some e)
    (hc : b'.clock = b.clock) (hk : b.step ≤ b'.step + 1) {r₀ : GroupRun}
    (hw : GroupRun.Within lib grp r₀ as (b.bondOf e T)) :
    ∃ es, b'.trace = b.trace ++ es ∧ ((∃ x ∈ es, x.turns grp = true) ∨
      ∃ e', b'.entry grp = some e' ∧ GroupRun.Within lib grp r₀ (as ++ [.status e'.lastStatus])
        ⟨e', b'.clock, b'.step + 1, T ++ memberEvents grp es⟩) := by
  obtain ⟨es, ht, hno, ⟨hturn, -⟩ | hbond⟩ := h
  · exact ⟨es, ht, .inl hturn⟩
  · rw [he, Option.map_some, Option.map_eq_some_iff] at hbond
    obtain ⟨e', he', hbond⟩ := hbond
    have hstep := Paused.act hw (.status e'.lastStatus)
    refine ⟨es, ht, .inr ⟨e', he', hstep.pause ⟨hc, hk, ?_, ?_, ?_⟩⟩⟩
    · rw [memberEvents_none hno, List.append_nil]
      rfl
    · exact hbond.trans (updateStatus_bond ..).symm
    · exact (SocketState.updateStatus_lastStatus ..).symm

theorem mirrors_of_action {s : IoStep} {a : GroupRun.Action} (ha : groupAction grp s = some a)
    (he : b.entry grp = some e) : b.ioStep lib s = b ∨ Mirrors lib grp b e a (b.ioStep lib s) := by
  cases s with
  | command cmd =>
    cases cmd with
    | connectGroup id eps reply =>
      simp only [groupAction, Option.ite_none_right_eq_some, Option.some.injEq] at ha
      obtain ⟨rfl, rfl⟩ := ha
      exact .inr (connectGroup_mirrors he eps reply)
    | addGroupMember id ep reply =>
      simp only [groupAction, Option.ite_none_right_eq_some, Option.some.injEq] at ha
      obtain ⟨rfl, rfl⟩ := ha
      exact .inr (addGroupMember_mirrors he ep reply)
    | _ => cases ha
  | check id =>
    simp only [groupAction, Option.ite_none_right_eq_some, Option.some.injEq] at ha
    obtain ⟨rfl, rfl⟩ := ha
    exact check_mirrors he
  | _ => cases ha

theorem act_within (he : b.entry grp = some e) {r₀ : GroupRun}
    (hw : GroupRun.Within lib grp r₀ as (b.bondOf e T)) (a : Action) :
    ∃ es, (b.act lib a).trace = b.trace ++ es ∧ ((∃ x ∈ es, x.turns grp = true) ∨
      ∃ e' more, (b.act lib a).entry grp = some e' ∧
        GroupRun.Within lib grp r₀ (as ++ more) ((b.act lib a).bondOf e' (T ++ memberEvents grp es)) ∧
          (more.filter fun a => !a.isStatus).Sublist ([a].filterMap (Action.ofGroup grp))) := by
  have hsame {b' : Bridge} (ht : b'.trace = b.trace) (he' : b'.entry grp = b.entry grp)
      (hc : b'.clock = b.clock) (hk : b.step ≤ b'.step) :
      ∃ es, b'.trace = b.trace ++ es ∧ ((∃ x ∈ es, x.turns grp = true) ∨
        ∃ e' more, b'.entry grp = some e' ∧
          GroupRun.Within lib grp r₀ (as ++ more) (b'.bondOf e' (T ++ memberEvents grp es)) ∧
            (more.filter fun a => !a.isStatus).Sublist ([a].filterMap (Action.ofGroup grp))) := by
    refine ⟨[], by rw [ht, List.append_nil], .inr ⟨e, [], he'.trans he, ?_, List.nil_sublist _⟩⟩
    rw [List.append_nil]
    exact hw.pause ⟨hc, hk, List.append_nil T, rfl, rfl⟩
  cases a with
  | tokio t => cases t <;> exact hsame rfl rfl rfl le_rfl
  | elapse d =>
    refine ⟨[], (List.append_nil _).symm, .inr ⟨e, [.elapse d], he, ?_, ?_⟩⟩
    · have hstep := Paused.act hw (.elapse d)
      exact hstep.pause ⟨rfl, le_rfl, List.append_nil T, rfl, rfl⟩
    · simp [GroupRun.Action.isStatus, Action.ofGroup]
  | io s =>
    by_cases hr : b.running = true
    · have hact : b.act lib (.io s) = { b.ioStep lib s with step := (b.ioStep lib s).step + 1 } := if_pos hr
      obtain ⟨hclock, -, hstep⟩ := ioStep_ambient lib b s
      cases ha : groupAction grp s with
      | none =>
        have hspares : Spares grp b (b.ioStep lib s) := ioStep_spares ha
        obtain ⟨es, ht, hkept⟩ := hspares.within he hclock (hstep.trans (Nat.le_succ _)) hw
        rw [hact]
        rcases hkept with hturn | ⟨e', he', hw'⟩
        · exact ⟨es, ht, .inl hturn⟩
        · refine ⟨es, ht, .inr ⟨e', _, he', hw', ?_⟩⟩
          simp [GroupRun.Action.isStatus]
      | some a =>
        have hdone : b.ioStep lib s = b ∨ Mirrors lib grp b e a (b.ioStep lib s) := mirrors_of_action ha he
        rcases hdone with hidle | hm
        · have ht : (b.ioStep lib s).trace = b.trace := congrArg Bridge.trace hidle
          have he' : (b.ioStep lib s).entry grp = b.entry grp := congrArg (Bridge.entry · grp) hidle
          rw [hact]
          exact hsame ht he' hclock (hstep.trans (Nat.le_succ _))
        · obtain ⟨es, ht, e', he', hw'⟩ := hm.within hclock hw
          rw [hact]
          refine ⟨es, ht, .inr ⟨e', [a], he', hw', ?_⟩⟩
          have hone : [Action.io s].filterMap (Action.ofGroup grp) = [a] := by
            simp [Action.ofGroup, ha]
          rw [hone]
          exact List.filter_sublist
    · have hact : b.act lib (.io s) = b := if_neg hr
      rw [hact]
      exact hsame rfl rfl rfl le_rfl

theorem SeenAs.act (h : SeenAs lib grp b₀ e₀ actions b) (a : Action) :
    SeenAs lib grp b₀ e₀ (actions ++ [a]) (b.act lib a) := by
  obtain ⟨es, ht, ⟨x, hx, hturn⟩ | ⟨e, as, he, hw, hsub⟩⟩ := h
  · obtain ⟨es', ht'⟩ : ∃ es', (b.act lib a).trace = b.trace ++ es' := by
      cases a with
      | io s =>
        by_cases hr : b.running = true
        · obtain ⟨es', ht', -⟩ := (ioStep_moves lib b s).trace
          exact ⟨es', (trace_act hr s).trans ht'⟩
        · exact ⟨[], by rw [List.append_nil]; exact congrArg Bridge.trace (if_neg hr)⟩
      | tokio t => exact ⟨[], by cases t <;> exact (List.append_nil _).symm⟩
      | elapse d => exact ⟨[], (List.append_nil _).symm⟩
    exact ⟨es ++ es', by rw [ht', ht, List.append_assoc], .inl ⟨x, List.mem_append_left _ hx, hturn⟩⟩
  · obtain ⟨es', ht', hnew⟩ := act_within he hw a
    refine ⟨es ++ es', by rw [ht', ht, List.append_assoc], ?_⟩
    rcases hnew with ⟨x, hx, hturn⟩ | ⟨e', more, he', hw', hsub'⟩
    · exact .inl ⟨x, List.mem_append_right _ hx, hturn⟩
    · refine .inr ⟨e', as ++ more, he', ?_, ?_⟩
      · rw [memberEvents_append]
        exact hw'
      · rw [List.filter_append, List.filterMap_append]
        exact hsub.append hsub'

theorem seenAs_run (he : b₀.entry grp = some e₀) (actions : List Action) :
    SeenAs lib grp b₀ e₀ actions (b₀.run lib actions) := by
  induction actions using List.reverseRecOn with
  | nil => exact ⟨[], (List.append_nil _).symm, .inr ⟨e₀, [], he, .start, List.nil_sublist _⟩⟩
  | append_singleton actions a ih =>
    have hlast : b₀.run lib (actions ++ [a]) = (b₀.run lib actions).act lib a := by
      simp [run, List.foldl_append]
    rw [hlast]
    exact ih.act a

theorem SeenAs.kept (h : SeenAs lib grp b₀ e₀ actions b)
    (hkept : ∀ x ∈ b.trace.drop b₀.trace.length, x.turns grp = false) : ∃ e as, b.entry grp = some e ∧
      GroupRun.Within lib grp (b₀.groupRun e₀) as
        (b.bondOf e (memberEvents grp (b.trace.drop b₀.trace.length))) ∧
      (as.filter fun a => !a.isStatus).Sublist (actions.filterMap (Action.ofGroup grp)) := by
  obtain ⟨es, ht, hseen⟩ := h
  rw [ht, List.drop_left] at hkept ⊢
  rcases hseen with ⟨x, hx, hturn⟩ | hrun
  · exact absurd ((hkept x hx).symm.trans hturn) Bool.false_ne_true
  · exact hrun

/-- As long as a group's entry is neither taken out nor replaced, the thread takes it through a run of the
group, whatever else it does: the events about the members are what that run records, and the group's
actions in it are among what the thread was asked to do. -/
theorem group_refines (lib : Libsrt) (he : b₀.entry grp = some e₀) (actions : List Action)
    (hkept : ∀ x ∈ (b₀.run lib actions).trace.drop b₀.trace.length, x.turns grp = false) :
    let b := b₀.run lib actions
    ∃ e as, b.entry grp = some e ∧
      GroupRun.Within lib grp (b₀.groupRun e₀) as
        (b.bondOf e (memberEvents grp (b.trace.drop b₀.trace.length))) ∧
      (as.filter fun a => !a.isStatus).Sublist (actions.filterMap (Action.ofGroup grp)) := by
  exact (seenAs_run he actions).kept hkept

def groupsOnly (listing : ℕ → List GroupData) : Libsrt :=
  { Libsrt.scripted listing (fun _ _ => .connected) with createGroup := fun _ _ => 5 }

/-- A bond of one link beside a caller that gives up: the link is up at the check. -/
theorem group_refines_among :
    let lib := groupsOnly fun _ => [⟨2, .connected, .running, 1, 7⟩]
    let b₀ := start.run lib [.io (.command (.createGroup .broadcast {} 1))]
    let actions : List Action := [.io (.command (.connectGroup 5 [⟨.v4 0x7f000001 9000, none, 1, 7⟩] 2)),
      .io (.command (.registerSocket 7 1 2 3)), .elapse (fromSecs 1), .io (.command (.close 7)), .io (.check 5)]
    let b := b₀.run lib actions
    let T := memberEvents 5 (b.trace.drop b₀.trace.length)
    (spawnedIds T = [2] ∧ releasedIds T = [2]) ∧
      ∃ e as, b.entry 5 = some e ∧ GroupRun.Within lib 5 (b₀.groupRun (.freshGroup false)) as (b.bondOf e T) ∧
        (as.filter fun a => !a.isStatus).Sublist (actions.filterMap (Action.ofGroup 5)) := by
  intro lib b₀ actions
  exact ⟨by decide +kernel, group_refines lib rfl actions (by decide +kernel)⟩

/-- In the thread as in a run of its own, whatever else is served: from the time a group is created until
its entry goes, and with no member id given twice, each member spawned is in exactly one place, the
replacements stay within the allowance, and a member is closed with cause only. -/
theorem group_members_kept (lib : Libsrt) {backup : Bool} (he : b₀.entry grp = some (.freshGroup backup))
    (actions : List Action)
    (hkept : ∀ x ∈ (b₀.run lib actions).trace.drop b₀.trace.length, x.turns grp = false)
    (hn : (spawnedIds (memberEvents grp ((b₀.run lib actions).trace.drop b₀.trace.length))).Nodup) :
    let b := b₀.run lib actions
    let T := memberEvents grp (b.trace.drop b₀.trace.length)
    ∃ e, b.entry grp = some e ∧
      (∀ id, held id e.watched + (closedIds T).count id + (releasedIds T).count id =
        if id ∈ spawnedIds T then 1 else 0) ∧
      RepairsBounded T ∧ ClosesJustified T := by
  intro b T
  obtain ⟨e, as, hent, hw, -⟩ := (seenAs_run he actions).kept hkept
  have hgrace : (b.bondOf e T).Holds fun ws _ k T =>
      SrtBridge.Accounted ws k T ∧ ((spawnedIds T).Nodup → GraceKept ws T) := by
    have hbare : (b₀.groupRun (.freshGroup backup)).entry.watched = [] := rfl
    refine (graceKept_preserved lib grp).holds_within hw (by simp) ⟨rfl, ⟨by simp [SpawnedBefore, groupRun],
      fun id => rfl⟩, fun _ => ⟨fun before k id after h => ?_, by simp [hbare]⟩⟩
    simp [groupRun] at h
  have hbudget : (b.bondOf e T).Holds fun ws _ k T => Budgeted ws k T := by
    refine (budgeted_preserved lib grp).holds_within hw (by simp) ⟨rfl, by simp [groupRun],
      by simp [groupRun, SocketState.freshGroup, SocketState.fresh], by rfl, fun T' hT' => ?_⟩
    rw [List.prefix_nil.mp hT']
    rfl
  obtain ⟨-, ⟨-, hledger⟩, hcloses⟩ := hgrace
  refine ⟨e, hent, fun id => ?_, hbudget.2.bounded, (hcloses hn).1⟩
  refine (hledger id).symm.trans ?_
  show (spawnedIds T).count id = _
  split_ifs with hid
  · exact List.count_eq_one_of_mem hn hid
  · exact List.count_eq_zero.mpr hid

/-- A bond of one link, stranded: replaced after the grace, and closed once its replacement has been up for
the linger; another socket comes and goes meanwhile. -/
theorem group_members_kept_stranded :
    let lib := groupsOnly fun k => ⟨2, .connected, .pending, 1, 7⟩ ::
      if 10 < k then [⟨11, .connected, .running, 1, 7⟩] else []
    let b₀ := start.run lib [.io (.command (.createGroup .broadcast {} 1))]
    let actions : List Action := [.io (.command (.connectGroup 5 [⟨.v4 0x7f000001 9000, none, 1, 7⟩] 2)),
      .io (.check 5), .io (.command (.registerSocket 7 1 2 3)), .elapse (fromMillis 500), .io (.check 5),
      .io (.command (.close 7)), .elapse (fromMillis 100), .io (.check 5), .elapse (fromSecs 1), .io (.check 5)]
    let b := b₀.run lib actions
    let T := memberEvents 5 (b.trace.drop b₀.trace.length)
    (spawnedIds T = [2, 11] ∧ closedIds T = [2]) ∧ ∃ e, b.entry 5 = some e ∧
      (∀ id, held id e.watched + (closedIds T).count id + (releasedIds T).count id =
        if id ∈ spawnedIds T then 1 else 0) ∧
      RepairsBounded T ∧ ClosesJustified T := by
  intro lib b₀ actions
  exact ⟨by decide +kernel, group_members_kept lib rfl actions (by decide +kernel) (by decide +kernel)⟩

end Within

end Bridge

end SrtBridge
