import SrtBridge.Bridge.Groups
import SrtBridge.Bridge.Errors

/-! Who is in the epoll. The bridge keeps no list of what it has put there: where it closes a
socket it takes it out first, but for a caller group that is still at `Init`. For groups that
is right, as one leaves `Init` exactly when its connect puts it into the epoll; every other
socket is taken out whether it was ever put in or not. -/

namespace SrtBridge

def IoEvent.isDry : IoEvent → Bool
  | .subscribed _ | .unsubscribed _ | .closed _ | .created _ => false
  | _ => true

section Places

variable {id : SocketId} {tr es : List IoEvent}

theorem epollAfter_aside {x : IoEvent} (h : x.isDry = true ∨ x.subject ≠ some id) (inside : Bool) :
    epollAfter id inside x = inside := by
  cases x <;> simp_all [IoEvent.isDry, IoEvent.subject, epollAfter, eq_comm]

/-- Only an event about the socket changes its place in the epoll. -/
theorem inEpoll_aside (h : ∀ x ∈ es, x.isDry = true ∨ x.subject ≠ some id) :
    inEpoll id (tr ++ es) = inEpoll id tr := by
  have hall (inside : Bool) : es.foldl (epollAfter id) inside = inside := by
    induction es with
    | nil => rfl
    | cons x es ih =>
      rw [List.foldl_cons, epollAfter_aside (h x (by simp))]
      exact ih fun y hy => h y (by simp [hy])
  unfold inEpoll
  rw [List.foldl_append, hall]

theorem inEpoll_dry (h : ∀ x ∈ es, x.isDry = true) : inEpoll id (tr ++ es) = inEpoll id tr :=
  inEpoll_aside fun x hx => .inl (h x hx)

theorem inEpoll_cons_dry (x : IoEvent) (h : ∀ y ∈ es, y.isDry = true) :
    inEpoll id (tr ++ x :: es) = epollAfter id (inEpoll id tr) x := by
  rw [show tr ++ x :: es = (tr ++ [x]) ++ es by simp, inEpoll_dry h]
  simp [inEpoll, List.foldl_append]

end Places

namespace Bridge

section Dry

/-- From `b` to `b'` the epoll stays as it is. -/
def Dry (b b' : Bridge) : Prop :=
  ∃ es, b'.trace = b.trace ++ es ∧ ∀ x ∈ es, x.isDry = true

variable {lib : Libsrt} {b b' b'' : Bridge} {id : SocketId} {reply : ReplyId}

theorem Dry.of_trace (h : b'.trace = b.trace) : Dry b b' :=
  ⟨[], by rw [h, List.append_nil], fun x hx => absurd hx List.not_mem_nil⟩

theorem Dry.trans (h : Dry b b') (h' : Dry b' b'') : Dry b b'' := by
  obtain ⟨es, ht, hes⟩ := h
  obtain ⟨es', ht', hes'⟩ := h'
  refine ⟨es ++ es', by rw [ht', ht, List.append_assoc], fun x hx => ?_⟩
  exact (List.mem_append.mp hx).elim (hes x) (hes' x)

theorem Dry.emits {es : List IoEvent} (h : ∀ x ∈ es, x.isDry = true) : Dry b (b.emits es) :=
  ⟨es, rfl, h⟩

theorem Dry.emit {x : IoEvent} (h : x.isDry = true) : Dry b (b.emit x) :=
  Dry.emits (List.forall_mem_singleton.mpr h)

theorem Dry.setOptions (calls : List OptCall) : Dry b (b.setOptions lib id calls) :=
  Dry.emits (List.forall_mem_map.mpr fun _ _ => rfl)

theorem Dry.modify (f : SocketState → SocketState) : Dry b (b.modify id f) := by
  apply Dry.of_trace
  unfold Bridge.modify
  split <;> rfl

theorem Dry.record (q : SocketStatus) : Dry b (b.record id q) := by
  unfold Bridge.record
  split
  · exact Dry.emit (b := b.setEntry id _) rfl
  · exact .of_trace rfl

theorem Dry.enterIfAbsent (s : SocketState) : Dry b (b.enterIfAbsent id s) := by
  unfold Bridge.enterIfAbsent
  split
  · exact .of_trace rfl
  · exact Dry.emit (b := b.setEntry id s) rfl

theorem Dry.register (r d t : ChannelId) : Dry b (b.register id r d t) := by
  unfold Bridge.register
  split
  · exact Dry.emit (b := b.setEntry id _) rfl
  · exact .of_trace rfl

theorem Dry.putGroup (r : GroupRun) : Dry b (b.putGroup id r) :=
  Dry.emits (b := b.setEntry id r.entry) (List.forall_mem_map.mpr fun _ _ => rfl)

theorem Dry.release : Dry b (b.release id) := by
  unfold Bridge.release
  split
  · exact Dry.emit (b := { b with sockets := b.sockets.erase id }) rfl
  · exact .of_trace rfl

theorem Dry.handleSend : Dry b (b.handleSend lib id) := by
  obtain ⟨es, ht, hes⟩ := trace_handleSend lib b id
  refine ⟨es, ht, fun x hx => ?_⟩
  obtain ⟨data, ok, rfl⟩ := hes x hx
  rfl

theorem Dry.handleRecv (j : ℕ) : Dry b (b.handleRecv lib j id) := by
  have hall (packets : List ReceivedPacket) (c : Bridge) : Dry c (packets.foldl (deliver id) c) := by
    induction packets generalizing c with
    | nil => exact .of_trace rfl
    | cons p packets ih =>
      have hfirst : Dry c (c.deliver id p) := ⟨[.took id p], trace_deliver p, by simp [IoEvent.isDry]⟩
      exact hfirst.trans (ih _)
  unfold Bridge.handleRecv
  split_ifs
  · exact .of_trace rfl
  · exact hall _ b

end Dry

section Closing

variable {b : Bridge} {id : SocketId}

/-- What closing a socket and releasing its entry does to the epoll. -/
theorem trace_closing (b : Bridge) (id : SocketId) : ∃ es,
    (b.closeAndRelease id).trace = b.trace ++ (b.unsubscribe id ++ .closed id :: es) ∧
      ∀ x ∈ es, x.isDry = true := by
  obtain ⟨es, ht, hes⟩ : Dry ((b.emits (b.unsubscribe id)).emit (.closed id))
      (((b.emits (b.unsubscribe id)).emit (.closed id)).release id) := .release
  have hrel : (b.closeAndRelease id).trace =
      (((b.emits (b.unsubscribe id)).emit (.closed id)).release id).trace := by
    unfold closeAndRelease unsubscribe release
    split_ifs <;> cases he : b.entry id <;> simp [he]
  refine ⟨es, ?_, hes⟩
  rw [hrel, ht]
  simp

theorem Dry.closeAndFail (err : SrtError) : Dry (b.closeAndRelease id) (b.closeAndFail id err) := by
  unfold Bridge.closeAndFail
  split
  · exact .emit rfl
  · exact .of_trace rfl

theorem Dry.closeAndDrop : Dry (b.closeAndRelease id) (b.closeAndDrop id) := by
  unfold Bridge.closeAndDrop
  split
  · exact .emit rfl
  · exact .of_trace rfl

/-- A socket is closed, and perhaps the connect that waited on it is told. -/
theorem trace_closing_dry {b' : Bridge} (h : Dry (b.closeAndRelease id) b') : ∃ es,
    b'.trace = b.trace ++ (b.unsubscribe id ++ .closed id :: es) ∧ ∀ x ∈ es, x.isDry = true := by
  obtain ⟨es, ht, hes⟩ := trace_closing b id
  obtain ⟨es', ht', hes'⟩ := h
  refine ⟨es ++ es', ?_, fun x hx => (List.mem_append.mp hx).elim (hes x) (hes' x)⟩
  rw [ht', ht]
  simp

end Closing

section Groups

variable {lib : Libsrt} {b b' b'' : Bridge} {id : SocketId} {reply : ReplyId}

/-- A caller group with an entry is in the epoll exactly when it is past `Init`. -/
def Enrolled (b : Bridge) : Prop :=
  ∀ id e, b.entry id = some e → e.isGroup = true →
    (inEpoll id b.trace = true ↔ e.lastStatus ≠ .init)

/-- A group in place of another, with neither or both at `Init`. -/
def Alike (old new : Option SocketState) : Prop :=
  ∀ e', new = some e' → e'.isGroup = true →
    ∃ e, old = some e ∧ e.isGroup = true ∧ (e'.lastStatus = .init ↔ e.lastStatus = .init)

theorem Alike.refl (e : Option SocketState) : Alike e e := fun e' he hg => ⟨e', he, hg, .rfl⟩

theorem Alike.trans {e e' e'' : Option SocketState} (h : Alike e e') (h' : Alike e' e'') :
    Alike e e'' := by
  intro e₂ he₂ hg₂
  obtain ⟨e₁, he₁, hg₁, hi₁⟩ := h' e₂ he₂ hg₂
  obtain ⟨e₀, he₀, hg₀, hi₀⟩ := h e₁ he₁ hg₁
  exact ⟨e₀, he₀, hg₀, hi₁.trans hi₀⟩

theorem Alike.of_eq {e e' : SocketState} (hg : e'.isGroup = e.isGroup)
    (hq : e'.lastStatus = e.lastStatus) : Alike (some e) (some e') := by
  rintro _ ⟨⟩ hgrp
  exact ⟨e, rfl, hg ▸ hgrp, by rw [hq]⟩

/-- Neither the epoll nor where a group stands changes. -/
structure Calm (b b' : Bridge) : Prop where
  dry : Dry b b'
  entries : ∀ i, Alike (b.entry i) (b'.entry i)

theorem Calm.of_entries (h : Dry b b') (he : ∀ i, b'.entry i = b.entry i) : Calm b b' :=
  ⟨h, fun i => he i ▸ .refl _⟩

theorem Calm.refl (b : Bridge) : Calm b b := .of_entries (.of_trace rfl) fun _ => rfl

theorem Calm.trans (h : Calm b b') (h' : Calm b' b'') : Calm b b'' :=
  ⟨h.dry.trans h'.dry, fun i => (h.entries i).trans (h'.entries i)⟩

theorem Calm.emit {x : IoEvent} (h : x.isDry = true) : Calm b (b.emit x) :=
  .of_entries (.emit h) fun _ => rfl

theorem Calm.answer (r : Reply) : Calm b (b.answer reply r) := .emit rfl

theorem Calm.setOptions (calls : List OptCall) : Calm b (b.setOptions lib id calls) :=
  .of_entries (.setOptions calls) fun _ => rfl

theorem Calm.one {new : Option SocketState} (h : Dry b b')
    (hent : ∀ i, b'.entry i = if i = id then new else b.entry i) (hid : Alike (b.entry id) new) :
    Calm b b' := by
  refine ⟨h, fun i => ?_⟩
  rw [hent]
  split_ifs with hi
  · exact hi ▸ hid
  · exact .refl _

theorem Calm.modify {f : SocketState → SocketState} (hg : ∀ e, (f e).isGroup = e.isGroup)
    (hq : ∀ e, (f e).lastStatus = e.lastStatus) : Calm b (b.modify id f) := by
  refine .one (.modify f) (fun i => entry_modify ..) ?_
  cases b.entry id with
  | none => exact .refl none
  | some e => exact .of_eq (hg e) (hq e)

theorem Calm.record {q : SocketStatus}
    (h : ∀ e, b.entry id = some e → e.isGroup = true → (q = .init ↔ e.lastStatus = .init)) :
    Calm b (b.record id q) := by
  refine .one (.record q) (fun i => entry_record ..) ?_
  cases he : b.entry id with
  | none => exact .refl none
  | some e =>
    rintro _ ⟨⟩ hg
    rw [SocketState.updateStatus_isGroup] at hg
    exact ⟨e, rfl, hg, by simpa using h e he hg⟩

theorem Calm.handleSend : Calm b (b.handleSend lib id) := by
  obtain ⟨l, hl⟩ := entry_handleSend lib b id
  refine .one .handleSend hl ?_
  cases b.entry id with
  | none => exact .refl none
  | some e => exact .of_eq rfl rfl

theorem Calm.handleRecv (j : ℕ) : Calm b (b.handleRecv lib j id) :=
  .of_entries (.handleRecv j) fun i => entry_handleRecv j i

theorem Calm.failConnect (err : SrtError) : Calm b (b.failConnect id err) := by
  unfold Bridge.failConnect
  split
  · have hmod : Calm b (b.modify id fun s => { s with connectReply := none }) :=
      .modify (fun _ => rfl) fun _ => rfl
    exact hmod.trans (.answer _)
  · exact .refl b

theorem Calm.enrolled (h : Calm b b') (hb : Enrolled b) : Enrolled b' := by
  intro i e' he' hg'
  obtain ⟨e, he, hg, hi⟩ := h.entries i e' he' hg'
  obtain ⟨es, ht, hes⟩ := h.dry
  rw [ht, inEpoll_dry hes, hb i e he hg, ne_eq, ne_eq, hi]

/-- One socket's entry and place in the epoll change together. -/
theorem Enrolled.change {es : List IoEvent} (h : Enrolled b) (ht : b'.trace = b.trace ++ es)
    (hes : ∀ x ∈ es, x.isDry = true ∨ x.subject = some id)
    (hent : ∀ i, i ≠ id → b'.entry i = b.entry i)
    (hid : ∀ e, b'.entry id = some e → e.isGroup = true →
      (inEpoll id b'.trace = true ↔ e.lastStatus ≠ .init)) : Enrolled b' := by
  intro i e he hg
  by_cases hi : i = id
  · subst hi
    exact hid e he hg
  · rw [hent i hi] at he
    rw [ht, inEpoll_aside fun x hx => (hes x hx).imp_right fun hs => ?_]
    · exact h i e he hg
    · rw [hs]
      exact fun heq => hi (Option.some.inj heq).symm

/-- What happens to a socket that no group's entry is for. -/
theorem Enrolled.emit {x : IoEvent} (h : Enrolled b) (hx : x.subject = some id)
    (hno : (b.entry id).any SocketState.isGroup = false) : Enrolled (b.emit x) := by
  have hes : ∀ y ∈ [x], y.isDry = true ∨ y.subject = some id := by simp [hx]
  refine h.change (trace_emit b x) hes (fun _ _ => rfl) fun e he hg => ?_
  rw [entry_emit] at he
  rw [he, Option.any_some, hg] at hno
  cases hno

/-- A socket goes into the epoll, and its entry leaves `Init`. -/
theorem Enrolled.enrol (h : Enrolled b) (hdry : Dry (b.emit (.subscribed id)) b')
    (hent : ∀ i, i ≠ id → b'.entry i = b.entry i)
    (hid : ∀ e, b'.entry id = some e → e.lastStatus ≠ .init) : Enrolled b' := by
  obtain ⟨es, ht, hes⟩ := hdry
  have htr : b'.trace = b.trace ++ .subscribed id :: es := by
    rw [ht, trace_emit, List.append_assoc]
    rfl
  refine h.change htr (fun x hx => ?_) hent fun e he _ => ?_
  · obtain rfl | hx := List.mem_cons.mp hx
    · exact .inr rfl
    · exact .inl (hes x hx)
  · have hin : inEpoll id b'.trace = true := by
      rw [htr, inEpoll_cons_dry _ hes]
      simp [epollAfter]
    exact iff_of_true hin (hid e he)

theorem Enrolled.record {c : Bridge} {q : SocketStatus} (h : Enrolled b)
    (hdry : Dry (b.emit (.subscribed id)) c) (hent : ∀ i, i ≠ id → c.entry i = b.entry i)
    (hq : q ≠ .init) : Enrolled (c.record id q) := by
  refine h.enrol (hdry.trans (.record q)) (fun i hi => ?_) fun e he => ?_
  · rw [entry_record, if_neg hi, hent i hi]
  · rw [entry_record, if_pos rfl, Option.map_eq_some_iff] at he
    obtain ⟨e₀, -, rfl⟩ := he
    rwa [SocketState.updateStatus_lastStatus]

theorem Enrolled.close (h : Enrolled b) (hdry : Dry (b.closeAndRelease id) b')
    (hent : ∀ i, b'.entry i = if i = id then none else b.entry i) : Enrolled b' := by
  obtain ⟨es, ht, hes⟩ := trace_closing_dry hdry
  refine h.change ht (fun x hx => ?_) (fun i hi => by rw [hent, if_neg hi]) fun e he => ?_
  · rcases List.mem_append.mp hx with hx | hx
    · right
      unfold unsubscribe at hx
      split_ifs at hx
      · exact absurd hx List.not_mem_nil
      · rw [List.mem_singleton.mp hx]
        rfl
    · obtain rfl | hx := List.mem_cons.mp hx
      · exact .inr rfl
      · exact .inl (hes x hx)
  · rw [hent, if_pos rfl] at he
    cases he

theorem Enrolled.closeAndFail (h : Enrolled b) (err : SrtError) : Enrolled (b.closeAndFail id err) :=
  h.close (.closeAndFail err) (entry_closeAndFail err)

theorem Enrolled.closeAndDrop (h : Enrolled b) : Enrolled (b.closeAndDrop id) :=
  h.close .closeAndDrop entry_closeAndDrop

end Groups

/-- libsrt reports events only for what is in the epoll, and gives nothing new the id of a
group that has an entry. -/
def honest (lib : Libsrt) (b : Bridge) : IoStep → Bool
  | .event id _ => inEpoll id b.trace && !(b.entry (lib.accept b.step id)).any SocketState.isGroup
  | .command (.createSocket _ _) => !(b.entry (lib.createSocket b.step)).any SocketState.isGroup
  | _ => true

/-- The state poll reads `Init` off a group that was past it. -/
def readsInit (lib : Libsrt) (b : Bridge) : IoStep → Bool
  | .poll id => lib.status b.step 0 id = .init &&
      (b.entry id).any fun e => e.isGroup && e.lastStatus ≠ .init
  | _ => false

section Steps

variable {lib : Libsrt} {b : Bridge} {id : SocketId} {reply : ReplyId}

theorem createSocket_enrolled {config : SrtConfig} (h : Enrolled b)
    (hlib : honest lib b (.command (.createSocket config reply)) = true) :
    Enrolled (b.createSocket lib config reply) := by
  unfold createSocket
  dsimp only
  split_ifs
  · exact (Calm.answer _).enrolled h
  · have hno : (b.entry (lib.createSocket b.step)).any SocketState.isGroup = false := by
      simpa [honest] using hlib
    have hcreated : Enrolled (b.emit (.created (lib.createSocket b.step))) := h.emit rfl hno
    exact (((Calm.setOptions _).trans (Calm.setOptions _)).trans (Calm.answer _)).enrolled hcreated

theorem bindSocket_calm (addr : SocketAddr) : Calm b (b.bindSocket lib id addr reply) := by
  unfold bindSocket
  split_ifs <;> exact (Calm.emit rfl).trans (Calm.answer _)

theorem listenOn_enrolled (h : Enrolled b) (backlog : ℤ) :
    Enrolled (b.listenOn lib id backlog reply) := by
  unfold listenOn
  split_ifs
  · have hrefused : Enrolled (b.emit (.listening id false)) := (Calm.emit rfl).enrolled h
    exact (Calm.answer _).enrolled hrefused.closeAndDrop
  · refine (Calm.answer _).enrolled (Enrolled.record ((Calm.emit rfl).enrolled h) (.modify _)
      (fun i hi => ?_) (by decide))
    rw [entry_modify, if_neg hi, entry_emit]

theorem listen_enrolled (h : Enrolled b) (backlog : ℤ) :
    Enrolled (b.listen lib id backlog reply) := by
  rcases registerListenCallback_cases lib b id with ⟨-, heq⟩ | ⟨slot, -, -, heq⟩ | ⟨slot, err, -, -, heq⟩
  · rw [listen_eq backlog reply heq]
    exact listenOn_enrolled h backlog
  · rw [listen_eq backlog reply heq]
    exact listenOn_enrolled ((Calm.emit rfl).enrolled h) backlog
  · unfold listen
    rw [heq]
    have harmed : Enrolled (b.emit (.armed id slot false)) := (Calm.emit rfl).enrolled h
    exact (Calm.answer _).enrolled harmed.closeAndDrop

theorem awaitConnect_enrolled (h : Enrolled b) :
    Enrolled ((b.emit (.subscribed id)).awaitConnect id reply) := by
  unfold awaitConnect
  cases he : (b.emit (.subscribed id)).entry id with
  | none =>
    refine h.enrol (.emit rfl) (fun _ _ => rfl) fun e he' => ?_
    rw [entry_emit, he] at he'
    cases he'
  | some e =>
    dsimp only
    -- an earlier connect that waited is let go of first
    split
    · rename_i earlier _
      have hlet : Dry (b.emit (.subscribed id)) ((b.emit (.subscribed id)).emit (.unanswered earlier)) :=
        .emit rfl
      refine h.record (hlet.trans (.modify _)) (fun i hi => ?_) (by decide)
      rw [entry_modify, if_neg hi, entry_emit, entry_emit]
    · refine h.record (.modify _) (fun i hi => ?_) (by decide)
      rw [entry_modify, if_neg hi, entry_emit]

theorem connect_enrolled (h : Enrolled b) (addr : SocketAddr) :
    Enrolled (b.connect lib id addr reply) := by
  have hcall : Enrolled (b.emit (.connecting id)) := (Calm.emit rfl).enrolled h
  unfold connect
  dsimp only
  split_ifs
  · exact (Calm.answer _).enrolled hcall
  · cases lib.getsockstate b.step 0 id with
    | connected =>
      exact (Calm.answer _).enrolled (hcall.record (.of_trace rfl) (fun _ _ => rfl) (by decide))
    | connecting | opened | init => exact awaitConnect_enrolled hcall
    | _ => exact (Calm.answer _).enrolled hcall

theorem registerSocket_calm (r d t : ChannelId) : Calm b (b.registerSocket lib id r d t) := by
  have hdry : Dry b (b.registerSocket lib id r d t) := by
    have hfirst : Dry b ((b.enterIfAbsent id .fresh).register id r d t) :=
      (Dry.enterIfAbsent _).trans (.register r d t)
    unfold registerSocket
    dsimp only
    split
    · split_ifs
      · exact hfirst
      · exact hfirst.trans (.record _)
    · exact hfirst
  refine .one hdry (entry_registerSocket lib b id r d t) ?_
  cases he : b.entry id with
  | none =>
    rintro e' he' hg
    simp only [Option.getD_none, SocketState.fresh] at he'
    split_ifs at he' <;> obtain rfl := Option.some.inj he' <;> simp at hg
  | some e =>
    simp only [Option.getD_some]
    split_ifs with hsame
    · exact .of_eq rfl rfl
    · rintro _ ⟨⟩ hg
      exact absurd (.inl (by simpa using hg)) hsame

theorem registerListener_calm (c : ChannelId) (a : Option ℕ) : Calm b (b.registerListener id c a) := by
  unfold registerListener
  have henter : Calm b (b.enterIfAbsent id .freshListener) := by
    refine ⟨.enterIfAbsent _, fun i => ?_⟩
    unfold enterIfAbsent
    cases he : b.entry id with
    | some e => exact .refl _
    | none =>
      dsimp only
      rw [entry_enter]
      split_ifs with hi
      · rintro _ ⟨⟩ ⟨⟩
      · exact .refl _
  exact henter.trans (.modify (fun _ => rfl) fun _ => rfl)

theorem createGroup_enrolled (h : Enrolled b) (mode : GroupType) (config : SrtConfig) :
    Enrolled (b.createGroup lib mode config reply) := by
  unfold createGroup
  dsimp only
  set grp := lib.createGroup b.step mode
  split_ifs
  · exact (Calm.answer _).enrolled h
  · set c := ((b.emit (.created grp)).setOptions lib grp nonBlocking).setOptions lib grp
      (applyConfig config)
    obtain ⟨es, ht, hes⟩ : Dry (b.emit (.created grp)) ((c.enter grp (.freshGroup (mode = .backup))).answer
        reply (.socket (.ok grp))) :=
      ((Dry.setOptions _).trans (Dry.setOptions _)).trans
        ((Dry.emit (b := c.setEntry grp _) rfl).trans (.emit rfl))
    rw [trace_emit, List.append_assoc] at ht
    have hsubject : ∀ x ∈ [IoEvent.created grp] ++ es, x.isDry = true ∨ x.subject = some grp := by
      intro x hx
      obtain rfl | hx := List.mem_cons.mp hx
      · exact .inr rfl
      · exact .inl (hes x hx)
    refine h.change ht hsubject (fun i hi => ?_) fun e he _ => ?_
    · rw [entry_answer, entry_enter, if_neg hi]
      rfl
    · rw [entry_answer, entry_enter, if_pos rfl] at he
      obtain rfl := Option.some.inj he
      rw [ht, List.singleton_append, inEpoll_cons_dry _ hes]
      simp [epollAfter, SocketState.freshGroup, SocketState.fresh]

theorem connectGroup_enrolled (h : Enrolled b) (eps : List GroupEndpoint) :
    Enrolled (b.connectGroup lib id eps reply) := by
  unfold connectGroup
  cases hr : (SrtBridge.connectGroup lib b.step 0 id eps).refused with
  | some err => exact (Calm.answer _).enrolled h
  | none =>
    dsimp only
    refine (Calm.answer _).enrolled ?_
    cases he : (b.emit (.subscribed id)).entry id with
    | none =>
      refine h.enrol (.of_trace rfl) (fun _ _ => rfl) fun e he' => ?_
      rw [he] at he'
      cases he'
    | some e =>
      obtain ⟨ws, -, hent⟩ := ((b.emit (.subscribed id)).groupRun e).connect_leaves hr
      refine h.enrol ((Dry.putGroup _).trans (.emit rfl)) (fun i hi => ?_) fun e' he' => ?_
      · rw [entry_emit, putGroup, entry_emits, entry_setEntry, if_neg hi, entry_emit]
      · rw [entry_emit, putGroup, entry_emits, entry_setEntry, if_pos rfl] at he'
        obtain rfl := Option.some.inj he'
        rw [hent, SocketState.updateStatus_lastStatus]
        decide

theorem addGroupMember_calm (ep : GroupEndpoint) : Calm b (b.addGroupMember lib id ep reply) := by
  unfold addGroupMember
  cases he : b.entry id with
  | none => exact Calm.answer _
  | some e =>
    have hleaves : (b.groupRun e).Leaves ((b.groupRun e).addGroupMember lib id ep).2
        ((b.groupRun e).addGroupMember lib id ep).2.entry := GroupRun.addGroupMember_leaves ep
    have hput : Calm b (b.putGroup id ((b.groupRun e).addGroupMember lib id ep).2) := by
      refine .one (.putGroup _) (fun i => entry_setEntry ..) ?_
      rw [he, hleaves.rest]
      exact .of_eq rfl rfl
    exact hput.trans (.answer _)

theorem entry_shutdown (b : Bridge) (i : SocketId) : b.shutdown.entry i = none := by
  have hone (c : Bridge) (id : SocketId) :
      (shutdownOne c id).entry i = if i = id then none else c.entry i := by
    unfold shutdownOne
    dsimp only
    split <;> simp [entry_release]
  have hall (ids : List SocketId) (c : Bridge) :
      (ids.foldl shutdownOne c).entry i = if i ∈ ids then none else c.entry i := by
    induction ids generalizing c with
    | nil => rfl
    | cons id ids ih =>
      rw [List.foldl_cons, ih, hone]
      simp only [List.mem_cons]
      split_ifs <;> tauto
  show (b.sockets.keys.foldl shutdownOne b).entry i = none
  rw [hall]
  split_ifs with hi
  · rfl
  · exact AList.lookup_eq_none.mpr hi

theorem processCommand_enrolled {cmd : IoCommand} (h : Enrolled b)
    (hlib : honest lib b (.command cmd) = true) : Enrolled (b.processCommand lib cmd) := by
  cases cmd with
  | createSocket => exact createSocket_enrolled h hlib
  | bind => exact (bindSocket_calm _).enrolled h
  | listen => exact listen_enrolled h _
  | connect => exact connect_enrolled h _
  | registerSocket => exact (registerSocket_calm _ _ _).enrolled h
  | registerListener => exact (registerListener_calm _ _).enrolled h
  | close => exact h.closeAndFail _
  | createGroup => exact createGroup_enrolled h _ _
  | connectGroup => exact connectGroup_enrolled h _
  | addGroupMember => exact (addGroupMember_calm _).enrolled h
  | shutdown =>
    intro i e he
    rw [processCommand, entry_shutdown] at he
    cases he
  | _ => exact (Calm.answer _).enrolled h

theorem handleAccept_enrolled (h : Enrolled b)
    (hno : (b.entry (lib.accept b.step id)).any SocketState.isGroup = false) :
    Enrolled (b.handleAccept lib id) := by
  unfold handleAccept
  dsimp only
  split_ifs
  · exact h
  · have hacc : Enrolled (b.emit (.accepted id (lib.accept b.step id))) := (Calm.emit rfl).enrolled h
    split
    · exact hacc.emit rfl hno
    · rename_i c chan _
      have hput : Enrolled { b.emit (.accepted id (lib.accept b.step id)) with
          accepts := Function.update (b.emit (.accepted id (lib.accept b.step id))).accepts c chan } :=
        hacc
      exact ((Calm.setOptions _).enrolled hput).emit rfl hno

def Past (id : SocketId) (b : Bridge) : Prop :=
  ∀ e, b.entry id = some e → e.isGroup = true → e.lastStatus ≠ .init

theorem Calm.past {b' : Bridge} (h : Calm b b') (hp : Past id b) : Past id b' := by
  intro e' he' hg' hi'
  obtain ⟨e, he, hg, hi⟩ := h.entries id e' he' hg'
  exact hp e he hg (hi.mp hi')

theorem Calm.record_past {q : SocketStatus} (h : Past id b) (hq : q ≠ .init) : Calm b (b.record id q) :=
  .record fun e he hg => iff_of_false hq (h e he hg)

theorem connectCompletion_calm (h : Past id b) : Calm b (b.connectCompletion lib id) := by
  unfold connectCompletion
  split
  · exact .refl b
  · rename_i reply _
    dsimp only
    have hmod : Calm b (b.modify id fun s => { s with connectReply := none }) :=
      .modify (fun _ => rfl) fun _ => rfl
    have htold (r : Reply) :
        Calm b ((b.modify id fun s => { s with connectReply := none }).answer reply r) :=
      hmod.trans (.answer r)
    split_ifs
    · exact (htold _).trans (.record_past ((htold _).past h) (by decide))
    · exact (htold _).trans (.record_past ((htold _).past h) (by decide))

theorem errorEvent_calm (h : Past id b) : Calm b (b.errorEvent lib id) := by
  unfold errorEvent
  split
  · split_ifs
    · exact .refl b
    · exact .record_past h (by decide)
  · exact .refl b

theorem processEvent_enrolled {flags : EpollFlags} (h : Enrolled b)
    (hlib : honest lib b (.event id flags) = true) : Enrolled (b.processEvent lib id flags) := by
  simp only [honest, Bool.and_eq_true, Bool.not_eq_true'] at hlib
  have hpast : Past id b := fun e he hg => (h id e he hg).mp hlib.1
  have hif (c : Bool) (f : Bridge → Bridge) (hf : ∀ b', Past id b' → Calm b' (f b')) {b' : Bridge}
      (hb : Calm b b') : Calm b (if c = true then f b' else b') := by
    split_ifs
    · exact hb.trans (hf b' (hb.past hpast))
    · exact hb
  unfold processEvent
  by_cases hlis : (b.entry id).any SocketState.isListener = true ∧ flags.inp = true
  · rw [if_pos hlis]
    exact handleAccept_enrolled h hlib.2
  · rw [if_neg hlis]
    have h₁ := hif flags.connect (connectCompletion lib id) (fun _ => connectCompletion_calm) (.refl b)
    have h₂ := hif flags.inp (handleRecv lib 1 id) (fun _ _ => .handleRecv 1) h₁
    have h₃ := hif flags.out (handleSend lib id) (fun _ _ => .handleSend) h₂
    exact (hif flags.err (errorEvent lib id) (fun _ => errorEvent_calm) h₃).enrolled h

theorem drain_calm : Calm b (b.drain lib id) := by
  unfold drain
  split
  · split_ifs
    · exact .handleSend
    · exact .refl b
  · exact .refl b

theorem sweep_calm : Calm b (b.sweep lib id) := by
  unfold sweep
  split
  · split_ifs
    · exact .handleRecv 0
    · exact .refl b
  · exact .refl b

/-- A member check leaves the status, or puts `Connected` in place of `Connecting`. -/
theorem checkGroup_calm {e : SocketState} (he : b.entry id = some e) (hq : e.lastStatus ≠ .init) :
    Calm b { b.putGroup id ((b.groupRun e).checkGroup lib id) with
      step := ((b.groupRun e).checkGroup lib id).step } := by
  obtain ⟨e', hl⟩ := GroupRun.checkGroup_leaves lib id (b.groupRun e)
  set r := (b.groupRun e).checkGroup lib id
  obtain ⟨es, ht, hes⟩ : Dry b (b.putGroup id r) := .putGroup r
  refine .one ⟨es, ht, hes⟩ (fun i => entry_setEntry ..) ?_
  have hgrp : (b.groupRun e).entry = e := rfl
  rcases hl.entry with hent | ⟨-, hent⟩
  · rw [he, hent, hl.rest, hgrp]
    exact .of_eq rfl rfl
  · rw [he, hent, hl.rest, hgrp]
    rintro _ ⟨⟩ hg
    rw [SocketState.updateStatus_isGroup] at hg
    refine ⟨e, rfl, hg, ?_⟩
    rw [SocketState.updateStatus_lastStatus]
    exact iff_of_false (by decide) hq

theorem check_calm : Calm b (b.check lib id) := by
  unfold check
  cases he : b.entry id with
  | none => exact .refl b
  | some e =>
    dsimp only
    split_ifs with hlive
    · exact checkGroup_calm he hlive.2.1
    · exact (checkGroup_calm he hlive.2.1).trans (.emit rfl)
    · exact .refl b

theorem poll_calm (hread : readsInit lib b (.poll id) = false) : Calm b (b.poll lib id) := by
  unfold poll
  cases he : b.entry id with
  | none => exact .refl b
  | some e =>
    dsimp only
    have hrec (hskip : ¬(e.isGroup = true ∧ e.lastStatus = .init)) :
        Calm b (b.record id (lib.status b.step 0 id)) := by
      refine .record fun e' he' hg => ?_
      obtain rfl := Option.some.inj (he.symm.trans he')
      have hpast : e.lastStatus ≠ .init := fun hi => hskip ⟨hg, hi⟩
      refine iff_of_false (fun hi => ?_) hpast
      simp [readsInit, he, hi, hg, hpast] at hread
    split_ifs with hskip
    · exact .refl b
    · exact (hrec fun hg => hskip (.inl hg)).trans (.failConnect _)
    · exact hrec fun hg => hskip (.inl hg)

theorem cleanupZombies_enrolled (h : Enrolled b) : Enrolled b.cleanupZombies := by
  have hall (ids : List SocketId) (c : Bridge) (hc : Enrolled c) :
      Enrolled (ids.foldl (fun b id => b.closeAndFail id .connectionLost) c) := by
    induction ids generalizing c with
    | nil => exact hc
    | cons i ids ih => exact ih _ (hc.closeAndFail _)
  exact hall _ b h

theorem ioStep_enrolled {s : IoStep} (h : Enrolled b) (hlib : honest lib b s = true)
    (hread : readsInit lib b s = false) : Enrolled (b.ioStep lib s) := by
  cases s with
  | command => exact processCommand_enrolled h hlib
  | event => exact processEvent_enrolled h hlib
  | drain => exact drain_calm.enrolled h
  | sweep => exact sweep_calm.enrolled h
  | check => exact check_calm.enrolled h
  | poll => exact (poll_calm hread).enrolled h
  | cleanup => exact cleanupZombies_enrolled h

theorem enrolled_run {actions : List Action} (h : Enrolled b)
    (hlib : StepsMeet lib (fun b s => honest lib b s = true) b actions)
    (hread : StepsMeet lib (fun b s => readsInit lib b s = false) b actions) :
    Enrolled (b.run lib actions) := by
  refine (StepsMeet.and hlib hread).invariant (fun c a hok hc => ?_) h
  cases a with
  | io s =>
    show Enrolled (if c.running = true then _ else c)
    split_ifs with hr
    · exact ioStep_enrolled hc (hok hr).1 (hok hr).2
    · exact hc
  | tokio t => cases t <;> exact hc
  | elapse d => exact hc

end Steps

section Releases

variable (lib : Libsrt) (b : Bridge) (s : IoStep)

/-- The step calls `close_and_release` on the socket. -/
def releases (id : SocketId) : Bool :=
  match s with
  | .command (.close i) => i = id
  | .command (.listen i backlog _) => i = id &&
      ((b.accessSlot i).any (fun slot => lib.listenCallback b.step i slot < 0) ||
        lib.listen b.step i backlog < 0)
  | .cleanup => id ∈ b.zombies
  | _ => false

/-- The sockets the step releases are taken out of the epoll exactly if they are in it. -/
def Unsubscribes : Prop :=
  ∀ id, releases lib b s id = true →
    (.unsubscribed id ∈ does lib b s ↔ inEpoll id b.trace = true)

/-- Whatever the step releases is in the epoll, or a caller group with an entry. -/
def ReleasesSubscribed : Prop :=
  ∀ id, releases lib b s id = true →
    inEpoll id b.trace = true ∨ (b.entry id).any SocketState.isGroup = true

variable {lib b s} {id : SocketId}

theorem mem_unsubscribe : .unsubscribed id ∈ b.unsubscribe id ↔ b.neverPolled id = false := by
  unfold unsubscribe
  split_ifs with h <;> simp [h]

theorem does_eq {es : List IoEvent} (h : (b.ioStep lib s).trace = b.trace ++ es) :
    does lib b s = es := by
  unfold does
  rw [h, List.drop_left]

/-- A step that closes the socket and else leaves the epoll alone. -/
theorem mem_closing {c b' : Bridge} (hfirst : Dry b c) (hent : c.entry id = b.entry id)
    (hdry : Dry (c.closeAndRelease id) b') : ∃ es, b'.trace = b.trace ++ es ∧
      (.unsubscribed id ∈ es ↔ b.neverPolled id = false) ∧ .closed id ∈ es := by
  obtain ⟨es, ht, hes⟩ := hfirst
  obtain ⟨es', ht', hes'⟩ := trace_closing_dry hdry
  refine ⟨es ++ (c.unsubscribe id ++ .closed id :: es'), by rw [ht', ht, List.append_assoc], ?_,
    by simp⟩
  have hpre : IoEvent.unsubscribed id ∉ es := fun hmem => by cases hes _ hmem
  have hpost : IoEvent.unsubscribed id ∉ es' := fun hmem => by cases hes' _ hmem
  have hsame : c.neverPolled id = b.neverPolled id := by
    unfold neverPolled
    rw [hent]
  simp [mem_unsubscribe, hpre, hpost, hsame]

theorem mem_close (b : Bridge) (id : SocketId) : ∃ es,
    (b.closeAndFail id .socketClosed).trace = b.trace ++ es ∧
      (.unsubscribed id ∈ es ↔ b.neverPolled id = false) ∧ .closed id ∈ es :=
  mem_closing (.of_trace rfl) rfl (.closeAndFail _)

theorem mem_listen {backlog : ℤ} {reply : ReplyId}
    (h : releases lib b (.command (.listen id backlog reply)) id = true) :
    ∃ es, (b.listen lib id backlog reply).trace = b.trace ++ es ∧
      (.unsubscribed id ∈ es ↔ b.neverPolled id = false) ∧ .closed id ∈ es := by
  have hon (c : Bridge) (hfirst : Dry b c) (hent : c.entry id = b.entry id) (hstep : c.step = b.step)
      (hl : lib.listen b.step id backlog < 0) : ∃ es,
        (c.listenOn lib id backlog reply).trace = b.trace ++ es ∧
          (.unsubscribed id ∈ es ↔ b.neverPolled id = false) ∧ .closed id ∈ es := by
    unfold listenOn
    rw [hstep, if_pos hl]
    exact mem_closing (hfirst.trans (.emit rfl)) hent (Dry.closeAndDrop.trans (.emit rfl))
  simp only [releases, decide_true, Bool.true_and, Bool.or_eq_true, decide_eq_true_eq] at h
  rcases registerListenCallback_cases lib b id with
    ⟨hn, heq⟩ | ⟨slot, hn, hok, heq⟩ | ⟨slot, err, -, -, heq⟩
  · rw [listen_eq backlog reply heq]
    exact hon b (.of_trace rfl) rfl rfl (h.resolve_left (by simp [hn]))
  · rw [listen_eq backlog reply heq]
    exact hon _ (.emit rfl) rfl rfl (h.resolve_left (by simpa [hn] using hok))
  · unfold listen
    rw [heq]
    have harm : Dry b (b.emit (.armed id slot false)) := .emit rfl
    exact mem_closing harm rfl (Dry.closeAndDrop.trans (.emit rfl))

/-- Reaping takes every zombie out of the epoll and closes it; none is a group. -/
theorem mem_cleanup (b : Bridge) : ∃ es, b.cleanupZombies.trace = b.trace ++ es ∧
    ∀ id ∈ b.zombies, b.neverPolled id = false ∧ .unsubscribed id ∈ es ∧ .closed id ∈ es := by
  have hall (ids : List SocketId) (c : Bridge) (hc : ∀ i ∈ ids, c.neverPolled i = false) :
      ∃ es, (ids.foldl (fun b id => b.closeAndFail id .connectionLost) c).trace = c.trace ++ es ∧
        ∀ i ∈ ids, .unsubscribed i ∈ es ∧ .closed i ∈ es := by
    induction ids generalizing c with
    | nil => exact ⟨[], (List.append_nil _).symm, by simp⟩
    | cons i ids ih =>
      have hdry : Dry (c.closeAndRelease i) (c.closeAndFail i .connectionLost) := .closeAndFail _
      obtain ⟨es, ht, hes, hcl⟩ := mem_closing (b := c) (.of_trace rfl) rfl hdry
      have hnext : ∀ j ∈ ids, (c.closeAndFail i .connectionLost).neverPolled j = false := by
        intro j hj
        have hbefore := hc j (by simp [hj])
        unfold neverPolled at hbefore ⊢
        rw [entry_closeAndFail]
        split_ifs
        · rfl
        · exact hbefore
      obtain ⟨es', ht', hes'⟩ := ih _ hnext
      refine ⟨es ++ es', by rw [List.foldl_cons, ht', ht, List.append_assoc], fun j hj => ?_⟩
      obtain rfl | hj := List.mem_cons.mp hj
      · exact ⟨List.mem_append_left _ (hes.mpr (hc j (by simp))), List.mem_append_left _ hcl⟩
      · exact (hes' j hj).imp (List.mem_append_right _) (List.mem_append_right _)
  have hzombie : ∀ i ∈ b.zombies, b.neverPolled i = false := by
    intro i hi
    obtain ⟨e, he, hz⟩ := mem_zombies.mp hi
    simp only [isZombie, Bool.and_eq_true, Bool.not_eq_true'] at hz
    simp [neverPolled, he, hz.1.2]
  obtain ⟨es, ht, hes⟩ := hall b.zombies b hzombie
  exact ⟨es, ht, fun i hi => ⟨hzombie i hi, hes i hi⟩⟩

/-- A released socket is taken out of the epoll unless it is a group at `Init`. -/
theorem mem_does (h : releases lib b s id = true) :
    .unsubscribed id ∈ does lib b s ↔ b.neverPolled id = false := by
  unfold releases at h
  split at h
  · rename_i i
    obtain rfl := of_decide_eq_true h
    obtain ⟨es, ht, hes, -⟩ := mem_close b i
    rwa [does_eq (s := .command (.close i)) ht]
  · rename_i i backlog reply
    simp only [Bool.and_eq_true, decide_eq_true_eq] at h
    obtain ⟨rfl, hfail⟩ := h
    have hrel : releases lib b (.command (.listen i backlog reply)) i = true := by
      simpa [releases] using hfail
    obtain ⟨es, ht, hes, -⟩ := mem_listen hrel
    rwa [does_eq (s := .command (.listen i backlog reply)) ht]
  · obtain ⟨es, ht, hes⟩ := mem_cleanup b
    obtain ⟨hno, hmem, -⟩ := hes id (of_decide_eq_true h)
    rw [does_eq (s := .cleanup) ht]
    exact iff_of_true hmem hno
  · cases h

theorem unsubscribes_iff (h : Enrolled b) : Unsubscribes lib b s ↔ ReleasesSubscribed lib b s := by
  refine forall₂_congr fun id hrel => ?_
  rw [mem_does hrel]
  cases he : b.entry id with
  | none => simp [neverPolled, he]
  | some e =>
    cases hg : e.isGroup with
    | false => simp [neverPolled, he, hg]
    | true =>
      have hin := h id e he hg
      simp [neverPolled, he, hg, hin]

variable (lib) in
/-- Over runs of a libsrt that reports events for what is in the epoll, and in which no poll
reads `Init` off a group past it: every socket that is closed and released is taken out of the
epoll exactly if it is in there, if and only if each of them is in there or is a caller group
with an entry; and a caller group is in the epoll exactly when it is past `Init`. -/
theorem closes_unsubscribed (actions : List Action)
    (hlib : StepsMeet lib (fun b s => honest lib b s = true) start actions)
    (hread : StepsMeet lib (fun b s => readsInit lib b s = false) start actions) :
    (StepsMeet lib (Unsubscribes lib) start actions ↔
      StepsMeet lib (ReleasesSubscribed lib) start actions) ∧
    ∀ id e, (start.run lib actions).entry id = some e → e.isGroup = true →
      (inEpoll id (start.run lib actions).trace = true ↔ e.lastStatus ≠ .init) := by
  have hstart : Enrolled start := fun i e he => by cases he
  refine ⟨?_, enrolled_run hstart hlib hread⟩
  simp only [StepsMeet, General.along_iff]
  refine forall_congr' fun pre => forall_congr' fun a => forall₂_congr fun post hcut => ?_
  subst hcut
  have hpre : Enrolled (start.run lib pre) :=
    enrolled_run hstart (StepsMeet.append.mp hlib).1 (StepsMeet.append.mp hread).1
  cases a with
  | io s => exact imp_congr_right fun _ => unsubscribes_iff hpre
  | tokio | elapse => rfl

end Releases

def groupClosed : List Action :=
  [.io (.command (.createGroup .broadcast {} 0)),
    .io (.command (.connectGroup 7 [⟨.v4 0x7f000001 9000, none, 1, 7⟩] 1)), .io (.command (.close 7))]

theorem closes_unsubscribed_group :
    StepsMeet (.reading fun _ => .connected) (Unsubscribes (.reading fun _ => .connected)) start
      groupClosed := by
  have hclosed : inEpoll 7 (start.run (.reading fun _ => .connected) (groupClosed.take 2)).trace = true := rfl
  refine (closes_unsubscribed (.reading fun _ => .connected) groupClosed (by decide) (by decide)).1.mpr ?_
  refine ⟨fun _ id h => (by cases h), fun _ id h => (by cases h), fun _ id h => ?_, trivial⟩
  obtain rfl : 7 = id := of_decide_eq_true h
  exact .inl hclosed

/-- A socket is connected, closed, and closed again as its handle is dropped. -/
def closedTwice : List Action :=
  [.io (.command (.createSocket {} 0)), .io (.command (.registerSocket 7 1 2 3)),
    .io (.command (.connect 7 (.v4 0x7f000001 9000) 1)), .io (.command (.close 7)),
    .io (.command (.close 7))]

/-- The second close takes a socket out of the epoll that is not in it. -/
theorem second_close_unsubscribes :
    StepsMeet (.reading fun _ => .connected) (fun b s => honest (.reading fun _ => .connected) b s = true)
        start closedTwice ∧
      StepsMeet (.reading fun _ => .connected)
        (fun b s => readsInit (.reading fun _ => .connected) b s = false) start closedTwice ∧
      ¬StepsMeet (.reading fun _ => .connected) (Unsubscribes (.reading fun _ => .connected)) start
        closedTwice := by
  refine ⟨by decide, by decide, fun h => ?_⟩
  have hlast : Unsubscribes (.reading fun _ => .connected)
      (start.run (.reading fun _ => .connected) (closedTwice.take 4)) (.command (.close 7)) :=
    General.along_iff.mp h (closedTwice.take 4) (.io (.command (.close 7))) [] rfl rfl
  have hdoes : does (.reading fun _ => .connected)
      (start.run (.reading fun _ => .connected) (closedTwice.take 4)) (.command (.close 7)) =
        [.unsubscribed 7, .closed 7] := rfl
  have hout : inEpoll 7 (start.run (.reading fun _ => .connected) (closedTwice.take 4)).trace = false := rfl
  have hmem := (hlast 7 rfl).mp (by simp [hdoes])
  rw [hout] at hmem
  cases hmem

end Bridge

end SrtBridge
