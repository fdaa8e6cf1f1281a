import SrtBridge.Bridge.Runs

/-! The messages a handle's tasks hand to the I/O thread: they wait in the send channel, then
in the entry's backlog, and are passed to libsrt in order, unless a `Close` is carried out
before them. -/

namespace SrtBridge

open General

def IoEvent.sentTo (id : SocketId) : IoEvent → Option Bytes
  | .sent i data true => if i = id then some data else none
  | _ => none

/-- A library that takes every message, of a socket that is connected. -/
abbrev Libsrt.connected : Libsrt := .reading fun _ => .connected

namespace Bridge

def sentTo (id : SocketId) (es : List IoEvent) : List Bytes := es.filterMap (IoEvent.sentTo id)

/-- The message a task gets into the send channel `c` with the action. -/
def Action.accepted (c : ChannelId) : Action → Option Bytes
  | .tokio (.sendData c' data) => if c' = c then some data else none
  | _ => none

/-- The socket and the send channel a `RegisterSocket` is for. -/
def Action.registers : Action → Option (SocketId × ChannelId)
  | .io (.command (.registerSocket id _ d _)) => some (id, d)
  | _ => none

section Offers

variable {lib : Libsrt} {b : Bridge} {id i : SocketId} {e : SocketState} {c : ChannelId}
  {es es' : List IoEvent}

@[simp] theorem sentTo_append : sentTo id (es ++ es') = sentTo id es ++ sentTo id es' :=
  List.filterMap_append

theorem sentTo_eq_nil (h : ∀ x ∈ es, x.sentTo id = none) : sentTo id es = [] :=
  List.filterMap_eq_nil_iff.mpr h

/-- Neither a note of a call, nor an answer, nor a change of an entry sends. -/
theorem sentTo_none {x : IoEvent} (h : (x.isPlain = true ∨ x.isReply = true) ∨ x.isNote = false) :
    x.sentTo id = none := by
  cases x with
  | sent => simp [IoEvent.isPlain, IoEvent.isReply, IoEvent.isNote] at h
  | _ => rfl

theorem sentTo_taken (msgs : List Bytes) : sentTo id (msgs.map (.sent id · true)) = msgs := by
  induction msgs with
  | nil => rfl
  | cons data msgs ih =>
    have hcons : sentTo id ((data :: msgs).map (.sent id · true)) =
        data :: sentTo id (msgs.map (.sent id · true)) := by
      simp [sentTo, IoEvent.sentTo]
    rw [hcons, ih]

/-- What libsrt takes of what it always takes is everything. -/
theorem offer_all {k : ℕ} (h : ∀ j data, 0 ≤ lib.sendmsg k j id data) (j : ℕ) (msgs : List Bytes) :
    offer lib k id j msgs = ⟨msgs, none, []⟩ := by
  induction msgs generalizing j with
  | nil => rfl
  | cons data msgs ih => simp [offer, not_lt.mpr (h j data), ih]

/-- With a library that takes every message, sending empties the backlog and the channel. -/
theorem handleSend_all (h : ∀ j data, 0 ≤ lib.sendmsg b.step j id data) (he : b.entry id = some e)
    (hc : e.sendRx = some c) :
    (b.handleSend lib id).trace =
        b.trace ++ (e.sendBacklog ++ (b.sends c).buffer).map (.sent id · true) ∧
      (b.handleSend lib id).entry id = some { e with sendBacklog := [] } ∧
        (b.handleSend lib id).sends c = { b.sends c with buffer := [] } := by
  have hsend : b.handleSend lib id =
      { (((b.emits (e.sendBacklog.map (.sent id · true))).emits
          ((b.sends c).buffer.map (.sent id · true))).setEntry id { e with sendBacklog := [] }) with
        sends := Function.update b.sends c { b.sends c with buffer := [] } } := by
    unfold handleSend
    rw [he]
    simp [offer_all h, hc, Offered.events, Offered.held]
  rw [hsend]
  refine ⟨?_, (entry_setEntry ..).trans (if_pos rfl), Function.update_self ..⟩
  rw [List.map_append, ← List.append_assoc]
  rfl

/-- Sending for one entry leaves the channel of another alone. -/
theorem sends_handleSend (h : ∀ e, b.entry id = some e → e.sendRx ≠ some c) :
    (b.handleSend lib id).sends c = b.sends c := by
  unfold handleSend
  cases he : b.entry id with
  | none => rfl
  | some e =>
    dsimp only
    split_ifs
    · rfl
    · cases hr : e.sendRx with
      | none => rfl
      | some d =>
        have hd : d ≠ c := fun hd => h e he (hd ▸ hr)
        exact Function.update_of_ne hd.symm _ _

/-- An entry that has neither a backlog nor a channel has nothing to send. -/
theorem entry_handleSend_idle (lib : Libsrt) (he : b.entry id = some e) (hr : e.sendRx = none)
    (hb : e.sendBacklog = []) : (b.handleSend lib id).entry id = some e := by
  have hsame : { e with sendBacklog := [] } = e := by rw [← hb]
  have hsend : b.handleSend lib id = (b.emits []).setEntry id { e with sendBacklog := [] } := by
    unfold handleSend
    rw [he]
    simp [hb, offer, hr, Offered.events]
  rw [hsend, entry_setEntry, if_pos rfl, hsame]

end Offers

section Changes

variable {lib : Libsrt} {s : IoStep} {n : ℕ} {e₀ e : Option SocketState} {e' : SocketState}
  {i id : SocketId} {es : List IoEvent}

/-- A change gives an entry a send channel only when it is registered, and never a backlog. -/
theorem Change.sendRx (h : Change lib s n e₀ i e (some e') es) :
    (∃ r d t, s = .command (.registerSocket i r d t) ∧ e'.sendRx = some d) ∨
      (e'.sendRx = none ∧ e'.sendBacklog = []) ∨
        ∃ e₁, e = some e₁ ∧ (e'.sendRx = e₁.sendRx ∨ e'.sendRx = none) ∧
          e'.sendBacklog = e₁.sendBacklog := by
  have hstatus (s : SocketState) (q : SocketStatus) :
      (s.updateStatus q).sendRx = s.sendRx ∨ (s.updateStatus q).sendRx = none := by
    unfold SocketState.updateStatus
    split_ifs
    · exact .inr rfl
    · exact .inl rfl
    · exact .inl rfl
  cases h with
  | enter he =>
    right
    left
    cases he <;> exact ⟨rfl, rfl⟩
  | register hs => exact .inl ⟨_, _, _, hs, rfl⟩
  | record | listen | await | complete =>
    exact .inr (.inr ⟨_, rfl, hstatus _ _, SocketState.updateStatus_sendBacklog ..⟩)
  | provide | fail | watch => exact .inr (.inr ⟨_, rfl, .inl rfl, rfl⟩)

theorem Change.sentTo_nil {new : Option SocketState} (h : Change lib s n e₀ i e new es) :
    sentTo id es = [] := by
  exact sentTo_eq_nil fun x hx => sentTo_none ((h.events x hx).imp_right And.left)

variable {b₀ b b' : Bridge}

/-- A move sends for one socket, or leaves the send channels alone, sends nothing and changes
no backlog. -/
theorem Moved.sends (hm : Moved lib s b₀ b b') : (∃ i, b' = b.handleSend lib i) ∨
    b'.sends = b.sends ∧ (∃ es, b'.trace = b.trace ++ es ∧ ∀ id, sentTo id es = []) ∧
      ∀ i e', b'.entry i = some e' →
        (∃ r d t, s = .command (.registerSocket i r d t) ∧ e'.sendRx = some d) ∨
          (e'.sendRx = none ∧ e'.sendBacklog = []) ∨
            ∃ e, b.entry i = some e ∧ (e'.sendRx = e.sendRx ∨ e'.sendRx = none) ∧
              e'.sendBacklog = e.sendBacklog := by
  have hsame (he : ∀ i, b'.entry i = b.entry i) (i : SocketId) (e' : SocketState)
      (hi : b'.entry i = some e') : ∃ e, b.entry i = some e ∧
        (e'.sendRx = e.sendRx ∨ e'.sendRx = none) ∧ e'.sendBacklog = e.sendBacklog :=
    ⟨e', he i ▸ hi, .inl rfl, rfl⟩
  cases hm with
  | note hes he ht hc =>
    refine .inr ⟨congrArg (·.2.2) hc, ⟨_, ht, fun id => sentTo_eq_nil fun x hx => ?_⟩,
      fun i e' hi => .inr (.inr (hsame he i e' hi))⟩
    exact sentTo_none (.inl (.inl (hes x hx)))
  | answer hs hr hx =>
    refine .inr ⟨rfl, ⟨_, rfl, fun id => ?_⟩, fun i e' hi => .inr (.inr (hsame (fun _ => rfl) i e' hi))⟩
    rcases hx with rfl | ⟨a, rfl⟩ <;> rfl
  | arm | subscribe | listening | accepted =>
    exact .inr ⟨rfl, ⟨_, rfl, fun id => rfl⟩, fun i e' hi => .inr (.inr (hsame (fun _ => rfl) i e' hi))⟩
  | handOver =>
    exact .inr ⟨rfl, ⟨[], (List.append_nil _).symm, fun id => rfl⟩,
      fun i e' hi => .inr (.inr (hsame (fun _ => rfl) i e' hi))⟩
  | change hch he ht hc =>
    refine .inr ⟨congrArg (·.2.2) hc, ⟨_, ht, fun id => hch.sentTo_nil⟩, fun i e' hi => ?_⟩
    rw [he] at hi
    split_ifs at hi with hid
    · subst hid
      subst hi
      exact hch.sendRx
    · exact .inr (.inr ⟨e', hi, .inl rfl, rfl⟩)
  | take =>
    refine .inr ⟨?_, ⟨_, trace_deliver _, fun id => rfl⟩,
      fun i e' hi => .inr (.inr (hsame (fun _ => entry_deliver ..) i e' hi))⟩
    obtain ⟨p, h⟩ := deliver_frame b _ _
    rw [h]
    rfl
  | send => exact .inl ⟨_, rfl⟩

end Changes

section Queues

variable {lib : Libsrt} {s : IoStep} {b b' b₀ : Bridge} {id : SocketId} {c : ChannelId}
  {tr₀ : List IoEvent} {accepted : List Bytes}

/-- The step registers neither the socket nor the send channel. -/
def Unrelated (id : SocketId) (c : ChannelId) (a : Action) : Prop :=
  ∀ i d, a.registers = some (i, d) → i ≠ id ∧ d ≠ c

/-- The send channel `c` is nobody's yet, and the socket has none. -/
structure Unused (id : SocketId) (c : ChannelId) (b : Bridge) : Prop where
  nobody : ∀ i e, b.entry i = some e → e.sendRx ≠ some c
  empty : b.sends c = .empty
  fresh : ∀ e, b.entry id = some e → e.sendRx = none ∧ e.sendBacklog = []

/-- The messages accepted into the send channel `c` of `id` since the trace was `tr₀` have been
taken by libsrt, are held back or wait, in this order, for as long as the socket has the
channel. -/
structure Queued (id : SocketId) (c : ChannelId) (tr₀ : List IoEvent) (accepted : List Bytes)
    (b : Bridge) : Prop where
  owner : ∀ i e, b.entry i = some e → e.sendRx = some c → i = id
  live : (b.sends c).closed = false
  kept : ∃ es, b.trace = tr₀ ++ es ∧ ∀ e, b.entry id = some e → e.sendRx = some c →
    sentTo id es ++ e.sendBacklog ++ (b.sends c).buffer = accepted

theorem Unused.moved (h : Unused id c b) (hs : Unrelated id c (.io s)) (hm : Moved lib s b₀ b b') :
    Unused id c b' := by
  rcases hm.sends with ⟨i, rfl⟩ | ⟨hsend, -, hent⟩
  · obtain ⟨l, hl⟩ := entry_handleSend lib b i
    refine ⟨fun i' e' hi' => ?_, (sends_handleSend (h.nobody i)).trans h.empty, fun e' hi' => ?_⟩
    · rw [hl] at hi'
      split_ifs at hi' with hi
      · obtain ⟨e, he, rfl⟩ := Option.map_eq_some_iff.mp hi'
        exact h.nobody i e he
      · exact h.nobody i' e' hi'
    · by_cases hi : id = i
      · subst hi
        rw [hl, if_pos rfl] at hi'
        obtain ⟨e, he, -⟩ := Option.map_eq_some_iff.mp hi'
        obtain ⟨hr, hb⟩ := h.fresh e he
        have hidle := entry_handleSend_idle lib he hr hb
        rw [hl, if_pos rfl, hi'] at hidle
        obtain rfl := Option.some.inj hidle
        exact ⟨hr, hb⟩
      · rw [hl, if_neg hi] at hi'
        exact h.fresh e' hi'
  · refine ⟨fun i e' hi hr => ?_, (congrFun hsend c).trans h.empty, fun e' hi => ?_⟩
    · rcases hent i e' hi with ⟨r, d, t, rfl, hd⟩ | ⟨hn, -⟩ | ⟨e, he, hsame | hn, -⟩
      · exact (hs i d rfl).2 (Option.some.inj (hd.symm.trans hr))
      · rw [hn] at hr
        cases hr
      · exact h.nobody i e he (hsame ▸ hr)
      · rw [hn] at hr
        cases hr
    · rcases hent id e' hi with ⟨r, d, t, rfl, -⟩ | hn | ⟨e, he, hr, hb⟩
      · exact absurd rfl (hs id d rfl).1
      · exact hn
      · obtain ⟨hn, hl⟩ := h.fresh e he
        refine ⟨?_, hb.trans hl⟩
        rcases hr with hr | hr
        · exact hr.trans hn
        · exact hr

theorem Queued.moved (h : Queued id c tr₀ accepted b) (hs : Unrelated id c (.io s))
    (hall : ∀ k j data, 0 ≤ lib.sendmsg k j id data) (hm : Moved lib s b₀ b b') :
    Queued id c tr₀ accepted b' := by
  obtain ⟨es₀, ht₀, hkept⟩ := h.kept
  rcases hm.sends with ⟨i, rfl⟩ | ⟨hsend, ⟨es, ht, hes⟩, hent⟩
  · by_cases hown : ∃ e, b.entry i = some e ∧ e.sendRx = some c
    · obtain ⟨e, he, hr⟩ := hown
      obtain rfl := h.owner i e he hr
      obtain ⟨ht, hent, hsends⟩ := handleSend_all (hall b.step) he hr
      obtain ⟨l, hl⟩ := entry_handleSend lib b i
      refine ⟨fun i' e' hi' hr' => ?_, ?_, es₀ ++ _, by rw [ht, ht₀, List.append_assoc],
        fun e' hi' _ => ?_⟩
      · by_contra hne
        rw [hl, if_neg hne] at hi'
        exact hne (h.owner i' e' hi' hr')
      · rw [hsends]
        exact h.live
      · obtain rfl := Option.some.inj (hent.symm.trans hi')
        rw [hsends, sentTo_append, sentTo_taken]
        simpa using hkept e he hr
    · have hno (e : SocketState) (he : b.entry i = some e) : e.sendRx ≠ some c :=
        fun hr => hown ⟨e, he, hr⟩
      obtain ⟨l, hl⟩ := entry_handleSend lib b i
      obtain ⟨es, ht, hes⟩ := trace_handleSend lib b i
      have hother (i' : SocketId) (e' : SocketState) (hi' : (b.handleSend lib i).entry i' = some e')
          (hr : e'.sendRx = some c) : i' ≠ i ∧ b.entry i' = some e' := by
        rw [hl] at hi'
        split_ifs at hi' with hi
        · obtain ⟨e, he, rfl⟩ := Option.map_eq_some_iff.mp hi'
          exact absurd hr (hno e he)
        · exact ⟨hi, hi'⟩
      refine ⟨fun i' e' hi' hr => h.owner i' e' (hother i' e' hi' hr).2 hr, ?_, es₀ ++ es,
        by rw [ht, ht₀, List.append_assoc], fun e' hi' hr => ?_⟩
      · rw [sends_handleSend hno]
        exact h.live
      · obtain ⟨hne, he⟩ := hother id e' hi' hr
        have hnil : sentTo id es = [] := by
          refine sentTo_eq_nil fun x hx => ?_
          obtain ⟨data, ok, rfl⟩ := hes x hx
          cases ok <;> simp [IoEvent.sentTo, hne.symm]
        rw [sentTo_append, hnil, List.append_nil, sends_handleSend hno]
        exact hkept e' he hr
  · refine ⟨fun i e' hi hr => ?_, (congrArg Mpsc.closed (congrFun hsend c)).trans h.live,
      es₀ ++ es, by rw [ht, ht₀, List.append_assoc], fun e' hi hr => ?_⟩
    · rcases hent i e' hi with ⟨r, d, t, rfl, hd⟩ | ⟨hn, -⟩ | ⟨e, he, hsame | hn, -⟩
      · exact absurd (Option.some.inj (hd.symm.trans hr)) (hs i d rfl).2
      · rw [hn] at hr
        cases hr
      · exact h.owner i e he (hsame ▸ hr)
      · rw [hn] at hr
        cases hr
    · rcases hent id e' hi with ⟨r, d, t, rfl, hd⟩ | ⟨hn, -⟩ | ⟨e, he, hsame | hn, hb⟩
      · exact absurd rfl (hs id d rfl).1
      · rw [hn] at hr
        cases hr
      · rw [sentTo_append, hes id, List.append_nil, hb, hsend]
        exact hkept e he (hsame ▸ hr)
      · rw [hn] at hr
        cases hr

theorem Unused.act {a : Action} (h : Unused id c b) (ha : Unrelated id c a)
    (hno : a.accepted c = none) : Unused id c (b.act lib a) := by
  cases a with
  | io s =>
    show Unused id c (if b.running = true then _ else b)
    split_ifs
    · have hstep : Unused id c (b.ioStep lib s) :=
        (ioStep_moves lib b s).keep (fun _ _ hm hb => hb.moved ha hm) h
      exact ⟨hstep.nobody, hstep.empty, hstep.fresh⟩
    · exact h
  | tokio t =>
    cases t with
    | sendData c' data =>
      have hne : c' ≠ c := by simpa [Action.accepted] using hno
      exact ⟨h.nobody, (Function.update_of_ne hne.symm _ _).trans h.empty, h.fresh⟩
    | _ => exact ⟨h.nobody, h.empty, h.fresh⟩
  | elapse => exact ⟨h.nobody, h.empty, h.fresh⟩

theorem Queued.act {a : Action} (h : Queued id c tr₀ accepted b) (ha : Unrelated id c a)
    (hall : ∀ k j data, 0 ≤ lib.sendmsg k j id data) :
    Queued id c tr₀ (accepted ++ (a.accepted c).toList) (b.act lib a) := by
  have hnothing (hno : a.accepted c = none) (h' : Queued id c tr₀ accepted (b.act lib a)) :
      Queued id c tr₀ (accepted ++ (a.accepted c).toList) (b.act lib a) := by
    rw [hno, Option.toList_none, List.append_nil]
    exact h'
  cases a with
  | io s =>
    refine hnothing rfl ?_
    show Queued id c tr₀ accepted (if b.running = true then _ else b)
    split_ifs
    · have hstep : Queued id c tr₀ accepted (b.ioStep lib s) :=
        (ioStep_moves lib b s).keep (fun _ _ hm hb => hb.moved ha hall hm) h
      exact ⟨hstep.owner, hstep.live, hstep.kept⟩
    · exact h
  | tokio t =>
    cases t with
    | sendData c' data =>
      by_cases hc : c' = c
      · subst hc
        have hnew : (b.act lib (.tokio (.sendData c' data))).sends c' =
            { b.sends c' with buffer := (b.sends c').buffer ++ [data] } := by
          refine (Function.update_self ..).trans ?_
          simp [Mpsc.send, h.live]
        obtain ⟨es, ht, hkept⟩ := h.kept
        refine ⟨h.owner, by rw [hnew]; exact h.live, es, ht, fun e he hr => ?_⟩
        rw [hnew, ← hkept e he hr]
        simp [Action.accepted]
      · have hsame : (b.act lib (.tokio (.sendData c' data))).sends c = b.sends c :=
          Function.update_of_ne (Ne.symm hc) _ _
        exact hnothing (if_neg hc) ⟨h.owner, by rw [hsame]; exact h.live, by rw [hsame]; exact h.kept⟩
    | _ => exact hnothing rfl ⟨h.owner, h.live, h.kept⟩
  | elapse => exact hnothing rfl ⟨h.owner, h.live, h.kept⟩

variable {actions : List Action}

theorem Unused.run (h : Unused id c b)
    (ha : ∀ a ∈ actions, Unrelated id c a ∧ a.accepted c = none) : Unused id c (b.run lib actions) := by
  induction actions generalizing b with
  | nil => exact h
  | cons a actions ih =>
    obtain ⟨hrel, hno⟩ := ha a (by simp)
    exact ih (h.act hrel hno) fun a' h' => ha a' (by simp [h'])

theorem Queued.run (h : Queued id c tr₀ accepted b) (ha : ∀ a ∈ actions, Unrelated id c a)
    (hall : ∀ k j data, 0 ≤ lib.sendmsg k j id data) :
    Queued id c tr₀ (accepted ++ actions.filterMap (Action.accepted c)) (b.run lib actions) := by
  induction actions generalizing b accepted with
  | nil =>
    rw [List.filterMap_nil, List.append_nil]
    exact h
  | cons a actions ih =>
    have hlast := ih (h.act (ha a (by simp)) hall) fun a' h' => ha a' (by simp [h'])
    have hsplit : accepted ++ (a :: actions).filterMap (Action.accepted c) =
        accepted ++ (a.accepted c).toList ++ actions.filterMap (Action.accepted c) := by
      cases hacc : a.accepted c <;> simp [hacc]
    rw [hsplit]
    exact hlast

/-- A handle's send channel is new when it is registered. -/
theorem Unused.register (h : Unused id c b) (lib : Libsrt) (r t : ChannelId) :
    Queued id c (b.act lib (.io (.command (.registerSocket id r c t)))).trace []
      (b.act lib (.io (.command (.registerSocket id r c t)))) := by
  have hsends : (b.registerSocket lib id r c t).sends = b.sends := by
    have henter : (b.enterIfAbsent id .fresh).sends = b.sends := by
      unfold enterIfAbsent
      split <;> rfl
    have hreg : ((b.enterIfAbsent id .fresh).register id r c t).sends = b.sends := by
      rw [register_some (entry_enterIfAbsent b id .fresh)]
      exact henter
    have hrec (b' : Bridge) (q : SocketStatus) : (b'.record id q).sends = b'.sends := by
      unfold record
      split <;> rfl
    unfold registerSocket
    dsimp only
    split
    · split_ifs
      · exact hreg
      · exact (hrec _ _).trans hreg
    · exact hreg
  by_cases hr : b.running = true
  · have hsent : (b.act lib (.io (.command (.registerSocket id r c t)))).sends = b.sends := by
      show (if b.running = true then _ else b).sends = _
      rw [if_pos hr]
      exact hsends
    have hempty := (congrFun hsent c).trans h.empty
    refine ⟨fun i e hi hc => ?_, by rw [hempty]; rfl, [], (List.append_nil _).symm, fun e he _ => ?_⟩
    · rw [entry_act hr] at hi
      by_contra hne
      have hold : b.entry i = some e := by
        rw [← hi]
        exact ((entry_registerSocket ..).trans (if_neg hne)).symm
      exact h.nobody i e hold hc
    · have hback : ((b.entry id).getD .fresh).sendBacklog = [] := by
        cases hent : b.entry id with
        | none => rfl
        | some e₀ => exact (h.fresh e₀ hent).2
      rw [entry_act hr] at he
      have hnew := ((entry_registerSocket lib b id r c t id).trans (if_pos rfl)).symm.trans he
      obtain rfl := Option.some.inj hnew
      rw [hempty]
      split_ifs
      · simpa [sentTo, Mpsc.empty] using hback
      · simpa [sentTo, Mpsc.empty] using hback
  · have hstop : b.act lib (.io (.command (.registerSocket id r c t))) = b := if_neg hr
    rw [hstop]
    refine ⟨fun i e hi hc => absurd hc (h.nobody i e hi), by rw [h.empty]; rfl, [],
      (List.append_nil _).symm, fun e he hc => absurd hc (h.nobody id e he)⟩

end Queues

/-- Everything accepted was taken by libsrt before it closed the socket. -/
def PassedOn (id : SocketId) (accepted : List Bytes) (es : List IoEvent) : Prop :=
  ∃ before after, es = before ++ .closed id :: after ∧ sentTo id before = accepted

theorem PassedOn.isPrefix {id : SocketId} {accepted : List Bytes} {es : List IoEvent}
    (h : PassedOn id accepted es) : accepted <+: sentTo id es := by
  obtain ⟨before, after, rfl, rfl⟩ := h
  rw [sentTo_append]
  exact List.prefix_append ..

theorem close_sends_nothing {b : Bridge} {id : SocketId} {e : SocketState} (err : SrtError)
    (he : b.entry id = some e) : ∃ pre post,
      (b.closeAndFail id err).trace = b.trace ++ (pre ++ .closed id :: post) ∧ sentTo id pre = [] ∧
        sentTo id post = [] := by
  have hpre : sentTo id (b.unsubscribe id) = [] :=
    sentTo_eq_nil fun x hx => sentTo_none (.inl (.inl (unsubscribe_plain b id x hx)))
  refine ⟨_, _, trace_closeAndFail err he, hpre, ?_⟩
  cases e.connectReply <;> rfl

/-- In every run in which libsrt takes every message: a handle whose connection is still up when
its `Close` is carried out has everything accepted from it passed on exactly when nothing then
waits in its send channel or is held back. -/
theorem close_passes_on (lib : Libsrt) (id : SocketId) (c r t : ChannelId) (pre mid : List Action)
    (hall : ∀ k j data, 0 ≤ lib.sendmsg k j id data)
    (hpre : ∀ a ∈ pre, Unrelated id c a ∧ a.accepted c = none) (hmid : ∀ a ∈ mid, Unrelated id c a) :
    let b₁ := (start.run lib pre).act lib (.io (.command (.registerSocket id r c t)))
    let b := b₁.run lib mid
    let b' := b.act lib (.io (.command (.close id)))
    b.running = true → ∀ e, b.entry id = some e → e.sendRx = some c →
      (PassedOn id (mid.filterMap (Action.accepted c)) (b'.trace.drop b₁.trace.length) ↔
        e.sendBacklog = [] ∧ (b.sends c).buffer = []) := by
  intro b₁ b b' hrun e he hr
  have hstart : Unused id c start := ⟨fun _ _ h => (by cases h), rfl, fun _ h => (by cases h)⟩
  have hreg : Queued id c b₁.trace [] b₁ := (hstart.run hpre).register lib r t
  have hmid : Queued id c b₁.trace ([] ++ mid.filterMap (Action.accepted c)) b := hreg.run hmid hall
  obtain ⟨es, ht, hkept⟩ := hmid.kept
  have hkept : sentTo id es ++ e.sendBacklog ++ (b.sends c).buffer =
      mid.filterMap (Action.accepted c) := hkept e he hr
  obtain ⟨before, after, htr, hbefore, hafter⟩ := close_sends_nothing .socketClosed he
  have hclose : b'.trace.drop b₁.trace.length = es ++ (before ++ .closed id :: after) := by
    have htr' : b'.trace = (b.closeAndFail id .socketClosed).trace :=
      trace_act hrun (.command (.close id))
    rw [htr', htr, ht, List.append_assoc, List.drop_left]
  rw [hclose]
  constructor
  · intro h
    have hcons : sentTo id (.closed id :: after) = sentTo id after := rfl
    have hle := h.isPrefix.length_le
    rw [sentTo_append, sentTo_append, hcons, hbefore, hafter, List.append_nil, List.append_nil, ← hkept] at hle
    simp only [List.length_append] at hle
    exact ⟨List.length_eq_zero_iff.mp (by omega), List.length_eq_zero_iff.mp (by omega)⟩
  · rintro ⟨hback, hbuf⟩
    refine ⟨es ++ before, after, by rw [List.append_assoc], ?_⟩
    rw [sentTo_append, hbefore, ← hkept, hback, hbuf, List.append_nil, List.append_nil]

/-- A message that is drained before the `Close`. -/
theorem close_passes_on_drained :
    let b₁ := (start.run .connected []).act .connected (.io (.command (.registerSocket 7 1 2 3)))
    let b := b₁.run .connected [.tokio (.sendData 2 [1]), .io (.drain 7)]
    let b' := b.act .connected (.io (.command (.close 7)))
    PassedOn 7 [[1]] (b'.trace.drop b₁.trace.length) :=
  (close_passes_on .connected 7 2 1 3 [] [.tokio (.sendData 2 [1]), .io (.drain 7)]
    (fun _ _ _ => le_rfl) (by simp) (by simp [Unrelated, Action.registers]) rfl _ rfl rfl).mpr ⟨rfl, rfl⟩

/-- A message that still waits in the send channel when the `Close` is carried out, as it does
when both come in before one turn of the loop, is thrown away. -/
theorem close_drops_message :
    let b₁ := (start.run .connected []).act .connected (.io (.command (.registerSocket 7 1 2 3)))
    let b := b₁.run .connected [.tokio (.sendData 2 [1])]
    let b' := b.act .connected (.io (.command (.close 7)))
    (b.entry 7).map (fun e => (e.lastStatus, e.sendRx)) = some (.connected, some 2) ∧
      ¬PassedOn 7 [[1]] (b'.trace.drop b₁.trace.length) := by
  intro b₁ b b'
  refine ⟨rfl, fun h => ?_⟩
  have hnone : sentTo 7 (b'.trace.drop b₁.trace.length) = [] := rfl
  have hprefix := h.isPrefix
  rw [hnone] at hprefix
  simp at hprefix

end Bridge

end SrtBridge
