import Mathlib.Data.List.TakeWhile
import SrtBridge.Bridge.Runs

/-! The messages libsrt has for a connection. The thread reads a socket as soon as it is in
the epoll: what it takes before the socket is registered has no channel to go to, and
everything after that reaches the receive channel in order, until the entry is dead. -/

namespace SrtBridge

open General

def IoEvent.taken (id : SocketId) : IoEvent → Option ReceivedPacket
  | .took i packet => if i = id then some packet else none
  | _ => none

/-- The entry of `id` is recorded dead, or leaves the map. -/
def IoEvent.ends (id : SocketId) : IoEvent → Bool
  | .recorded i q => i = id && isTerminalStatus q
  | .released i => i = id
  | _ => false

def taken (id : SocketId) (es : List IoEvent) : List ReceivedPacket := es.filterMap (IoEvent.taken id)

/-- What happens until the entry of `id` is recorded dead or leaves the map. -/
def untilEnd (id : SocketId) (es : List IoEvent) : List IoEvent := es.takeWhile (!IoEvent.ends id ·)

/-- A library that reads every socket as connected, whose listeners accept `9`, and which has
one message, in the step `n`. -/
def Libsrt.messageIn (n : ℕ) : Libsrt :=
  { Libsrt.reading fun _ => .connected with
    accept := fun _ _ => 9
    recvmsg := fun k _ _ => if k = n then [⟨some 1, some ([1], 0)⟩] else [] }

section Taken

variable {id : SocketId} {es es' : List IoEvent}

@[simp] theorem taken_append : taken id (es ++ es') = taken id es ++ taken id es' :=
  List.filterMap_append

theorem taken_eq_nil (h : ∀ x ∈ es, x.taken id = none) : taken id es = [] :=
  List.filterMap_eq_nil_iff.mpr h

/-- Neither a note of a call nor an answer takes a message or ends an entry. -/
theorem IoEvent.idle {x : IoEvent} (id : SocketId) (h : x.isPlain = true ∨ x.isReply = true) :
    x.taken id = none ∧ x.ends id = false := by
  cases x with
  | took | recorded | released => simp [IoEvent.isPlain, IoEvent.isReply] at h
  | _ => exact ⟨rfl, rfl⟩

/-- An event that changes an entry takes no message, and ends no other entry. -/
theorem IoEvent.turning {x : IoEvent} {i : SocketId} (hn : x.isNote = false) (hs : x.subject = some i) :
    x.taken id = none ∧ (id ≠ i → x.ends id = false) := by
  cases x with
  | recorded j q =>
    obtain rfl := Option.some.inj hs
    exact ⟨rfl, fun hne => by simp [IoEvent.ends, hne.symm]⟩
  | released j =>
    obtain rfl := Option.some.inj hs
    exact ⟨rfl, fun hne => by simp [IoEvent.ends, hne.symm]⟩
  | took => cases hn
  | _ => exact ⟨rfl, fun _ => rfl⟩

/-- What happens before the end goes on being what happens. -/
theorem untilEnd_append (h : ∀ x ∈ es, x.ends id = false) :
    untilEnd id (es ++ es') = es ++ untilEnd id es' :=
  List.takeWhile_append_of_pos fun x hx => by simp [h x hx]

theorem untilEnd_self (h : ∀ x ∈ es, x.ends id = false) : untilEnd id es = es :=
  List.takeWhile_eq_self_iff.mpr fun x hx => by simp [h x hx]

theorem untilEnd_ended (h : ∃ x ∈ es, x.ends id = true) :
    untilEnd id (es ++ es') = untilEnd id es := by
  obtain ⟨x, hx, hend⟩ := h
  induction es with
  | nil => cases hx
  | cons y es ih =>
    unfold untilEnd
    rw [List.cons_append, List.takeWhile_cons, List.takeWhile_cons]
    split_ifs with hy
    · refine congrArg (y :: ·) (ih ?_)
      rcases List.mem_cons.mp hx with rfl | hx
      · simp [hend] at hy
      · exact hx
    · rfl

theorem taken_untilEnd_append (h : taken id es' = []) :
    taken id (untilEnd id (es ++ es')) = taken id (untilEnd id es) := by
  by_cases hend : ∃ x ∈ es, x.ends id = true
  · rw [untilEnd_ended hend]
  · have hlive : ∀ x ∈ es, x.ends id = false := by simpa using hend
    have hnone : taken id (untilEnd id es') = [] := by
      refine taken_eq_nil fun x hx => ?_
      exact List.filterMap_eq_nil_iff.mp h x (List.takeWhile_subset _ hx)
    rw [untilEnd_append hlive, taken_append, hnone, List.append_nil, untilEnd_self hlive]

end Taken

namespace Bridge

def recvTx (b : Bridge) (id : SocketId) : Option ChannelId := (b.entry id).bind SocketState.recvTx

/-- The step makes an entry of `id`, or gives it channels. -/
def makesEntry (lib : Libsrt) (k : ℕ) (id : SocketId) : IoStep → Bool
  | .command (.registerSocket i _ _ _) | .command (.registerListener i _ _) => i = id
  | .command (.createGroup mode _ _) => lib.createGroup k mode = id
  | _ => false

/-- The action neither registers the receive channel `c` nor lets go of its other end. -/
def Foreign (c : ChannelId) : Action → Prop
  | .io (.command (.registerSocket _ r _ _)) => r ≠ c
  | .tokio (.dropPackets c') => c' ≠ c
  | _ => True

/-- The packet a task receives from the channel `c` with the action. -/
def Action.received (c : ChannelId) (b : Bridge) : Action → Option ReceivedPacket
  | .tokio (.recvPacket c') => if c' = c then (b.packets c).buffer.head? else none
  | _ => none

/-- The packets tasks receive from the channel `c` in a run. -/
def receivedPackets (lib : Libsrt) (c : ChannelId) : Bridge → List Action → List ReceivedPacket
  | _, [] => []
  | b, a :: actions => (a.received c b).toList ++ receivedPackets lib c (b.act lib a) actions

section Moves

variable {lib : Libsrt} {s : IoStep} {n : ℕ} {e₀ e new : Option SocketState} {i id : SocketId}
  {es : List IoEvent} {b₀ b b' : Bridge}

/-- What becomes of the receive channel of `i` with some events: it is given one, loses it with
its end, or keeps it. -/
def RecvKept (lib : Libsrt) (s : IoStep) (n : ℕ) (i : SocketId) (r r' : Option ChannelId)
    (es : List IoEvent) : Prop :=
  (makesEntry lib n i s = true ∧
      ∀ c, r' = some c → r = some c ∨ ∃ d t, s = .command (.registerSocket i c d t)) ∨
    (r' = none ∧ (r ≠ none → ∃ x ∈ es, x.ends i = true)) ∨ r' = r ∧ ∀ x ∈ es, x.ends i = false

theorem Change.recvTx (h : Change lib s n e₀ i e new es) :
    RecvKept lib s n i (e.bind SocketState.recvTx) (new.bind SocketState.recvTx) es := by
  have hstatus (s' : SocketState) (q : SocketStatus) (es : List IoEvent)
      (hes : ∀ x ∈ es, x.ends i = false) : RecvKept lib s n i s'.recvTx (s'.updateStatus q).recvTx
        (es ++ [.recorded i q]) := by
    cases ht : isTerminalStatus q with
    | true =>
      refine .inr (.inl ⟨?_, fun _ => ⟨.recorded i q, by simp, by simp [IoEvent.ends, ht]⟩⟩)
      simp [SocketState.updateStatus, ht]
    | false =>
      refine .inr (.inr ⟨(SocketState.updateStatus_channels ht).1, fun x hx => ?_⟩)
      rcases List.mem_append.mp hx with hx | hx
      · exact hes x hx
      · rw [List.mem_singleton.mp hx]
        simp [IoEvent.ends, ht]
  cases h with
  | enter he =>
    left
    refine ⟨?_, fun c hc => ?_⟩
    · cases he with
      | socket hs | listener hs => simp [makesEntry, hs]
      | group hs hid => simp [makesEntry, hs, hid]
    · cases he <;> cases hc
  | register hs =>
    refine .inl ⟨by simp [makesEntry, hs], fun c hc => .inr ?_⟩
    obtain rfl := Option.some.inj hc
    exact ⟨_, _, hs⟩
  | provide => exact .inr (.inr ⟨rfl, by simp⟩)
  | record => exact hstatus _ _ [] (by simp)
  | listen =>
    rename_i e backlog reply _ _ _ _
    exact hstatus { e with isListener := true } .listening [] (by simp)
  | await =>
    rename_i e addr reply _ _ _ _
    refine hstatus { e with connectReply := some reply } .connecting _ fun x hx => ?_
    cases hr : e.connectReply with
    | none => simp [hr] at hx
    | some old =>
      obtain rfl : x = .unanswered old := by simpa [hr] using hx
      rfl
  | complete =>
    rename_i e flags reply result q _ _ _ _ _ _
    exact hstatus { e with connectReply := none } q [.answered reply (.done result)]
      (by simp [IoEvent.ends])
  | fail => exact .inr (.inr ⟨rfl, by simp [IoEvent.ends]⟩)
  | watch hes =>
    refine .inr (.inr ⟨rfl, fun x hx => ?_⟩)
    obtain ⟨m, rfl⟩ := hes x hx
    rfl
  | close => exact .inr (.inl ⟨rfl, fun _ => ⟨.released i, by simp, by simp [IoEvent.ends]⟩⟩)

theorem Change.taken_nil (h : Change lib s n e₀ i e new es) : taken id es = [] := by
  refine taken_eq_nil fun x hx => ?_
  rcases h.events x hx with hidle | ⟨hn, hs⟩
  · exact (x.idle id hidle).1
  · exact (x.turning hn hs).1

theorem Change.ends_other (h : Change lib s n e₀ i e new es) (hne : id ≠ i) :
    ∀ x ∈ es, x.ends id = false := by
  intro x hx
  rcases h.events x hx with hidle | ⟨hn, hs⟩
  · exact (x.idle id hidle).2
  · exact (x.turning hn hs).2 hne

/-- A move delivers one message, or takes none and leaves the receive channels alone. -/
theorem Moved.packets (hm : Moved lib s b₀ b b') : (∃ i packet, b' = b.deliver i packet) ∨
    b'.packets = b.packets ∧ ∃ es, b'.trace = b.trace ++ es ∧ (∀ id, taken id es = []) ∧
      ∀ i, RecvKept lib s b₀.step i (b.recvTx i) (b'.recvTx i) es := by
  have hsame (es : List IoEvent) (he : ∀ i, b'.entry i = b.entry i)
      (hes : ∀ x ∈ es, ∀ id, x.taken id = none ∧ x.ends id = false) : (∀ id, taken id es = []) ∧
        ∀ i, RecvKept lib s b₀.step i (b.recvTx i) (b'.recvTx i) es := by
    refine ⟨fun id => taken_eq_nil fun x hx => (hes x hx id).1, fun i => .inr (.inr ⟨?_, fun x hx => ?_⟩)⟩
    · unfold recvTx
      rw [he]
    · exact (hes x hx i).2
  cases hm with
  | note hes he ht hc =>
    exact .inr ⟨congrArg (·.2.1) hc, _, ht, hsame _ he fun x hx id => x.idle id (.inl (hes x hx))⟩
  | answer hs hr hx =>
    refine .inr ⟨rfl, _, rfl, hsame _ (fun _ => rfl) fun y hy id => ?_⟩
    rw [List.mem_singleton.mp hy]
    rcases hx with rfl | ⟨a, rfl⟩ <;> exact ⟨rfl, rfl⟩
  | arm | subscribe | listening | accepted =>
    refine .inr ⟨rfl, _, rfl, hsame _ (fun _ => rfl) fun y hy id => ?_⟩
    rw [List.mem_singleton.mp hy]
    exact ⟨rfl, rfl⟩
  | handOver => exact .inr ⟨rfl, [], (List.append_nil _).symm, hsame [] (fun _ => rfl) (by simp)⟩
  | change hch he ht hc =>
    refine .inr ⟨congrArg (·.2.1) hc, _, ht, fun id => hch.taken_nil, fun i => ?_⟩
    unfold recvTx
    rw [he]
    split_ifs with hi
    · subst hi
      exact hch.recvTx
    · exact .inr (.inr ⟨rfl, hch.ends_other hi⟩)
  | take => exact .inl ⟨_, _, rfl⟩
  | send =>
    rename_i i hs
    obtain ⟨l, hl⟩ := entry_handleSend lib b i
    obtain ⟨es, ht, hes⟩ := trace_handleSend lib b i
    refine .inr ⟨?_, es, ht, fun id => taken_eq_nil fun x hx => ?_, fun i' => .inr (.inr ⟨?_, fun x hx => ?_⟩)⟩
    · obtain ⟨m, q, tr, h⟩ := handleSend_frame lib b i
      rw [h]
    · obtain ⟨data, ok, rfl⟩ := hes x hx
      rfl
    · unfold recvTx
      rw [hl]
      split_ifs with hi
      · rw [hi]
        cases b.entry i <;> rfl
      · rfl
    · obtain ⟨data, ok, rfl⟩ := hes x hx
      rfl

end Moves

section Heard

variable {lib : Libsrt} {s : IoStep} {b b' b₀ : Bridge} {id : SocketId} {c : ChannelId}
  {tr₀ : List IoEvent} {got : List ReceivedPacket}

/-- The receive channel `c` is nobody's yet. -/
structure Unheard (c : ChannelId) (b : Bridge) : Prop where
  nobody : ∀ i, b.recvTx i ≠ some c
  empty : b.packets c = .empty

/-- What was received from the channel `c` of `id` and what waits in it are the messages taken
for `id` since the trace was `tr₀`, up to the end of its entry. -/
structure Heard (id : SocketId) (c : ChannelId) (tr₀ : List IoEvent) (got : List ReceivedPacket)
    (b : Bridge) : Prop where
  owner : ∀ i, b.recvTx i = some c → i = id
  live : (b.packets c).closed = false
  kept : ∃ es, b.trace = tr₀ ++ es ∧ got ++ (b.packets c).buffer = taken id (untilEnd id es) ∧
    (b.recvTx id = some c ∧ (∀ x ∈ es, x.ends id = false) ∨
      b.recvTx id ≠ some c ∧ ∃ x ∈ es, x.ends id = true)

theorem RecvKept.owner {n : ℕ} {i : SocketId} {r r' : Option ChannelId} {es : List IoEvent}
    (h : RecvKept lib s n i r r' es) (hs : Foreign c (.io s)) (hr : r' = some c) : r = some c := by
  rcases h with ⟨-, hnew⟩ | ⟨hnone, -⟩ | ⟨hsame, -⟩
  · rcases hnew c hr with hold | ⟨d, t, rfl⟩
    · exact hold
    · exact absurd rfl hs
  · rw [hnone] at hr
    cases hr
  · exact hsame ▸ hr

theorem recvTx_deliver (b : Bridge) (i i' : SocketId) (packet : ReceivedPacket) :
    (b.deliver i packet).recvTx i' = b.recvTx i' := by
  unfold recvTx
  rw [entry_deliver]

theorem packets_deliver (i : SocketId) (packet : ReceivedPacket) : (b.deliver i packet).packets c =
    if b.recvTx i = some c then (b.packets c).send packet else b.packets c := by
  have hrecv : ((b.emit (.took i packet)).entry i).bind SocketState.recvTx = b.recvTx i := rfl
  unfold deliver
  dsimp only
  rw [hrecv]
  cases hr : b.recvTx i with
  | none => rfl
  | some c' =>
    by_cases hc : c' = c
    · subst hc
      rw [if_pos rfl]
      exact Function.update_self ..
    · rw [if_neg (by simpa using hc)]
      exact Function.update_of_ne (Ne.symm hc) ..

theorem Unheard.moved (h : Unheard c b) (hs : Foreign c (.io s)) (hm : Moved lib s b₀ b b') :
    Unheard c b' := by
  rcases hm.packets with ⟨i, packet, rfl⟩ | ⟨hpackets, es, -, -, hkept⟩
  · refine ⟨fun i' => ?_, ?_⟩
    · rw [recvTx_deliver]
      exact h.nobody i'
    · rw [packets_deliver, if_neg (h.nobody i)]
      exact h.empty
  · exact ⟨fun i hr => h.nobody i ((hkept i).owner hs hr), (congrFun hpackets c).trans h.empty⟩

theorem Heard.moved (h : Heard id c tr₀ got b) (hs : Foreign c (.io s))
    (hid : makesEntry lib b₀.step id s = false) (hm : Moved lib s b₀ b b') :
    Heard id c tr₀ got b' := by
  obtain ⟨es, ht, hgot, hstate⟩ := h.kept
  rcases hm.packets with ⟨i, packet, rfl⟩ | ⟨hpackets, es', ht', htaken, hkept⟩
  · have howner (i' : SocketId) (hr : (b.deliver i packet).recvTx i' = some c) : i' = id :=
      h.owner i' (by rwa [recvTx_deliver] at hr)
    have htr : (b.deliver i packet).trace = tr₀ ++ (es ++ [IoEvent.took i packet]) := by
      rw [trace_deliver, ht, List.append_assoc]
    have hends (j : SocketId) : ∀ x ∈ [IoEvent.took i packet], x.ends j = false := by
      simp [IoEvent.ends]
    by_cases hr : b.recvTx i = some c
    · obtain rfl := h.owner i hr
      obtain ⟨-, hlive⟩ := hstate.resolve_right fun hno => hno.1 hr
      have hlive' : ∀ x ∈ es ++ [IoEvent.took i packet], x.ends i = false := fun x hx =>
        (List.mem_append.mp hx).elim (hlive x) (hends i x)
      have hsent : (b.deliver i packet).packets c =
          { b.packets c with buffer := (b.packets c).buffer ++ [packet] } := by
        rw [packets_deliver, if_pos hr]
        simp [Mpsc.send, h.live]
      refine ⟨howner, by rw [hsent]; exact h.live, _, htr, ?_, .inl ⟨?_, hlive'⟩⟩
      · have hnew : taken i [.took i packet] = [packet] := by simp [taken, IoEvent.taken]
        rw [untilEnd_self hlive] at hgot
        rw [hsent, untilEnd_self hlive', taken_append, ← hgot, hnew, List.append_assoc]
      · rwa [recvTx_deliver]
    · have hsame : (b.deliver i packet).packets c = b.packets c := by
        rw [packets_deliver, if_neg hr]
      refine ⟨howner, by rw [hsame]; exact h.live, _, htr, ?_, ?_⟩
      · rw [hsame, hgot]
        by_cases hi : i = id
        · subst hi
          obtain ⟨-, hend⟩ := hstate.resolve_left fun hyes => hr hyes.1
          rw [untilEnd_ended hend]
        · rw [taken_untilEnd_append]
          simp [taken, IoEvent.taken, hi]
      · rw [recvTx_deliver]
        refine hstate.imp (fun hyes => ⟨hyes.1, fun x hx => ?_⟩) fun hno => ⟨hno.1, ?_⟩
        · exact (List.mem_append.mp hx).elim (hyes.2 x) (hends id x)
        · obtain ⟨x, hx, hend⟩ := hno.2
          exact ⟨x, List.mem_append_left _ hx, hend⟩
  · have hsame := congrFun hpackets c
    refine ⟨fun i hr => h.owner i ((hkept i).owner hs hr), by rw [hsame]; exact h.live, es ++ es',
      by rw [ht', ht, List.append_assoc], ?_, ?_⟩
    · rw [hsame, hgot, taken_untilEnd_append (htaken id)]
    · have hended (hend : ∃ x ∈ es, x.ends id = true) : ∃ x ∈ es ++ es', x.ends id = true := by
        obtain ⟨x, hx, hend⟩ := hend
        exact ⟨x, List.mem_append_left _ hx, hend⟩
      rcases hkept id with ⟨hmakes, -⟩ | ⟨hnone, hend⟩ | ⟨hrecv, hlive⟩
      · rw [hid] at hmakes
        cases hmakes
      · refine .inr ⟨by simp [hnone], ?_⟩
        rcases hstate with ⟨hr, -⟩ | ⟨-, hdone⟩
        · obtain ⟨x, hx, hx'⟩ := hend (by simp [hr])
          exact ⟨x, List.mem_append_right _ hx, hx'⟩
        · exact hended hdone
      · rw [hrecv]
        refine hstate.imp (fun hyes => ⟨hyes.1, fun x hx => ?_⟩) fun hno => ⟨hno.1, hended hno.2⟩
        exact (List.mem_append.mp hx).elim (hyes.2 x) (hlive x)

theorem Unheard.act {a : Action} (h : Unheard c b) (ha : Foreign c a) :
    Unheard c (b.act lib a) ∧ a.received c b = none := by
  cases a with
  | io s =>
    refine ⟨?_, rfl⟩
    show Unheard c (if b.running = true then _ else b)
    split_ifs
    · have hstep : Unheard c (b.ioStep lib s) :=
        (ioStep_moves lib b s).keep (fun _ _ hm hb => hb.moved ha hm) h
      exact ⟨hstep.nobody, hstep.empty⟩
    · exact h
  | tokio t =>
    cases t with
    | recvPacket c' =>
      refine ⟨⟨h.nobody, ?_⟩, ?_⟩
      · show Function.update b.packets c' _ c = _
        by_cases hc : c' = c
        · subst hc
          rw [Function.update_self, h.empty]
          rfl
        · rw [Function.update_of_ne (Ne.symm hc), h.empty]
      · simp [Action.received, h.empty, Mpsc.empty]
    | dropPackets c' =>
      exact ⟨⟨h.nobody, (Function.update_of_ne (Ne.symm ha) _ _).trans h.empty⟩, rfl⟩
    | _ => exact ⟨⟨h.nobody, h.empty⟩, rfl⟩
  | elapse => exact ⟨⟨h.nobody, h.empty⟩, rfl⟩

theorem Heard.act {a : Action} (h : Heard id c tr₀ got b) (ha : Foreign c a)
    (hid : Meets (fun b s => makesEntry lib b.step id s = false) b a) :
    Heard id c tr₀ (got ++ (a.received c b).toList) (b.act lib a) := by
  have hsame (hno : a.received c b = none) (h' : Heard id c tr₀ got (b.act lib a)) :
      Heard id c tr₀ (got ++ (a.received c b).toList) (b.act lib a) := by
    rw [hno, Option.toList_none, List.append_nil]
    exact h'
  cases a with
  | io s =>
    refine hsame rfl ?_
    show Heard id c tr₀ got (if b.running = true then _ else b)
    split_ifs with hr
    · have hstep : Heard id c tr₀ got (b.ioStep lib s) :=
        (ioStep_moves lib b s).keep (fun _ _ hm hb => hb.moved ha (hid hr) hm) h
      exact ⟨hstep.owner, hstep.live, hstep.kept⟩
    · exact h
  | tokio t =>
    cases t with
    | recvPacket c' =>
      by_cases hc : c' = c
      · subst hc
        obtain ⟨es, ht, hgot, hstate⟩ := h.kept
        have hnew : (b.act lib (.tokio (.recvPacket c'))).packets c' = Bridge.received (b.packets c') :=
          Function.update_self ..
        have hfirst : Action.received c' b (.tokio (.recvPacket c')) = (b.packets c').buffer.head? :=
          if_pos rfl
        rw [hfirst]
        refine ⟨h.owner, ?_, es, ht, ?_, hstate⟩
        · rw [hnew, ← h.live]
          unfold Bridge.received Mpsc.tryRecv
          split <;> rfl
        · rw [hnew, ← hgot]
          cases hbuf : (b.packets c').buffer with
          | nil => simp [Bridge.received, Mpsc.tryRecv, hbuf]
          | cons packet rest => simp [Bridge.received, Mpsc.tryRecv, hbuf]
      · have hother : (b.act lib (.tokio (.recvPacket c'))).packets c = b.packets c :=
          Function.update_of_ne (Ne.symm hc) ..
        exact hsame (if_neg hc) ⟨h.owner, by rw [hother]; exact h.live, by rw [hother]; exact h.kept⟩
    | dropPackets c' =>
      have hother : (b.act lib (.tokio (.dropPackets c'))).packets c = b.packets c :=
        Function.update_of_ne (Ne.symm ha) ..
      exact hsame rfl ⟨h.owner, by rw [hother]; exact h.live, by rw [hother]; exact h.kept⟩
    | _ => exact hsame rfl ⟨h.owner, h.live, h.kept⟩
  | elapse => exact hsame rfl ⟨h.owner, h.live, h.kept⟩

variable {actions : List Action}

theorem Unheard.run (h : Unheard c b) (ha : ∀ a ∈ actions, Foreign c a) :
    Unheard c (b.run lib actions) ∧ receivedPackets lib c b actions = [] := by
  induction actions generalizing b with
  | nil => exact ⟨h, rfl⟩
  | cons a actions ih =>
    have hfirst : Unheard c (b.act lib a) ∧ a.received c b = none := h.act (ha a (by simp))
    obtain ⟨hnext, hno⟩ := hfirst
    obtain ⟨hlast, hnone⟩ := ih hnext fun a' h' => ha a' (by simp [h'])
    refine ⟨hlast, ?_⟩
    show (a.received c b).toList ++ _ = []
    rw [hno, hnone]
    rfl

theorem Heard.run (h : Heard id c tr₀ got b) (ha : ∀ a ∈ actions, Foreign c a)
    (hid : StepsMeet lib (fun b s => makesEntry lib b.step id s = false) b actions) :
    Heard id c tr₀ (got ++ receivedPackets lib c b actions) (b.run lib actions) := by
  induction actions generalizing b got with
  | nil =>
    show Heard id c tr₀ (got ++ []) b
    rw [List.append_nil]
    exact h
  | cons a actions ih =>
    have hlast := ih (h.act (ha a (by simp)) hid.1) (fun a' h' => ha a' (by simp [h'])) hid.2
    rw [List.append_assoc] at hlast
    exact hlast

/-- What `RegisterSocket` does for a socket that has no entry yet. -/
theorem registerSocket_new (lib : Libsrt) {r d t : ChannelId} (he : b.entry id = none) :
    b.registerSocket lib id r d t =
      if lib.status b.step 0 id = .init then (b.enter id .fresh).register id r d t
      else ((b.enter id .fresh).register id r d t).record id (lib.status b.step 0 id) := by
  have hreg : ((b.enter id .fresh).register id r d t).entry id =
      some { SocketState.fresh with recvTx := some r, sendRx := some d, statusTx := some t } := by
    rw [register_some (e := .fresh) (by simp), entry_emit, entry_setEntry, if_pos rfl]
  have hstep : ((b.enter id .fresh).register id r d t).step = b.step := by
    rw [register_some (e := .fresh) (by simp)]
    rfl
  unfold registerSocket enterIfAbsent
  rw [he]
  dsimp only
  rw [hreg, hstep]
  simp [SocketState.fresh]

/-- A socket's receive channel is new when it is registered. -/
theorem Unheard.register (h : Unheard c b) (lib : Libsrt) (d t : ChannelId) (he : b.entry id = none)
    (hr : b.running = true) :
    Heard id c b.trace [] (b.act lib (.io (.command (.registerSocket id c d t)))) := by
  have hfresh : (b.enter id .fresh).entry id = some .fresh := by simp
  have hreg := register_some hfresh c d t
  have hrecv (i : SocketId) : ((b.enter id .fresh).register id c d t).recvTx i =
      if i = id then some c else b.recvTx i := by
    unfold recvTx
    rw [hreg, entry_emit, entry_setEntry, entry_enter]
    split_ifs <;> rfl
  have hpackets : ((b.enter id .fresh).register id c d t).packets c = .empty := by
    rw [hreg]
    exact h.empty
  have htr : ((b.enter id .fresh).register id c d t).trace =
      b.trace ++ [IoEvent.entered id, .registered id c d] := by
    rw [hreg, trace_emit, trace_setEntry, trace_enter, List.append_assoc]
    rfl
  have hnew : Heard id c b.trace [] ((b.enter id .fresh).register id c d t) := by
    refine ⟨fun i hi => ?_, by rw [hpackets]; rfl, _, htr, by rw [hpackets]; rfl, .inl ⟨?_, ?_⟩⟩
    · by_contra hne
      rw [hrecv, if_neg hne] at hi
      exact h.nobody i hi
    · rw [hrecv, if_pos rfl]
    · simp [IoEvent.ends]
  have hrecord (q : SocketStatus) :
      Heard id c b.trace [] (((b.enter id .fresh).register id c d t).record id q) := by
    have hent : ((b.enter id .fresh).register id c d t).entry id =
        some { SocketState.fresh with recvTx := some c, sendRx := some d, statusTx := some t } := by
      rw [hreg, entry_emit, entry_setEntry, if_pos rfl]
    have hrecv' (i : SocketId) : (((b.enter id .fresh).register id c d t).record id q).recvTx i =
        if i = id then (if isTerminalStatus q then none else some c) else b.recvTx i := by
      have hold := hrecv i
      unfold recvTx at hold ⊢
      rw [entry_record, hent]
      split_ifs with hi ht
      · simp [SocketState.updateStatus, ht]
      · simp [SocketState.updateStatus, ht]
      · rw [if_neg hi] at hold
        exact hold
    have hpackets' : (((b.enter id .fresh).register id c d t).record id q).packets c = .empty := by
      rw [record_some hent]
      exact hpackets
    have htr' : (((b.enter id .fresh).register id c d t).record id q).trace =
        b.trace ++ [IoEvent.entered id, .registered id c d, .recorded id q] := by
      rw [record_some hent, trace_emit, trace_setEntry, htr, List.append_assoc]
      rfl
    have hnone : taken id (untilEnd id [.entered id, .registered id c d, .recorded id q]) = [] := by
      refine taken_eq_nil fun x hx => ?_
      have hx := List.takeWhile_subset _ hx
      simp only [List.mem_cons, List.not_mem_nil, or_false] at hx
      rcases hx with rfl | rfl | rfl <;> rfl
    refine ⟨fun i hi => ?_, by rw [hpackets']; rfl, _, htr', by rw [hpackets', hnone]; rfl, ?_⟩
    · by_contra hne
      rw [hrecv', if_neg hne] at hi
      exact h.nobody i hi
    · rw [hrecv', if_pos rfl]
      cases ht : isTerminalStatus q <;> simp [IoEvent.ends, ht]
  have hstep : Heard id c b.trace [] (b.registerSocket lib id c d t) := by
    rw [registerSocket_new lib he]
    split_ifs
    · exact hnew
    · exact hrecord _
  show Heard id c b.trace [] (if b.running = true then _ else b)
  rw [if_pos hr]
  exact ⟨hstep.owner, hstep.live, hstep.kept⟩

/-- Since the trace was `tr₀` there has been no entry of `id`, and so none has ended. -/
def Absent (id : SocketId) (tr₀ : List IoEvent) (e : Option SocketState) (tr : List IoEvent) : Prop :=
  e = none ∧ ∃ es, tr = tr₀ ++ es ∧ ∀ x ∈ es, x.ends id = false

theorem absent_keeps (tr₀ : List IoEvent) :
    KeepsEntry lib (fun b s => makesEntry lib b.step id s = false) id (Absent id tr₀) where
  note := by
    rintro b₀ s e tr x - hx ⟨he, es, rfl, hes⟩
    have hend : x.ends id = false := by
      have haside := hx.aside
      cases x with
      | recorded j q | released j =>
        have hne : j ≠ id := by simpa [IoEvent.isNote, IoEvent.subject] using haside
        simp [IoEvent.ends, hne]
      | _ => rfl
    refine ⟨he, es ++ [x], List.append_assoc .., fun y hy => ?_⟩
    rcases List.mem_append.mp hy with hy | hy
    · exact hes y hy
    · rw [List.mem_singleton.mp hy]
      exact hend
  backlog := by
    rintro e tr l ⟨he, -⟩
    cases he
  change := by
    rintro b₀ s e new es tr hok - - hch ⟨rfl, -⟩
    cases hch with
    | enter hent =>
      cases hent with
      | socket hs | listener hs => simp [makesEntry, hs] at hok
      | group hs hid => simp [makesEntry, hs, hid] at hok

theorem receivedPackets_append (lib : Libsrt) (c : ChannelId) (b : Bridge) (as as' : List Action) :
    receivedPackets lib c b (as ++ as') =
      receivedPackets lib c b as ++ receivedPackets lib c (b.run lib as) as' := by
  induction as generalizing b with
  | nil => rfl
  | cons a as ih =>
    show (a.received c b).toList ++ receivedPackets lib c (b.act lib a) (as ++ as') = _
    rw [ih, ← List.append_assoc]
    rfl

/-- From the moment on that a new socket is in the epoll, whatever the thread and the tasks do:
what its task has received, followed by what still waits for it, is what libsrt had for the
socket until its entry ended, exactly if nothing was taken before it was registered. -/
theorem registered_receives (lib : Libsrt) (id : SocketId) (c d t : ChannelId)
    (pre mid post : List Action) (hchan : ∀ a ∈ pre ++ mid ++ post, Foreign c a)
    (hnew : (start.run lib pre).entry id = none)
    (hmid : StepsMeet lib (fun b s => makesEntry lib b.step id s = false) (start.run lib pre) mid)
    (hpost : StepsMeet lib (fun b s => makesEntry lib b.step id s = false)
      (((start.run lib pre).run lib mid).act lib (.io (.command (.registerSocket id c d t)))) post) :
    let b₁ := start.run lib pre
    let b₂ := b₁.run lib mid
    let actions := mid ++ .io (.command (.registerSocket id c d t)) :: post
    let b := b₁.run lib actions
    b₂.running = true →
      (receivedPackets lib c b₁ actions ++ (b.packets c).buffer =
          taken id (untilEnd id (b.trace.drop b₁.trace.length)) ↔
        taken id (b₂.trace.drop b₁.trace.length) = []) := by
  intro b₁ b₂ actions b hrun
  have hforeign (as : List Action) (hin : as ⊆ pre ++ mid ++ post) : ∀ a ∈ as, Foreign c a :=
    fun a ha => hchan a (hin ha)
  have hstart : Unheard c start := ⟨fun _ => by simp [recvTx], rfl⟩
  have hun₁ : Unheard c b₁ := (hstart.run (hforeign pre (by simp))).1
  have hmid₂ : Unheard c b₂ ∧ receivedPackets lib c b₁ mid = [] := hun₁.run (hforeign mid (by simp))
  obtain ⟨hun₂, hnone⟩ := hmid₂
  have habsent : Absent id b₁.trace (b₁.entry id) b₁.trace :=
    ⟨hnew, [], (List.append_nil _).symm, List.forall_mem_nil _⟩
  obtain ⟨hent, es₂, ht₂, hlive⟩ := (absent_keeps b₁.trace).run hmid habsent
  have hheard := (hun₂.register lib d t hent hrun).run (hforeign post (by simp)) hpost
  obtain ⟨es, ht, hgot, -⟩ := hheard.kept
  have hb : b = (b₂.act lib (.io (.command (.registerSocket id c d t)))).run lib post :=
    List.foldl_append
  have hreceived : receivedPackets lib c b₁ actions =
      receivedPackets lib c (b₂.act lib (.io (.command (.registerSocket id c d t)))) post := by
    rw [receivedPackets_append, hnone]
    rfl
  have htrace : b.trace.drop b₁.trace.length = es₂ ++ es := by
    rw [hb, ht]
    show (b₂.trace ++ es).drop _ = _
    rw [ht₂, List.append_assoc, List.drop_left]
  rw [htrace, untilEnd_append hlive, taken_append, ht₂, List.drop_left, ← hgot, hreceived, ← hb,
    List.nil_append]
  exact List.self_eq_append_left

end Heard

def acceptConnection : List Action :=
  [.io (.command (.registerListener 7 4 none)), .io (.command (.listen 7 16 0)),
    .io (.event 7 ⟨true, false, false, false⟩)]

def readable : Action := .io (.event 9 ⟨true, false, false, false⟩)

/-- A message that comes when the connection has been registered is received. -/
theorem registered_receives_message :
    let lib := Libsrt.messageIn 4
    let b₁ := start.run lib acceptConnection
    let b₂ := b₁.run lib [.tokio (.recvAccepted 4)]
    let actions := [.tokio (.recvAccepted 4), .io (.command (.registerSocket 9 1 2 3)), readable,
      .tokio (.recvPacket 1)]
    let b := b₁.run lib actions
    receivedPackets lib 1 b₁ actions ++ (b.packets 1).buffer =
        taken 9 (untilEnd 9 (b.trace.drop b₁.trace.length)) ↔
      taken 9 (b₂.trace.drop b₁.trace.length) = [] :=
  registered_receives (.messageIn 4) 9 1 2 3 acceptConnection [.tokio (.recvAccepted 4)]
    [readable, .tokio (.recvPacket 1)] (by simp [acceptConnection, readable, Foreign]) rfl (by decide)
    (by decide) rfl

/-- A connection is readable before its task has come to register it: the message is taken from
libsrt and thrown away. -/
theorem message_discarded :
    let lib := Libsrt.messageIn 3
    let b₁ := start.run lib acceptConnection
    let actions := [readable, .tokio (.recvAccepted 4), .io (.command (.registerSocket 9 1 2 3)),
      .tokio (.recvPacket 1)]
    let b := b₁.run lib actions
    b₁.trace.getLast? = some (.subscribed 9) ∧ (b₁.accepts 4).buffer = [9] ∧
      taken 9 (untilEnd 9 (b.trace.drop b₁.trace.length)) = [⟨[1], none⟩] ∧
        receivedPackets lib 1 b₁ actions ++ (b.packets 1).buffer = [] :=
  ⟨rfl, rfl, rfl, rfl⟩

end Bridge

end SrtBridge
