import SrtBridge.Bridge.Offers
import SrtBridge.Bridge.Receives

/-! From the task that sends to the task that receives: two hosts, each with its I/O thread and
whatever else goes on there, and between them what libsrt makes of a connection. -/

namespace SrtBridge

open General

/-- libsrt refuses a message of `id` only for the moment. -/
def Libsrt.OnlyBlocks (lib : Libsrt) (id : SocketId) : Prop :=
  ∀ k j data, lib.sendOutcome k j id data ≠ .failed

namespace Bridge

/-- The messages of `id` that are yet to be offered to libsrt: the one held back, and those in the
send channel `c`, while the entry has it. -/
def unsent (id : SocketId) (c : ChannelId) (b : Bridge) : List Bytes :=
  match b.entry id with
  | none => []
  | some e => e.sendBacklog ++ if e.sendRx = some c then (b.sends c).buffer else []

/-- The messages accepted into the send channel `c` of `id` since the trace was `tr₀`: what libsrt has
taken of them and what waits are a subsequence, and all of them while the entry has the channel
and libsrt does no worse than block. -/
structure Relayed (lib : Libsrt) (id : SocketId) (c : ChannelId) (tr₀ : List IoEvent)
    (accepted : List Bytes) (b : Bridge) : Prop where
  owner : ∀ i e, b.entry i = some e → e.sendRx = some c → i = id
  own : ∀ e, b.entry id = some e → (e.sendRx = some c ∨ e.sendRx = none) ∧ e.sendBacklog.length ≤ 1
  live : (b.sends c).closed = false
  kept : ∃ es, b.trace = tr₀ ++ es ∧ (sentTo id es ++ b.unsent id c).Sublist accepted ∧
    (lib.OnlyBlocks id → ∀ e, b.entry id = some e → e.sendRx = some c →
      sentTo id es ++ b.unsent id c = accepted)

section Relay

variable {lib : Libsrt} {s : IoStep} {b b' b₀ : Bridge} {id : SocketId} {c : ChannelId}
  {tr₀ : List IoEvent} {accepted : List Bytes} {e : SocketState} {k j : ℕ} {msgs : List Bytes}

theorem unsent_some (he : b.entry id = some e) : b.unsent id c =
    e.sendBacklog ++ if e.sendRx = some c then (b.sends c).buffer else [] := by
  unfold unsent
  rw [he]

theorem unsent_none (he : b.entry id = none) : b.unsent id c = [] := by
  unfold unsent
  rw [he]

/-- If no call fails, what is settled is what was accepted. -/
theorem settled_eq {calls : List SendCall} (h : ∀ call ∈ calls, call.outcome ≠ .failed) :
    settled calls = acceptedBy calls := by
  refine congrArg _ (List.filter_congr fun call hcall => ?_)
  have hne := h call hcall
  cases ho : call.outcome with
  | accepted => rfl
  | wouldBlock => rfl
  | failed => exact absurd ho hne

/-- Of the messages offered, libsrt takes some, and the one that would have blocked and those after it
are left; the others are lost, which takes a call that fails. -/
theorem offer_relays (lib : Libsrt) (k : ℕ) (id : SocketId) (j : ℕ) (msgs : List Bytes) :
    (acceptedBy (offer lib k id j msgs).calls ++
        ((offer lib k id j msgs).held ++ (offer lib k id j msgs).left)).Sublist msgs ∧
      (lib.OnlyBlocks id → acceptedBy (offer lib k id j msgs).calls ++
        ((offer lib k id j msgs).held ++ (offer lib k id j msgs).left) = msgs) := by
  have hall : settled (offer lib k id j msgs).calls ++
      ((offer lib k id j msgs).held ++ (offer lib k id j msgs).left) = msgs := settled_offer j msgs
  constructor
  · conv_rhs => rw [← hall]
    exact (acceptedBy_sublist _).append_right _
  · intro hblocks
    have hnone : settled (offer lib k id j msgs).calls = acceptedBy (offer lib k id j msgs).calls := by
      refine settled_eq fun call hcall => ?_
      obtain ⟨i, hi⟩ := outcome_offer hcall
      rw [hi]
      exact hblocks k i call.data
    rw [← hnone]
    exact hall

theorem left_offer_short (lib : Libsrt) (k : ℕ) (id : SocketId) (j : ℕ) (h : msgs.length ≤ 1) :
    (offer lib k id j msgs).left = [] := by
  match msgs with
  | [] => rfl
  | [data] =>
    rw [offer_cons]
    cases lib.sendOutcome k j id data <;> rfl

/-- With no send channel only the message held back is offered. -/
theorem handleSend_closed (lib : Libsrt) (he : b.entry id = some e) (hc : e.sendRx = none)
    (hl : e.sendBacklog.length ≤ 1) :
    (b.handleSend lib id).trace =
        b.trace ++ (offer lib b.step id 0 e.sendBacklog).calls.map (SendCall.event id) ∧
      (b.handleSend lib id).entry id =
          some { e with sendBacklog := (offer lib b.step id 0 e.sendBacklog).held } ∧
        (b.handleSend lib id).sends = b.sends := by
  cases hr : (offer lib b.step id 0 e.sendBacklog).refused with
  | some r =>
    have hsome : (offer lib b.step id 0 e.sendBacklog).refused.isSome := by rw [hr]; rfl
    rw [(handleSend_refused he hsome).2, left_offer_short lib _ id 0 hl, List.append_nil]
    exact ⟨congrArg (b.trace ++ ·) (events_calls ..), (entry_setEntry ..).trans (if_pos rfl), rfl⟩
  | none =>
    have hsend : b.handleSend lib id = (b.emits ((offer lib b.step id 0 e.sendBacklog).events id)).setEntry id
        { e with sendBacklog := (offer lib b.step id 0 e.sendBacklog).held } := by
      unfold handleSend
      rw [he]
      simp [hr, hc, Offered.held]
    rw [hsend]
    exact ⟨congrArg (b.trace ++ ·) (events_calls ..), (entry_setEntry ..).trans (if_pos rfl), rfl⟩

/-- What `handle_send` does with the messages that wait. -/
theorem handleSend_relays (lib : Libsrt) (he : b.entry id = some e)
    (hc : e.sendRx = some c ∨ e.sendRx = none) (hl : e.sendBacklog.length ≤ 1) :
    ((b.handleSend lib id).sends c).closed = (b.sends c).closed ∧
      ∃ es l, (b.handleSend lib id).trace = b.trace ++ es ∧
        (b.handleSend lib id).entry id = some { e with sendBacklog := l } ∧ l.length ≤ 1 ∧
          (sentTo id es ++ (b.handleSend lib id).unsent id c).Sublist (b.unsent id c) ∧
            (lib.OnlyBlocks id →
              sentTo id es ++ (b.handleSend lib id).unsent id c = b.unsent id c) := by
  have hheld (msgs : List Bytes) : (offer lib b.step id 0 msgs).held.length ≤ 1 := by
    rw [← heldBack_offer]
    exact length_heldBack _
  rcases hc with hc | hc
  · obtain ⟨hcalls, htrace, hent, hsends⟩ := handleSend_offer lib he hc hl
    have hoffer := offer_relays lib b.step id 0 (e.sendBacklog ++ (b.sends c).buffer)
    refine ⟨(congrArg Mpsc.closed hsends :), _, _, htrace, hent, hheld _, ?_⟩
    rw [sentTo_calls, hcalls, unsent_some hent, unsent_some he, hsends, hc, if_pos rfl, if_pos rfl]
    exact hoffer
  · obtain ⟨htrace, hent, hsends⟩ := handleSend_closed lib he hc hl
    have hoffer := offer_relays lib b.step id 0 e.sendBacklog
    refine ⟨congrArg (fun f => (f c).closed) hsends, _, _, htrace, hent, hheld _, ?_⟩
    rw [sentTo_calls, unsent_some hent, unsent_some he]
    rw [left_offer_short lib _ id 0 hl] at hoffer
    simpa [hc] using hoffer

theorem Relayed.sendOther {i : SocketId} (h : Relayed lib id c tr₀ accepted b) (hi : i ≠ id) :
    Relayed lib id c tr₀ accepted (b.handleSend lib i) := by
  have hno (e : SocketState) (he : b.entry i = some e) : e.sendRx ≠ some c :=
    fun hr => hi (h.owner i e he hr)
  obtain ⟨l, hl⟩ := entry_handleSend lib b i
  obtain ⟨es, ht, hes⟩ := trace_handleSend lib b i
  have hsends : (b.handleSend lib i).sends c = b.sends c := sends_handleSend hno
  have hent : (b.handleSend lib i).entry id = b.entry id := by rw [hl, if_neg (Ne.symm hi)]
  have hwait : (b.handleSend lib i).unsent id c = b.unsent id c := by
    unfold unsent
    rw [hent, hsends]
  have hnil : sentTo id es = [] := by
    refine sentTo_eq_nil fun x hx => ?_
    obtain ⟨data, ok, rfl⟩ := hes x hx
    cases ok <;> simp [IoEvent.sentTo, hi]
  obtain ⟨es₀, ht₀, hkept⟩ := h.kept
  refine ⟨fun i' e' hi' hr => ?_, by rw [hent]; exact h.own, by rw [hsends]; exact h.live, es₀ ++ es,
    by rw [ht, ht₀, List.append_assoc], ?_⟩
  · rw [hl] at hi'
    split_ifs at hi' with hii
    · obtain ⟨e, he, rfl⟩ := Option.map_eq_some_iff.mp hi'
      exact absurd hr (hno e he)
    · exact h.owner i' e' hi' hr
  · rw [sentTo_append, hnil, List.append_nil, hwait, hent]
    exact hkept

theorem Relayed.sendOwn (h : Relayed lib id c tr₀ accepted b) :
    Relayed lib id c tr₀ accepted (b.handleSend lib id) := by
  cases he : b.entry id with
  | none =>
    have hsame : b.handleSend lib id = b := by
      unfold handleSend
      rw [he]
    rw [hsame]
    exact h
  | some e =>
    obtain ⟨hc, hlen⟩ := h.own e he
    obtain ⟨hlive, es, l, ht, hent, hl, hsub, heq⟩ := handleSend_relays lib he hc hlen
    obtain ⟨l', hother⟩ := entry_handleSend lib b id
    obtain ⟨es₀, ht₀, hkept, hall⟩ := h.kept
    refine ⟨fun i' e' hi' hr => ?_, fun e' he' => ?_, hlive.trans h.live, es₀ ++ es,
      by rw [ht, ht₀, List.append_assoc], ?_, fun hblocks e' he' hr => ?_⟩
    · by_contra hne
      rw [hother, if_neg hne] at hi'
      exact hne (h.owner i' e' hi' hr)
    · obtain rfl := Option.some.inj (hent.symm.trans he')
      exact ⟨hc, hl⟩
    · rw [sentTo_append, List.append_assoc]
      exact (hsub.append_left _).trans hkept
    · obtain rfl := Option.some.inj (hent.symm.trans he')
      rw [sentTo_append, List.append_assoc, heq hblocks]
      exact hall hblocks e he hr

theorem Relayed.moved (h : Relayed lib id c tr₀ accepted b) (hs : Unrelated id c (.io s))
    (hm : Moved lib s b₀ b b') : Relayed lib id c tr₀ accepted b' := by
  rcases hm.sends with ⟨i, rfl⟩ | ⟨hsend, ⟨es, ht, hes⟩, hent⟩
  · by_cases hi : i = id
    · exact hi ▸ h.sendOwn
    · exact h.sendOther hi
  · obtain ⟨es₀, ht₀, hkept, hall⟩ := h.kept
    -- an entry that is kept keeps its backlog, and its channel or none
    have hown (e' : SocketState) (he' : b'.entry id = some e') : e'.sendRx = none ∧ e'.sendBacklog = [] ∨
        ∃ e, b.entry id = some e ∧ (e'.sendRx = e.sendRx ∨ e'.sendRx = none) ∧
          e'.sendBacklog = e.sendBacklog := by
      rcases hent id e' he' with ⟨r, d, t, rfl, -⟩ | hnone | hold
      · exact absurd rfl (hs id d rfl).1
      · exact .inl hnone
      · exact .inr hold
    have hwait : (b'.unsent id c).Sublist (b.unsent id c) := by
      cases he' : b'.entry id with
      | none =>
        rw [unsent_none he']
        exact List.nil_sublist _
      | some e' =>
        rw [unsent_some he']
        rcases hown e' he' with ⟨hr, hb⟩ | ⟨e, he, hr, hb⟩
        · simp [hr, hb]
        · rw [unsent_some he, hb, hsend]
          refine List.Sublist.append_left ?_ _
          rcases hr with hr | hr
          · rw [hr]
          · simp [hr]
    refine ⟨fun i e' hi hr => ?_, fun e' he' => ?_, (congrArg Mpsc.closed (congrFun hsend c)).trans h.live,
      es₀ ++ es, by rw [ht, ht₀, List.append_assoc], ?_, fun hblocks e' he' hr => ?_⟩
    · rcases hent i e' hi with ⟨r, d, t, rfl, hd⟩ | ⟨hn, -⟩ | ⟨e, he, hsame | hn, -⟩
      · exact absurd (Option.some.inj (hd.symm.trans hr)) (hs i d rfl).2
      · rw [hn] at hr
        cases hr
      · exact h.owner i e he (hsame ▸ hr)
      · rw [hn] at hr
        cases hr
    · rcases hown e' he' with ⟨hr, hb⟩ | ⟨e, he, hr, hb⟩
      · exact ⟨.inr hr, by simp [hb]⟩
      · obtain ⟨hc, hlen⟩ := h.own e he
        refine ⟨?_, by rw [hb]; exact hlen⟩
        rcases hr with hr | hr
        · exact hr ▸ hc
        · exact .inr hr
    · rw [sentTo_append, hes id, List.append_nil]
      exact (hwait.append_left _).trans hkept
    · rcases hown e' he' with ⟨hn, -⟩ | ⟨e, he, hsame | hn, hb⟩
      · rw [hn] at hr
        cases hr
      · have heq : b'.unsent id c = b.unsent id c := by
          rw [unsent_some he', unsent_some he, hb, hsame, hsend]
        rw [sentTo_append, hes id, List.append_nil, heq]
        exact hall hblocks e he (hsame ▸ hr)
      · rw [hn] at hr
        cases hr

theorem Relayed.sendData (h : Relayed lib id c tr₀ accepted b) (data : Bytes) :
    Relayed lib id c tr₀ (accepted ++ [data]) (b.act lib (.tokio (.sendData c data))) := by
  have hnew : (b.act lib (.tokio (.sendData c data))).sends c =
      { b.sends c with buffer := (b.sends c).buffer ++ [data] } := by
    refine (Function.update_self ..).trans ?_
    simp [Mpsc.send, h.live]
  obtain ⟨es, ht, hkept, hall⟩ := h.kept
  have hwait (e : SocketState) (he : b.entry id = some e) :
      (b.act lib (.tokio (.sendData c data))).unsent id c =
        b.unsent id c ++ if e.sendRx = some c then [data] else [] := by
    rw [unsent_some he, unsent_some (b := b.act lib (.tokio (.sendData c data))) he, hnew]
    split_ifs <;> simp
  refine ⟨h.owner, h.own, by rw [hnew]; exact h.live, es, ht, ?_, fun hblocks e he hr => ?_⟩
  · cases he : b.entry id with
    | none =>
      rw [unsent_none (b := b.act lib (.tokio (.sendData c data))) he]
      rw [unsent_none he] at hkept
      exact hkept.trans (List.sublist_append_left ..)
    | some e =>
      rw [hwait e he, ← List.append_assoc]
      refine hkept.append ?_
      split_ifs
      · exact List.Sublist.refl _
      · exact List.nil_sublist _
  · rw [hwait e he, if_pos hr, ← List.append_assoc, hall hblocks e he hr]

theorem Relayed.act {a : Action} (h : Relayed lib id c tr₀ accepted b) (ha : Unrelated id c a) :
    Relayed lib id c tr₀ (accepted ++ (a.accepted c).toList) (b.act lib a) := by
  have hnothing (hno : a.accepted c = none) (h' : Relayed lib id c tr₀ accepted (b.act lib a)) :
      Relayed lib id c tr₀ (accepted ++ (a.accepted c).toList) (b.act lib a) := by
    rw [hno, Option.toList_none, List.append_nil]
    exact h'
  cases a with
  | io s =>
    refine hnothing rfl ?_
    show Relayed lib id c tr₀ accepted (if b.running = true then _ else b)
    split_ifs
    · have hstep : Relayed lib id c tr₀ accepted (b.ioStep lib s) :=
        (ioStep_moves lib b s).keep (fun _ _ hm hb => hb.moved ha hm) h
      exact ⟨hstep.owner, hstep.own, hstep.live, hstep.kept⟩
    · exact h
  | tokio t =>
    cases t with
    | sendData c' data =>
      by_cases hc : c' = c
      · subst hc
        simpa [Action.accepted] using h.sendData data
      · have hsame : (b.act lib (.tokio (.sendData c' data))).sends c = b.sends c :=
          Function.update_of_ne (Ne.symm hc) _ _
        have hwait : (b.act lib (.tokio (.sendData c' data))).unsent id c = b.unsent id c := by
          unfold unsent
          rw [hsame]
          rfl
        refine hnothing (if_neg hc) ⟨h.owner, h.own, by rw [hsame]; exact h.live, ?_⟩
        rw [hwait]
        exact h.kept
    | _ => exact hnothing rfl ⟨h.owner, h.own, h.live, h.kept⟩
  | elapse => exact hnothing rfl ⟨h.owner, h.own, h.live, h.kept⟩

theorem Relayed.run {actions : List Action} (h : Relayed lib id c tr₀ accepted b)
    (ha : ∀ a ∈ actions, Unrelated id c a) :
    Relayed lib id c tr₀ (accepted ++ actions.filterMap (Action.accepted c)) (b.run lib actions) := by
  induction actions generalizing b accepted with
  | nil =>
    rw [List.filterMap_nil, List.append_nil]
    exact h
  | cons a actions ih =>
    have hlast := ih (h.act (ha a (by simp))) fun a' h' => ha a' (by simp [h'])
    have hsplit : accepted ++ (a :: actions).filterMap (Action.accepted c) =
        accepted ++ (a.accepted c).toList ++ actions.filterMap (Action.accepted c) := by
      cases hacc : a.accepted c <;> simp [hacc]
    rw [hsplit]
    exact hlast

/-- A handle's send channel is new when it is registered. -/
theorem Relayed.register (h : Unused id c b) (lib : Libsrt) (r t : ChannelId) (hr : b.running = true) :
    Relayed lib id c (b.act lib (.io (.command (.registerSocket id r c t)))).trace []
      (b.act lib (.io (.command (.registerSocket id r c t)))) := by
  obtain ⟨howner, hlive, es, ht, hkept⟩ := h.register lib r t
  obtain rfl : es = [] := by simpa using ht
  have hown (e : SocketState)
      (he : (b.act lib (.io (.command (.registerSocket id r c t)))).entry id = some e) :
      (e.sendRx = some c ∨ e.sendRx = none) ∧ e.sendBacklog = [] := by
    have hback : ((b.entry id).getD .fresh).sendBacklog = [] := by
      cases hent : b.entry id with
      | none => rfl
      | some e₀ => exact (h.fresh e₀ hent).2
    rw [entry_act hr] at he
    have hnew := ((entry_registerSocket lib b id r c t id).trans (if_pos rfl)).symm.trans he
    obtain rfl := Option.some.inj hnew
    split_ifs
    · exact ⟨.inl rfl, hback⟩
    · refine ⟨?_, by simpa using hback⟩
      unfold SocketState.updateStatus
      split_ifs <;> simp
  have hnone : (b.act lib (.io (.command (.registerSocket id r c t)))).unsent id c = [] := by
    cases he : (b.act lib (.io (.command (.registerSocket id r c t)))).entry id with
    | none => exact unsent_none he
    | some e =>
      rw [unsent_some he]
      obtain ⟨hc | hc, hb⟩ := hown e he
      · have hempty := hkept e he hc
        rw [hc, if_pos rfl]
        simpa [sentTo] using hempty
      · simp [hc, hb]
  refine ⟨howner, fun e he => ⟨(hown e he).1, by simp [(hown e he).2]⟩, hlive, [], ht, ?_,
    fun _ e he hc => ?_⟩
  · rw [hnone]
    exact List.Sublist.refl _
  · rw [hnone]
    rfl

end Relay

/-- A handle on a host: what happens there before the handle is registered, and what happens since. -/
structure Endpoint where
  lib : Libsrt
  id : SocketId
  recv : ChannelId
  send : ChannelId
  status : ChannelId
  pre : List Action
  post : List Action

namespace Endpoint

def before (h : Endpoint) : Bridge := start.run h.lib h.pre

def registered (h : Endpoint) : Bridge :=
  h.before.act h.lib (.io (.command (.registerSocket h.id h.recv h.send h.status)))

def after (h : Endpoint) : Bridge := h.registered.run h.lib h.post

/-- The messages that its `send` has accepted. -/
def accepted (h : Endpoint) : List Bytes := h.post.filterMap (Action.accepted h.send)

def sent (h : Endpoint) : List Bytes := sentTo h.id (h.after.trace.drop h.registered.trace.length)

def received (h : Endpoint) : List Bytes :=
  (receivedPackets h.lib h.recv h.registered h.post).map ReceivedPacket.data

def unread (h : Endpoint) : List Bytes := (h.after.packets h.recv).buffer.map ReceivedPacket.data

/-- The handle is the first of its socket, and its channels are its own. -/
structure Own (h : Endpoint) : Prop where
  running : h.before.running = true
  fresh : h.before.entry h.id = none
  unused : ∀ a ∈ h.pre, Unrelated h.id h.send a ∧ a.accepted h.send = none
  unrelated : ∀ a ∈ h.post, Unrelated h.id h.send a
  foreign : ∀ a ∈ h.pre ++ h.post, Foreign h.recv a
  once : StepsMeet h.lib (fun b s => makesEntry h.lib b.step h.id s = false) h.registered h.post

variable {h : Endpoint}

theorem Own.heard (ho : h.Own) : Heard h.id h.recv h.before.trace
    (receivedPackets h.lib h.recv h.registered h.post) h.after := by
  have hstart : Unheard h.recv start := ⟨fun _ => by simp [recvTx], rfl⟩
  have hbefore : Unheard h.recv h.before :=
    (hstart.run fun a ha => ho.foreign a (List.mem_append_left _ ha)).1
  have hreg : Heard h.id h.recv h.before.trace [] h.registered :=
    hbefore.register h.lib h.send h.status ho.fresh ho.running
  exact hreg.run (fun a ha => ho.foreign a (List.mem_append_right _ ha)) ho.once

end Endpoint

end Bridge

end SrtBridge
