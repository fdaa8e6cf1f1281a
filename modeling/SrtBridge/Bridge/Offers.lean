import SrtBridge.Bridge.Sends

/-! One entry's messages over any sequence of sends and of `handle_send` calls, whatever each call
of `srt_sendmsg2` comes to: they are offered in the order they were sent in, and one that would have
blocked is offered again before any other. -/

namespace SrtBridge

open General

inductive SendOutcome where
  | accepted | wouldBlock | failed
  deriving DecidableEq

structure SendCall where
  data : Bytes
  outcome : SendOutcome
  deriving DecidableEq

def Libsrt.sendOutcome (lib : Libsrt) (k j : ℕ) (id : SocketId) (data : Bytes) : SendOutcome :=
  if lib.sendmsg k j id data < 0 then if lib.lastSrtError k j = .asyncSend then .wouldBlock else .failed
  else .accepted

def SendCall.event (id : SocketId) (call : SendCall) : IoEvent :=
  .sent id call.data (call.outcome = .accepted)

def acceptedBy (calls : List SendCall) : List Bytes :=
  (calls.filter (·.outcome = .accepted)).map (·.data)

/-- The messages that are not offered again: those accepted, and those whose call failed. -/
def settled (calls : List SendCall) : List Bytes :=
  (calls.filter (·.outcome ≠ .wouldBlock)).map (·.data)

/-- The message of the last call, if that would have blocked. -/
def heldBack (calls : List SendCall) : List Bytes :=
  match calls.getLast? with
  | some ⟨data, .wouldBlock⟩ => [data]
  | _ => []

namespace Bridge

/-- The calls made so far account for every message: each is settled, held back or waits, in the
order they were sent in, and one that would have blocked is what the next call offers. -/
structure InOrder (sent : List Bytes) (calls : List SendCall) (backlog buffer : List Bytes) : Prop where
  accounted : sent = settled calls ++ (backlog ++ buffer)
  held : backlog = heldBack calls
  repeated : calls.IsChain fun call next => call.outcome = .wouldBlock → next.data = call.data

def Offered.calls (o : Offered) : List SendCall :=
  o.taken.map (⟨·, .accepted⟩) ++
    (o.refused.map fun r => ⟨r.1, if r.2 then .wouldBlock else .failed⟩).toList

def sendCalls (lib : Libsrt) (id : SocketId) (b : Bridge) : List SendCall :=
  match b.entry id with
  | none => []
  | some s =>
    let o := offer lib b.step id 0 s.sendBacklog
    if o.refused.isSome then o.calls
    else
      match s.sendRx with
      | none => o.calls
      | some c => o.calls ++ (offer lib b.step id s.sendBacklog.length (b.sends c).buffer).calls

section Offer

variable {lib : Libsrt} {k : ℕ} {id : SocketId}

theorem offer_cons (j : ℕ) (data : Bytes) (rest : List Bytes) : offer lib k id j (data :: rest) =
    match lib.sendOutcome k j id data with
    | .accepted => { offer lib k id (j + 1) rest with taken := data :: (offer lib k id (j + 1) rest).taken }
    | .wouldBlock => ⟨[], some (data, true), rest⟩
    | .failed => ⟨[], some (data, false), rest⟩ := by
  rw [offer, Libsrt.sendOutcome]
  split_ifs with h hb <;> simp [*]

/-- The first call is for the first message; the others follow if it is accepted. -/
theorem calls_offer_cons (j : ℕ) (data : Bytes) (rest : List Bytes) :
    (offer lib k id j (data :: rest)).calls = ⟨data, lib.sendOutcome k j id data⟩ ::
      if lib.sendOutcome k j id data = .accepted then (offer lib k id (j + 1) rest).calls else [] := by
  rw [offer_cons]
  cases lib.sendOutcome k j id data <;> rfl

theorem outcome_offer {j : ℕ} {msgs : List Bytes} {call : SendCall} (h : call ∈ (offer lib k id j msgs).calls) :
    ∃ i, call.outcome = lib.sendOutcome k i id call.data := by
  induction msgs generalizing j with
  | nil => cases h
  | cons data rest ih =>
    rw [calls_offer_cons, List.mem_cons] at h
    rcases h with rfl | h
    · exact ⟨j, rfl⟩
    · split_ifs at h
      · exact ih h
      · cases h

/-- The messages offered are settled, held back or left, in their order. -/
theorem settled_offer (j : ℕ) (msgs : List Bytes) :
    settled (offer lib k id j msgs).calls ++
      ((offer lib k id j msgs).held ++ (offer lib k id j msgs).left) = msgs := by
  induction msgs generalizing j with
  | nil => rfl
  | cons data rest ih =>
    rw [offer_cons]
    cases lib.sendOutcome k j id data with
    | accepted => exact congrArg (data :: ·) (ih (j + 1))
    | wouldBlock => rfl
    | failed => rfl

theorem heldBack_append {calls calls' : List SendCall} (h : calls' ≠ []) :
    heldBack (calls ++ calls') = heldBack calls' := by
  rw [heldBack, heldBack, List.getLast?_append_of_ne_nil _ h]

theorem calls_offer_ne_nil {j : ℕ} {msgs : List Bytes} (h : msgs ≠ []) : (offer lib k id j msgs).calls ≠ [] := by
  obtain ⟨data, rest, rfl⟩ := List.exists_cons_of_ne_nil h
  rw [calls_offer_cons]
  exact List.cons_ne_nil _ _

theorem heldBack_offer (j : ℕ) (msgs : List Bytes) :
    heldBack (offer lib k id j msgs).calls = (offer lib k id j msgs).held := by
  induction msgs generalizing j with
  | nil => rfl
  | cons data rest ih =>
    rw [calls_offer_cons, offer_cons]
    cases ho : lib.sendOutcome k j id data with
    | accepted =>
      rw [if_pos rfl]
      show heldBack ([_] ++ _) = (offer lib k id (j + 1) rest).held
      rw [← ih (j + 1)]
      by_cases hr : rest = []
      · rw [hr]
        rfl
      · exact heldBack_append (calls_offer_ne_nil hr)
    | wouldBlock => rfl
    | failed => rfl

theorem repeated_offer (j : ℕ) (msgs : List Bytes) :
    (offer lib k id j msgs).calls.IsChain fun call next => call.outcome = .wouldBlock → next.data = call.data := by
  induction msgs generalizing j with
  | nil => exact .nil
  | cons data rest ih =>
    rw [calls_offer_cons]
    split_ifs with ho
    · exact (ih (j + 1)).cons fun _ _ hw => by simp [ho] at hw
    · exact .singleton _

/-- Offering the held message and those that wait keeps the account. -/
theorem InOrder.offer {sent : List Bytes} {calls : List SendCall} {backlog buffer : List Bytes}
    (h : InOrder sent calls backlog buffer) (j : ℕ) :
    InOrder sent (calls ++ (offer lib k id j (backlog ++ buffer)).calls)
      (offer lib k id j (backlog ++ buffer)).held (offer lib k id j (backlog ++ buffer)).left where
  accounted := by
    rw [settled, List.filter_append, List.map_append, List.append_assoc]
    show sent = settled calls ++ (settled _ ++ _)
    rw [settled_offer]
    exact h.accounted
  held := by
    by_cases hm : backlog ++ buffer = []
    · have hb : heldBack calls = [] := h.held ▸ (List.append_eq_nil_iff.mp hm).1
      rw [hm]
      exact hb.symm.trans (congrArg heldBack (List.append_nil calls).symm)
    · rw [heldBack_append (calls_offer_ne_nil hm), heldBack_offer]
  repeated := by
    refine List.isChain_append.mpr ⟨h.repeated, repeated_offer .., fun call hcall next hnext hw => ?_⟩
    -- the message held back is the first to be offered again
    have hback : backlog = [call.data] := by
      rw [h.held, heldBack, Option.mem_def.mp hcall]
      obtain ⟨data, outcome⟩ := call
      obtain rfl : outcome = .wouldBlock := hw
      rfl
    rw [hback, List.singleton_append, calls_offer_cons, List.head?_cons, Option.mem_some_iff] at hnext
    rw [← hnext]

end Offer

section Turn

variable {lib : Libsrt} {b : Bridge} {id : SocketId} {e : SocketState} {c : ChannelId}

/-- What is refused of some messages is refused of more, and the rest is left. -/
theorem offer_append_refused {k j : ℕ} {msgs : List Bytes} (h : (offer lib k id j msgs).refused.isSome)
    (more : List Bytes) : offer lib k id j (msgs ++ more) =
      { offer lib k id j msgs with left := (offer lib k id j msgs).left ++ more } := by
  induction msgs generalizing j with
  | nil => cases h
  | cons data rest ih =>
    rw [List.cons_append, offer_cons, offer_cons]
    rw [offer_cons] at h
    cases ho : lib.sendOutcome k j id data with
    | accepted =>
      simp only [ho] at h ⊢
      rw [ih h]
    | wouldBlock => rfl
    | failed => rfl

theorem left_offer_lt {k j : ℕ} {msgs : List Bytes} (h : (offer lib k id j msgs).refused.isSome) :
    (offer lib k id j msgs).left.length < msgs.length := by
  induction msgs generalizing j with
  | nil => cases h
  | cons data rest ih =>
    rw [offer_cons, List.length_cons]
    rw [offer_cons] at h
    cases ho : lib.sendOutcome k j id data with
    | accepted =>
      simp only [ho] at h ⊢
      exact (ih h).trans (Nat.lt_succ_self _)
    | wouldBlock => exact Nat.lt_succ_self _
    | failed => exact Nat.lt_succ_self _

theorem offer_append_taken {k j : ℕ} {msgs : List Bytes} (h : (offer lib k id j msgs).refused = none)
    (more : List Bytes) : offer lib k id j (msgs ++ more) =
      { offer lib k id (j + msgs.length) more with
        taken := msgs ++ (offer lib k id (j + msgs.length) more).taken } := by
  induction msgs generalizing j with
  | nil => rfl
  | cons data rest ih =>
    rw [List.cons_append, offer_cons]
    rw [offer_cons] at h
    cases ho : lib.sendOutcome k j id data with
    | accepted =>
      simp only [ho] at h ⊢
      have hlen : j + (rest.length + 1) = j + 1 + rest.length := by omega
      rw [ih h, List.length_cons, hlen]
      rfl
    | wouldBlock => simp [ho] at h
    | failed => simp [ho] at h

theorem events_calls (o : Offered) (id : SocketId) : o.events id = o.calls.map (SendCall.event id) := by
  obtain ⟨taken, refused, left⟩ := o
  cases refused with
  | none => simp [Offered.events, Offered.calls, SendCall.event]
  | some r =>
    obtain ⟨data, blocks⟩ := r
    cases blocks <;> simp [Offered.events, Offered.calls, SendCall.event]

theorem calls_taken {o : Offered} (h : o.refused = none) : o.calls = o.taken.map (⟨·, .accepted⟩) := by
  rw [Offered.calls, h]
  exact List.append_nil _

theorem handleSend_refused (he : b.entry id = some e) (hr : (offer lib b.step id 0 e.sendBacklog).refused.isSome) :
    b.sendCalls lib id = (offer lib b.step id 0 e.sendBacklog).calls ∧
      b.handleSend lib id = (b.emits ((offer lib b.step id 0 e.sendBacklog).events id)).setEntry id
        { e with sendBacklog := (offer lib b.step id 0 e.sendBacklog).held ++
          (offer lib b.step id 0 e.sendBacklog).left } := by
  unfold sendCalls handleSend
  rw [he]
  exact ⟨if_pos hr, if_pos hr⟩

theorem handleSend_taken (he : b.entry id = some e) (hc : e.sendRx = some c)
    (hr : (offer lib b.step id 0 e.sendBacklog).refused = none) :
    b.sendCalls lib id = (offer lib b.step id 0 e.sendBacklog).calls ++
        (offer lib b.step id e.sendBacklog.length (b.sends c).buffer).calls ∧
      b.handleSend lib id =
        { ((b.emits ((offer lib b.step id 0 e.sendBacklog).events id)).emits
            ((offer lib b.step id e.sendBacklog.length (b.sends c).buffer).events id)).setEntry id
              { e with sendBacklog := (offer lib b.step id e.sendBacklog.length (b.sends c).buffer).held } with
          sends := Function.update b.sends c
            { b.sends c with buffer := (offer lib b.step id e.sendBacklog.length (b.sends c).buffer).left } } := by
  have hn : ¬(offer lib b.step id 0 e.sendBacklog).refused.isSome := by simp [hr]
  unfold sendCalls handleSend
  rw [he]
  dsimp only
  rw [if_neg hn, if_neg hn, hc]
  exact ⟨rfl, rfl⟩

/-- `handle_send` offers the held message and then those that wait. -/
theorem handleSend_offer (lib : Libsrt) (he : b.entry id = some e) (hc : e.sendRx = some c)
    (hl : e.sendBacklog.length ≤ 1) :
    b.sendCalls lib id = (offer lib b.step id 0 (e.sendBacklog ++ (b.sends c).buffer)).calls ∧
      (b.handleSend lib id).trace = b.trace ++ (b.sendCalls lib id).map (SendCall.event id) ∧
        (b.handleSend lib id).entry id =
          some { e with sendBacklog := (offer lib b.step id 0 (e.sendBacklog ++ (b.sends c).buffer)).held } ∧
          (b.handleSend lib id).sends c =
            { b.sends c with buffer := (offer lib b.step id 0 (e.sendBacklog ++ (b.sends c).buffer)).left } := by
  cases hr : (offer lib b.step id 0 e.sendBacklog).refused with
  | some r =>
    have hsome : (offer lib b.step id 0 e.sendBacklog).refused.isSome := by rw [hr]; rfl
    have hleft : (offer lib b.step id 0 e.sendBacklog).left = [] := by
      have hlt := left_offer_lt hsome
      exact List.length_eq_zero_iff.mp (by omega)
    obtain ⟨hcalls, hsend⟩ := handleSend_refused he hsome
    rw [hcalls, hsend, offer_append_refused hsome, hleft]
    refine ⟨rfl, congrArg (b.trace ++ ·) (events_calls ..), ?_, rfl⟩
    rw [entry_setEntry, if_pos rfl, List.append_nil]
    rfl
  | none =>
    obtain ⟨hcalls, hsend⟩ := handleSend_taken he hc hr
    rw [hsend, hcalls, offer_append_taken hr, Nat.zero_add]
    refine ⟨?_, ?_, (entry_setEntry ..).trans (if_pos rfl), Function.update_self ..⟩
    · have htaken : (offer lib b.step id 0 e.sendBacklog).taken = e.sendBacklog := by
        have hall := congrArg Offered.taken (offer_append_taken hr [])
        simpa [offer] using hall
      rw [calls_taken hr, htaken, Offered.calls, Offered.calls, List.map_append, List.append_assoc]
    · rw [List.map_append, ← events_calls, ← events_calls, ← List.append_assoc]
      rfl

end Turn

inductive SendMove where
  | send (data : Bytes)
  | handleSend

def SendMove.message : SendMove → Option Bytes
  | .send data => some data
  | .handleSend => none

/-- The bridge, and the calls of `srt_sendmsg2` made so far. -/
structure Sending where
  bridge : Bridge
  calls : List SendCall

def Sending.move (lib : Libsrt) (id : SocketId) (c : ChannelId) (s : Sending) : SendMove → Sending
  | .send data => { s with bridge := s.bridge.tokioStep (.sendData c data) }
  | .handleSend =>
    ⟨{ s.bridge.handleSend lib id with step := s.bridge.step + 1 }, s.calls ++ s.bridge.sendCalls lib id⟩

def Sending.run (lib : Libsrt) (id : SocketId) (c : ChannelId) (s : Sending) (moves : List SendMove) : Sending :=
  moves.foldl (Sending.move lib id c) s

section Moves

variable {lib : Libsrt} {id : SocketId} {c : ChannelId} {tr₀ : List IoEvent} {sent : List Bytes} {s : Sending}

/-- The entry still has its open send channel, the calls made account for the messages and are on
record, and each ended as libsrt had it end. -/
structure Sending.Ordered (lib : Libsrt) (id : SocketId) (c : ChannelId) (tr₀ : List IoEvent)
    (sent : List Bytes) (s : Sending) : Prop where
  live : (s.bridge.sends c).closed = false
  trace : s.bridge.trace = tr₀ ++ s.calls.map (SendCall.event id)
  outcomes : ∀ call ∈ s.calls, ∃ k j, call.outcome = lib.sendOutcome k j id call.data
  inOrder : ∃ e, s.bridge.entry id = some e ∧ e.sendRx = some c ∧
    InOrder sent s.calls e.sendBacklog (s.bridge.sends c).buffer

theorem length_heldBack (calls : List SendCall) : (heldBack calls).length ≤ 1 := by
  unfold heldBack
  split
  · exact le_rfl
  · exact Nat.zero_le 1

theorem Sending.Ordered.send (h : s.Ordered lib id c tr₀ sent) (data : Bytes) :
    (s.move lib id c (.send data)).Ordered lib id c tr₀ (sent ++ [data]) := by
  obtain ⟨e, he, hc, hin⟩ := h.inOrder
  have hnew : (s.move lib id c (.send data)).bridge.sends c =
      { s.bridge.sends c with buffer := (s.bridge.sends c).buffer ++ [data] } := by
    refine (Function.update_self ..).trans ?_
    simp [Mpsc.send, h.live]
  refine ⟨by rw [hnew]; exact h.live, h.trace, h.outcomes, e, he, hc, ?_, hin.held, hin.repeated⟩
  rw [hnew, hin.accounted]
  simp only [List.append_assoc]
  rfl

theorem Sending.Ordered.handleSend (h : s.Ordered lib id c tr₀ sent) :
    (s.move lib id c .handleSend).Ordered lib id c tr₀ sent := by
  obtain ⟨e, he, hc, hin⟩ := h.inOrder
  have hlen : e.sendBacklog.length ≤ 1 := hin.held ▸ length_heldBack _
  obtain ⟨hcalls, htrace, hent, hsends⟩ := handleSend_offer lib he hc hlen
  constructor
  · exact (congrArg Mpsc.closed hsends).trans h.live
  · show (s.bridge.handleSend lib id).trace = _ ++ (s.calls ++ s.bridge.sendCalls lib id).map _
    rw [htrace, h.trace, List.map_append, List.append_assoc]
  · intro call hcall
    rcases List.mem_append.mp hcall with hold | hnew
    · exact h.outcomes call hold
    · rw [hcalls] at hnew
      obtain ⟨j, hj⟩ := outcome_offer hnew
      exact ⟨_, j, hj⟩
  · refine ⟨_, hent, hc, ?_⟩
    show InOrder sent (s.calls ++ s.bridge.sendCalls lib id) _ ((s.bridge.handleSend lib id).sends c).buffer
    rw [hcalls, hsends]
    exact hin.offer 0

theorem Sending.Ordered.run (h : s.Ordered lib id c tr₀ sent) (moves : List SendMove) :
    (s.run lib id c moves).Ordered lib id c tr₀ (sent ++ moves.filterMap SendMove.message) := by
  induction moves generalizing s sent with
  | nil =>
    rw [List.filterMap_nil, List.append_nil]
    exact h
  | cons m moves ih =>
    cases m with
    | send data =>
      have hrun := ih (h.send data)
      rw [List.append_assoc] at hrun
      exact hrun
    | handleSend => exact ih h.handleSend

end Moves

theorem sentTo_calls (id : SocketId) (calls : List SendCall) :
    sentTo id (calls.map (SendCall.event id)) = acceptedBy calls := by
  induction calls with
  | nil => rfl
  | cons call calls ih =>
    obtain ⟨data, outcome⟩ := call
    cases outcome with
    | accepted =>
      have hcons : sentTo id ((SendCall.mk data .accepted :: calls).map (SendCall.event id)) =
          data :: sentTo id (calls.map (SendCall.event id)) := by
        simp [sentTo, SendCall.event, IoEvent.sentTo]
      rw [hcons, ih]
      rfl
    | wouldBlock => exact ih
    | failed => exact ih

theorem acceptedBy_sublist (calls : List SendCall) : List.Sublist (acceptedBy calls) (settled calls) := by
  refine List.Sublist.map _ (List.monotone_filter_right _ fun call hcall => ?_)
  simp only [decide_eq_true_eq] at hcall ⊢
  simp [hcall]

/-- Over every sequence of sends and `handle_send` calls on an entry, however each call of
`srt_sendmsg2` ends: what libsrt accepted is a subsequence of what was sent, and what it lacks are
the messages whose call failed and those still held or waiting; at most one is held, the one of
the last call if that would have blocked. -/
theorem sends_in_order (lib : Libsrt) (id : SocketId) (c : ChannelId) (b : Bridge) (e : SocketState)
    (moves : List SendMove) (he : b.entry id = some e) (hc : e.sendRx = some c) (hb : e.sendBacklog = [])
    (hs : b.sends c = .empty) :
    let s := Sending.run lib id c ⟨b, []⟩ moves
    let sent := moves.filterMap SendMove.message
    ∃ e', s.bridge.entry id = some e' ∧ e'.sendBacklog.length ≤ 1 ∧
      InOrder sent s.calls e'.sendBacklog (s.bridge.sends c).buffer ∧
        sentTo id (s.bridge.trace.drop b.trace.length) = acceptedBy s.calls ∧
          List.Sublist (acceptedBy s.calls) sent ∧
            ∀ call ∈ s.calls, ∃ k j, call.outcome = lib.sendOutcome k j id call.data := by
  intro s sent
  have hstart : Sending.Ordered lib id c b.trace [] ⟨b, []⟩ := by
    refine ⟨by rw [hs]; rfl, (List.append_nil _).symm, by simp, e, he, hc, ?_, hb, .nil⟩
    rw [hb, hs]
    rfl
  have h : s.Ordered lib id c b.trace ([] ++ sent) := hstart.run moves
  obtain ⟨e', he', -, hin⟩ := h.inOrder
  rw [List.nil_append] at hin
  refine ⟨e', he', hin.held ▸ length_heldBack _, hin, ?_, ?_, h.outcomes⟩
  · rw [h.trace, List.drop_left, sentTo_calls]
  · rw [hin.accounted]
    exact (acceptedBy_sublist _).trans (List.sublist_append_left ..)

/-- The second message would have blocked once, and the call for the third fails. -/
theorem sends_in_order_blocked :
    let lib : Libsrt := { Libsrt.connected with
      sendmsg := fun _ j _ _ => if j = 1 then -1 else 0
      getlasterror := fun k _ => if k = 1 then 6001 else 2001 }
    let b := start.run lib [.io (.command (.registerSocket 7 1 2 3))]
    let moves : List SendMove := [.send [1], .send [2], .send [3], .handleSend, .handleSend, .send [4]]
    let s := Sending.run lib 7 2 ⟨b, []⟩ moves
    s.calls = [⟨[1], .accepted⟩, ⟨[2], .wouldBlock⟩, ⟨[2], .accepted⟩, ⟨[3], .failed⟩] ∧
      ∃ e', s.bridge.entry 7 = some e' ∧ e'.sendBacklog.length ≤ 1 ∧
        InOrder [[1], [2], [3], [4]] s.calls e'.sendBacklog (s.bridge.sends 2).buffer ∧
          sentTo 7 (s.bridge.trace.drop b.trace.length) = acceptedBy s.calls ∧
            List.Sublist (acceptedBy s.calls) [[1], [2], [3], [4]] ∧
              ∀ call ∈ s.calls, ∃ k j, call.outcome = lib.sendOutcome k j 7 call.data :=
  ⟨by decide, sends_in_order _ 7 2 _ _ _ rfl rfl rfl rfl⟩

end Bridge

end SrtBridge
