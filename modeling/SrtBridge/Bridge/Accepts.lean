import SrtBridge.Bridge.Runs

/-! What one step of the I/O thread does to a listener's accept channel: only an event of the
listener accepts a connection, and the connection goes into the channel or is closed at once. -/

namespace SrtBridge

open General

/-- The socket `srt_accept` returned for the listener `l` with the event. -/
def IoEvent.acceptedBy (l : SocketId) : IoEvent → Option SocketId
  | .accepted listener id => if listener = l then some id else none
  | _ => none

def acceptedIds (l : SocketId) (es : List IoEvent) : List SocketId := es.filterMap (IoEvent.acceptedBy l)

def IoEvent.closes (id : SocketId) : IoEvent → Bool
  | .closed i => i = id
  | _ => false

theorem IoEvent.eq_of_closes {x : IoEvent} {id : SocketId} (h : x.closes id = true) :
    x = .closed id := by
  cases x with
  | closed i => simpa [IoEvent.closes] using h
  | _ => cases h

section Accepted

variable {l : SocketId} {es es' : List IoEvent}

@[simp] theorem acceptedIds_nil : acceptedIds l [] = [] := rfl

@[simp] theorem acceptedIds_append :
    acceptedIds l (es ++ es') = acceptedIds l es ++ acceptedIds l es' :=
  List.filterMap_append

theorem acceptedIds_eq_nil (h : ∀ x ∈ es, x.acceptedBy l = none) : acceptedIds l es = [] :=
  List.filterMap_eq_nil_iff.mpr h

/-- Neither a note of a call, nor an answer, nor a change of an entry accepts. -/
theorem IoEvent.acceptedBy_none {x : IoEvent}
    (h : (x.isPlain = true ∨ x.isReply = true) ∨ x.isNote = false) : x.acceptedBy l = none := by
  cases x with
  | accepted => simp [IoEvent.isPlain, IoEvent.isReply, IoEvent.isNote] at h
  | _ => rfl

end Accepted

namespace Bridge

section Quiet

/-- Between the two states nothing is accepted, and the accept channels stay as they are. -/
structure Quiet (b b' : Bridge) : Prop where
  accepts : b'.accepts = b.accepts
  trace : ∃ es, b'.trace = b.trace ++ es ∧ ∀ l, acceptedIds l es = []

variable {lib : Libsrt} {s : IoStep} {b b' b'' b₀ : Bridge} {id : SocketId}

theorem Quiet.refl (b : Bridge) : Quiet b b := ⟨rfl, [], (List.append_nil _).symm, fun _ => rfl⟩

theorem Quiet.trans (h : Quiet b b') (h' : Quiet b' b'') : Quiet b b'' := by
  obtain ⟨es, ht, hes⟩ := h.trace
  obtain ⟨es', ht', hes'⟩ := h'.trace
  refine ⟨h'.accepts.trans h.accepts, es ++ es', by rw [ht', ht, List.append_assoc], fun l => ?_⟩
  rw [acceptedIds_append, hes, hes', List.append_nil]

theorem Quiet.record (q : SocketStatus) : Quiet b (b.record id q) := by
  unfold Bridge.record
  split
  · exact ⟨rfl, [_], rfl, fun _ => rfl⟩
  · exact .refl b

theorem Moved.quiet (hm : Moved lib s b₀ b b') (hs : ∀ i flags, s ≠ .event i flags) : Quiet b b' := by
  cases hm with
  | note hes _ ht hc =>
    refine ⟨congrArg Prod.fst hc, _, ht, fun l => acceptedIds_eq_nil fun x hx => ?_⟩
    exact x.acceptedBy_none (.inl (.inl (hes x hx)))
  | answer _ _ hx => exact ⟨rfl, [_], rfl, fun l => by rcases hx with rfl | ⟨a, rfl⟩ <;> rfl⟩
  | arm | subscribe | listening => exact ⟨rfl, [_], rfl, fun _ => rfl⟩
  | change hch _ ht hc =>
    refine ⟨congrArg Prod.fst hc, _, ht, fun l => acceptedIds_eq_nil fun x hx => ?_⟩
    exact x.acceptedBy_none ((hch.events x hx).imp_right And.left)
  | take =>
    refine ⟨?_, [_], trace_deliver _, fun _ => rfl⟩
    obtain ⟨p, h⟩ := deliver_frame b _ _
    rw [h]
    rfl
  | send =>
    rename_i i _
    obtain ⟨es, ht, hes⟩ := trace_handleSend lib b i
    refine ⟨?_, es, ht, fun l => acceptedIds_eq_nil fun x hx => ?_⟩
    · obtain ⟨m, q, tr, h⟩ := handleSend_frame lib b i
      rw [h]
    · obtain ⟨data, ok, rfl⟩ := hes x hx
      rfl
  | accepted hs' | handOver hs' => exact absurd hs' (hs _ _)

theorem Moves.quiet (h : Moves lib s b₀ b b') (hs : ∀ i flags, s ≠ .event i flags) : Quiet b b' :=
  h.keep (fun _ _ hm hb => hb.trans (hm.quiet hs)) (.refl b)

theorem processEvent_quiet (lib : Libsrt) {flags : EpollFlags}
    (h : ¬((b.entry id).any SocketState.isListener = true ∧ flags.inp = true)) :
    Quiet b (b.processEvent lib id flags) := by
  have hcomplete (b : Bridge) : Quiet b (b.connectCompletion lib id) := by
    unfold connectCompletion
    cases hr : b.connectReply id with
    | none => exact .refl b
    | some reply =>
      dsimp only
      have hmod : Quiet b (b.modify id fun s => { s with connectReply := none }) := by
        unfold modify
        split
        · exact ⟨rfl, [], (List.append_nil _).symm, fun _ => rfl⟩
        · exact .refl b
      have hanswer (c : Bridge) (r : Reply) : Quiet c (c.answer reply r) :=
        ⟨rfl, [_], rfl, fun _ => rfl⟩
      split_ifs
      · exact (hmod.trans (hanswer _ _)).trans (.record _)
      · exact (hmod.trans (hanswer _ _)).trans (.record _)
  have hrecv (b : Bridge) : Quiet b (b.handleRecv lib 1 id) :=
    have hmoves : Moves lib (.sweep id) b b (b.handleRecv lib 1 id) := handleRecv_moves (.inr rfl) 1
    hmoves.quiet (by simp)
  have hsend (b : Bridge) : Quiet b (b.handleSend lib id) :=
    have hmoved : Moved lib (.drain id) b b (b.handleSend lib id) := .send (.inr rfl)
    hmoved.quiet (by simp)
  have herr (b : Bridge) : Quiet b (b.errorEvent lib id) := by
    unfold errorEvent
    split
    · split_ifs
      · exact .refl b
      · exact .record _
    · exact .refl b
  have hif (c : Bool) (f : Bridge → Bridge) (hf : ∀ b, Quiet b (f b)) (b : Bridge) :
      Quiet b (if c = true then f b else b) := by
    split_ifs
    · exact hf b
    · exact .refl b
  unfold processEvent
  rw [if_neg h]
  have h₁ := hif flags.connect _ hcomplete b
  have h₂ := h₁.trans (hif flags.inp _ hrecv _)
  have h₃ := h₂.trans (hif flags.out _ hsend _)
  exact h₃.trans (hif flags.err _ herr _)

end Quiet

section Offers

variable {lib : Libsrt} {s : IoStep} {b b' b₀ : Bridge} {l : SocketId} {c : ChannelId}

/-- What becomes of the accept channel `c` of the listener `l` with some events: nothing, or a
connection goes into it, or is closed as it cannot. -/
inductive Offers (l : SocketId) (c : ChannelId) (chan chan' : Mpsc SocketId) (es : List IoEvent) : Prop
  | none (hes : acceptedIds l es = []) (hc : chan' = chan)
  | handed {id} (hes : acceptedIds l es = [id]) (hopen : chan.closed = false)
      (hc : chan' = { chan with buffer := chan.buffer ++ [id] }) (hcl : ∀ x ∈ es, x.closes id = false)
  | refused {id} (hes : acceptedIds l es = [id]) (hc : chan' = chan) (hcl : .closed id ∈ es)

/-- The receive end of the channel `c` is left alone. -/
def LeavesAccepts (c : ChannelId) : Action → Prop
  | .tokio (.recvAccepted c') | .tokio (.closeAccepts c') => c' ≠ c
  | _ => True

theorem Quiet.offers (h : Quiet b b') :
    ∃ es, b'.trace = b.trace ++ es ∧ Offers l c (b.accepts c) (b'.accepts c) es := by
  obtain ⟨es, ht, hes⟩ := h.trace
  exact ⟨es, ht, .none (hes l) (congrFun h.accepts c)⟩

/-- The channel is the listener's and nobody else's. -/
structure OwnsAccepts (l : SocketId) (c : ChannelId) (b : Bridge) : Prop where
  owner : ∀ i, (b.entry i).bind SocketState.acceptTx = some c → i = l
  only : ∀ c', (b.entry l).bind SocketState.acceptTx = some c' → c' = c

theorem handleAccept_offers (lib : Libsrt) (h : OwnsAccepts l c b) (listener : SocketId) :
    ∃ es, (b.handleAccept lib listener).trace = b.trace ++ es ∧
      Offers l c (b.accepts c) ((b.handleAccept lib listener).accepts c) es := by
  unfold handleAccept
  dsimp only
  split_ifs with hneg
  · exact (Quiet.refl b).offers
  · set conn := lib.accept b.step listener
    have hent : ((b.emit (.accepted listener conn)).entry listener).bind SocketState.acceptTx =
        (b.entry listener).bind SocketState.acceptTx := rfl
    have hrefused : ∃ es, ((b.emit (.accepted listener conn)).emit (.closed conn)).trace = b.trace ++ es ∧
        Offers l c (b.accepts c) (((b.emit (.accepted listener conn)).emit (.closed conn)).accepts c) es := by
      refine ⟨[.accepted listener conn, .closed conn], by simp, ?_⟩
      by_cases hl : listener = l
      · have hes : acceptedIds l [.accepted listener conn, .closed conn] = [conn] := by
          simp [acceptedIds, IoEvent.acceptedBy, hl]
        exact .refused hes rfl (by simp)
      · exact .none (by simp [acceptedIds, IoEvent.acceptedBy, hl]) rfl
    rw [hent]
    cases hc : (b.entry listener).bind SocketState.acceptTx with
    | none => exact hrefused
    | some c' =>
      have haccepts : (b.emit (.accepted listener conn)).accepts = b.accepts := rfl
      cases ht : (b.accepts c').trySend acceptCapacity conn with
      | none =>
        simp only [Option.bind_eq_bind, Option.bind_some, haccepts, ht, Option.map_none]
        exact hrefused
      | some chan =>
        simp only [Option.bind_eq_bind, Option.bind_some, haccepts, ht, Option.map_some]
        obtain ⟨hopen, hchan⟩ := Mpsc.trySend_some ht
        set opts := (setOpts lib b.step conn nonBlocking).map fun o => IoEvent.optionSet conn o.1 o.2
        have hopts (x : IoEvent) (hx : x ∈ opts ++ [IoEvent.subscribed conn]) :
            x.acceptedBy l = none ∧ x.closes conn = false := by
          rcases List.mem_append.mp hx with hx | hx
          · obtain ⟨o, -, rfl⟩ := List.mem_map.mp hx
            exact ⟨rfl, rfl⟩
          · rw [List.mem_singleton.mp hx]
            exact ⟨rfl, rfl⟩
        have hnone : acceptedIds l (opts ++ [IoEvent.subscribed conn]) = [] :=
          acceptedIds_eq_nil fun x hx => (hopts x hx).1
        refine ⟨[IoEvent.accepted listener conn] ++ (opts ++ [IoEvent.subscribed conn]), ?_, ?_⟩
        · show b.trace ++ [IoEvent.accepted listener conn] ++ opts ++ [IoEvent.subscribed conn] = _
          simp
        · show Offers l c (b.accepts c) (Function.update b.accepts c' chan c) _
          by_cases hl : listener = l
          · subst hl
            obtain rfl := h.only c' hc
            rw [Function.update_self]
            have hes : acceptedIds listener
                ([IoEvent.accepted listener conn] ++ (opts ++ [IoEvent.subscribed conn])) = [conn] := by
              rw [acceptedIds_append, hnone]
              simp [acceptedIds, IoEvent.acceptedBy]
            refine .handed hes hopen hchan fun x hx => ?_
            · rcases List.mem_append.mp hx with hx | hx
              · rw [List.mem_singleton.mp hx]
                rfl
              · exact (hopts x hx).2
          · have hne : c ≠ c' := fun hcc => hl (h.owner listener (hcc ▸ hc))
            rw [Function.update_of_ne hne]
            refine .none ?_ rfl
            rw [acceptedIds_append, hnone]
            simp [acceptedIds, IoEvent.acceptedBy, hl]

/-- What an action does to the accept channel of a listener. -/
theorem act_offers (lib : Libsrt) (h : OwnsAccepts l c b) {a : Action} (ha : LeavesAccepts c a) :
    ∃ es, (b.act lib a).trace = b.trace ++ es ∧
      Offers l c (b.accepts c) ((b.act lib a).accepts c) es := by
  have hsame (c' : ChannelId) (chan : Mpsc SocketId) (hne : c' ≠ c) :
      Offers l c (b.accepts c) (Function.update b.accepts c' chan c) [] :=
    .none rfl (Function.update_of_ne hne.symm ..)
  cases a with
  | io s =>
    have hstep : ∃ es, (b.ioStep lib s).trace = b.trace ++ es ∧
        Offers l c (b.accepts c) ((b.ioStep lib s).accepts c) es := by
      cases s with
      | event i flags =>
        by_cases hlis : (b.entry i).any SocketState.isListener = true ∧ flags.inp = true
        · have hacc : b.ioStep lib (.event i flags) = b.handleAccept lib i := if_pos hlis
          rw [hacc]
          exact handleAccept_offers lib h i
        · exact (processEvent_quiet lib hlis).offers
      | _ => exact ((ioStep_moves lib b _).quiet (by simp)).offers
    show ∃ es, (if b.running = true then _ else b).trace = b.trace ++ es ∧
      Offers l c (b.accepts c) ((if b.running = true then _ else b).accepts c) es
    split_ifs
    · exact hstep
    · exact (Quiet.refl b).offers
  | tokio t =>
    cases t with
    | recvAccepted c' => exact ⟨[], (List.append_nil _).symm, hsame c' _ ha⟩
    | closeAccepts c' => exact ⟨[], (List.append_nil _).symm, hsame c' _ ha⟩
    | _ => exact ⟨[], (List.append_nil _).symm, .none rfl rfl⟩
  | elapse => exact ⟨[], (List.append_nil _).symm, .none rfl rfl⟩

/-- A change gives an entry an accept channel only when a listener is registered. -/
theorem Change.acceptTx {n : ℕ} {e₀ e new : Option SocketState} {i : SocketId} {es : List IoEvent}
    (h : Change lib s n e₀ i e new es) (hc : new.bind SocketState.acceptTx = some c) :
    e.bind SocketState.acceptTx = some c ∨ ∃ a, s = .command (.registerListener i c a) := by
  cases h with
  | enter he => cases he <;> cases hc
  | provide hs =>
    obtain rfl := Option.some.inj hc
    exact .inr ⟨_, hs⟩
  | register | fail | watch => exact .inl hc
  | record | listen | await | complete =>
    left
    simpa using hc
  | close => cases hc

theorem Moved.acceptTx (hm : Moved lib s b₀ b b') {i : SocketId}
    (hc : (b'.entry i).bind SocketState.acceptTx = some c) :
    (b.entry i).bind SocketState.acceptTx = some c ∨ ∃ a, s = .command (.registerListener i c a) := by
  cases hm with
  | note _ he => exact .inl (he i ▸ hc)
  | change hch he =>
    rw [he] at hc
    split_ifs at hc with hi
    · subst hi
      exact hch.acceptTx hc
    · exact .inl hc
  | take =>
    rw [entry_deliver] at hc
    exact .inl hc
  | send =>
    rename_i i' _
    obtain ⟨l, hl⟩ := entry_handleSend lib b i'
    rw [hl] at hc
    split_ifs at hc with hi
    · left
      rw [hi]
      cases he : b.entry i' <;> simp_all
    · exact .inl hc
  | _ => exact .inl hc

/-- The command registers the channel `c` for the listener `l` only, and no other for it. -/
def RespectsAccepts (l : SocketId) (c : ChannelId) : IoCommand → Prop
  | .registerListener i c' _ => i = l ↔ c' = c
  | _ => True

theorem OwnsAccepts.act (lib : Libsrt) (h : OwnsAccepts l c b) {a : Action}
    (ha : ∀ cmd, a = .io (.command cmd) → RespectsAccepts l c cmd) : OwnsAccepts l c (b.act lib a) := by
  cases a with
  | io s =>
    have hstep {i : SocketId} {c' : ChannelId}
        (hc : ((b.ioStep lib s).entry i).bind SocketState.acceptTx = some c') :
        (b.entry i).bind SocketState.acceptTx = some c' ∨ (i = l ↔ c' = c) := by
      have hkeep (b' : Bridge) (hm : Moves lib s b b b') :
          (b'.entry i).bind SocketState.acceptTx = some c' →
            (b.entry i).bind SocketState.acceptTx = some c' ∨ (i = l ↔ c' = c) := by
        induction hm with
        | refl => exact .inl
        | tail _ hlast ih =>
          intro hc
          rcases hlast.acceptTx hc with hc | ⟨a, rfl⟩
          · exact ih hc
          · exact .inr (ha _ rfl)
      exact hkeep _ (ioStep_moves lib b s) hc
    have hnew : OwnsAccepts l c (b.ioStep lib s) := by
      refine ⟨fun i hc => ?_, fun c' hc => ?_⟩
      · rcases hstep hc with hc | hiff
        · exact h.owner i hc
        · exact hiff.mpr rfl
      · rcases hstep hc with hc | hiff
        · exact h.only c' hc
        · exact hiff.mp rfl
    show OwnsAccepts l c (if b.running = true then _ else b)
    split_ifs
    · exact ⟨hnew.owner, hnew.only⟩
    · exact h
  | tokio t => cases t <;> exact ⟨h.owner, h.only⟩
  | elapse => exact ⟨h.owner, h.only⟩

end Offers

end Bridge

end SrtBridge
