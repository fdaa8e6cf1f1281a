import SrtBridge.Bridge.Schedule

/-! The statuses recorded in one entry over a run: whether a terminal one is final, and
whether a started connection ever reads as one that is not. Both are up to what libsrt
reads, which the thread records as it comes. -/

namespace SrtBridge

open General

/-- The status recorded in the entry of `id`, if the event is such a record. -/
def IoEvent.status? (id : SocketId) : IoEvent → Option SocketStatus
  | .recorded i q => if i = id then some q else none
  | _ => none

/-- What happened since the entry of `id` was made. -/
def life (id : SocketId) (tr : List IoEvent) : List IoEvent :=
  tr.foldl (fun l x => if x.turns id then [] else l ++ [x]) []

/-- The statuses recorded in the entry of `id` among some events. -/
def statuses (id : SocketId) (es : List IoEvent) : List SocketStatus :=
  es.filterMap (IoEvent.status? id)

/-- A connection under way or over; the other statuses mark an entry that has none yet. -/
def SocketStatus.started : SocketStatus → Bool
  | .init | .opened | .listening => false
  | _ => true

section Lives

variable {id : SocketId} {tr es : List IoEvent} {x : IoEvent}

@[simp] theorem life_nil : life id [] = [] := rfl

theorem life_snoc : life id (tr ++ [x]) = if x.turns id then [] else life id tr ++ [x] := by
  simp [life, List.foldl_append]

theorem life_append_turn (hx : x.turns id = true) : life id (tr ++ [x]) = [] := by
  rw [life_snoc, if_pos hx]

theorem life_append (h : ∀ y ∈ es, y.turns id = false) : life id (tr ++ es) = life id tr ++ es := by
  induction es generalizing tr with
  | nil => simp
  | cons y es ih =>
    rw [← List.singleton_append, ← List.append_assoc, ih fun z hz => h z (by simp [hz]), life_snoc,
      if_neg (by simp [h y (by simp)]), List.append_assoc]

@[simp] theorem statuses_append {es' : List IoEvent} :
    statuses id (es ++ es') = statuses id es ++ statuses id es' :=
  List.filterMap_append

theorem statuses_eq_nil (h : ∀ y ∈ es, y.status? id = none) : statuses id es = [] :=
  List.filterMap_eq_nil_iff.mpr h

/-- An event that says nothing of an entry neither ends it nor records a status in it. -/
theorem IoEvent.quiet (id : SocketId) (h : x.isNote = true ∨ x.subject ≠ some id) :
    x.turns id = false ∧ x.status? id = none ∧ ∀ r d, x ≠ .registered id r d := by
  cases x <;> simp_all [IoEvent.isNote, IoEvent.subject, IoEvent.turns, IoEvent.status?]

end Lives

namespace Bridge

section Final

variable {lib : Libsrt} {b₀ : Bridge} {id : SocketId} {s : IoStep}

/-- The step finds the entry of `id` dead, and records a live status in it. -/
def revives (lib : Libsrt) (b : Bridge) (id : SocketId) (s : IoStep) : Bool :=
  (b.entry id).any fun e => isTerminalStatus e.lastStatus &&
    match s with
    | .poll i => i = id && !isTerminalStatus (lib.status b.step 0 id)
    | .event i flags =>
      i = id && flags.connect && !(e.isListener && flags.inp) && e.connectReply.isSome &&
        lib.getsockstate b.step 0 id = .connected
    | .command (.registerSocket i _ _ _) =>
      i = id && !e.isGroup && !isTerminalStatus (lib.status b.step 0 id)
    | .command (.connect i addr _) =>
      i = id && !(lib.connect b.step id addr < 0 && lib.lastSrtError b.step 0 ≠ .asyncFail) &&
        lib.getsockstate b.step 0 id ∈ [.connected, .connecting, .opened, .init]
    | .command (.listen i backlog _) =>
      i = id && e.accessControl.all (fun slot => 0 ≤ lib.listenCallback b.step id slot) &&
        0 ≤ lib.listen b.step id backlog
    | .command (.connectGroup i eps _) =>
      i = id && (SrtBridge.connectGroup lib b.step 0 id eps).refused.isNone
    | _ => false

theorem Cause.revives {e : SocketState} {q : SocketStatus}
    (h : Cause lib s b₀.step (b₀.entry id) id e q) (hq : isTerminalStatus q = false)
    (ht : isTerminalStatus e.lastStatus = true) : revives lib b₀ id s = true := by
  unfold Bridge.revives
  cases h with
  | registered hs hg h₀ =>
    cases he : b₀.entry id with
    | none =>
      rw [h₀, he] at ht
      cases ht
    | some e' =>
      rw [h₀, he] at ht hg
      simp only [Option.getD_some] at ht hg
      simp [hs, ht, hg, hq]
  | connected hs h₀ ha hc =>
    simp only [not_and, ne_eq, not_not] at ha
    simpa [hs, h₀, ht, hc, or_iff_not_imp_left] using ha
  | joined hs hr h₀ =>
    obtain ⟨e', he, hst⟩ := Option.map_eq_some_iff.mp h₀
    simp [hs, he, hst, ht, hr]
  | errored => cases hq
  | recovered hs hc =>
    rw [hc] at ht
    cases ht
  | polled hs h₀ => simp [hs, h₀, ht, hq]

/-- What the record says of an entry and its statuses. -/
structure Recorded (id : SocketId) (e : SocketState) (es : List IoEvent) : Prop where
  last : e.lastStatus = (statuses id es).getLast?.getD .init
  final : (statuses id es).Pairwise fun q q' =>
    isTerminalStatus q = true → isTerminalStatus q' = true
  /-- An entry that was given its channels keeps them until it is dead. -/
  channels : (∃ r d, .registered id r d ∈ es) → (∀ q ∈ statuses id es, isTerminalStatus q = false) →
    e.recvTx ≠ none ∧ e.sendRx ≠ none

theorem Recorded.keep {e e' : SocketState} {es es' : List IoEvent} (h : Recorded id e es)
    (hq : statuses id es' = []) (hreg : ∀ r d, .registered id r d ∉ es')
    (hs : e'.lastStatus = e.lastStatus) (hr : e'.recvTx = e.recvTx) (hd : e'.sendRx = e.sendRx) :
    Recorded id e' (es ++ es') := by
  refine ⟨?_, ?_, ?_⟩
  · rw [hs, h.last]
    simp [hq]
  · simpa [hq] using h.final
  · rintro ⟨r, d, hmem⟩ hlive
    rw [hr, hd]
    refine h.channels ⟨r, d, (List.mem_append.mp hmem).resolve_right (hreg r d)⟩ ?_
    simpa [hq] using hlive

theorem Recorded.terminal_of_mem {e : SocketState} {es : List IoEvent} (h : Recorded id e es)
    {q : SocketStatus} (hq : q ∈ statuses id es) (ht : isTerminalStatus q = true) :
    isTerminalStatus e.lastStatus = true := by
  have hf := h.final
  rw [h.last]
  cases hl : (statuses id es).getLast? with
  | none => simp [List.getLast?_eq_none_iff.mp hl] at hq
  | some last =>
    obtain ⟨init, hinit⟩ := List.getLast?_eq_some_iff.mp hl
    rw [hinit] at hf hq
    rcases List.mem_append.mp hq with hq | hq
    · exact (List.pairwise_append.mp hf).2.2 q hq last (by simp) ht
    · rwa [List.mem_singleton.mp hq] at ht

theorem Recorded.record {e e' : SocketState} {es es' : List IoEvent} {q : SocketStatus}
    (h : Recorded id e es) (hq : statuses id es' = [q]) (hreg : ∀ r d, .registered id r d ∉ es')
    (hs : e'.lastStatus = q)
    (hkeep : isTerminalStatus q = false → e'.recvTx = e.recvTx ∧ e'.sendRx = e.sendRx)
    (hlive : isTerminalStatus q = false → isTerminalStatus e.lastStatus = false) :
    Recorded id e' (es ++ es') := by
  refine ⟨?_, ?_, ?_⟩
  · rw [hs]
    simp [hq]
  · rw [statuses_append, hq, List.pairwise_append]
    refine ⟨h.final, by simp, fun q' hq' q'' hq'' ht => ?_⟩
    rw [List.mem_singleton] at hq''
    rw [hq'']
    by_contra hno
    have hdead := h.terminal_of_mem hq' ht
    rw [hlive (by simpa using hno)] at hdead
    cases hdead
  · rintro ⟨r, d, hmem⟩ hall
    rw [statuses_append, hq] at hall
    have hq : isTerminalStatus q = false := hall q (by simp)
    rw [(hkeep hq).1, (hkeep hq).2]
    exact h.channels ⟨r, d, (List.mem_append.mp hmem).resolve_right (hreg r d)⟩
      fun q' hq' => hall q' (by simp [hq'])

/-- What holds of the entry of `id` in a run that revives none. -/
def FinalSoFar (id : SocketId) (e : Option SocketState) (tr : List IoEvent) : Prop :=
  ∀ s, e = some s → Recorded id s (life id tr)

theorem FinalSoFar.keep {e e' : SocketState} {tr es : List IoEvent} (h : FinalSoFar id (some e) tr)
    (hes : ∀ x ∈ es, x.isNote = true) (hs : e'.lastStatus = e.lastStatus)
    (hr : e'.recvTx = e.recvTx) (hd : e'.sendRx = e.sendRx) :
    FinalSoFar id (some e') (tr ++ es) := by
  have hquiet (x : IoEvent) (hx : x ∈ es) := x.quiet id (.inl (hes x hx))
  rintro _ ⟨⟩
  rw [life_append fun x hx => (hquiet x hx).1]
  exact (h e rfl).keep (statuses_eq_nil fun x hx => (hquiet x hx).2.1)
    (fun r d hmem => (hquiet _ hmem).2.2 r d rfl) hs hr hd

theorem FinalSoFar.record {e e' : SocketState} {tr es : List IoEvent} {q : SocketStatus}
    (h : FinalSoFar id (some e) tr) (hes : ∀ x ∈ es, x.isNote = true) (hs : e'.lastStatus = q)
    (hkeep : isTerminalStatus q = false → e'.recvTx = e.recvTx ∧ e'.sendRx = e.sendRx)
    (hlive : isTerminalStatus q = false → isTerminalStatus e.lastStatus = false) :
    FinalSoFar id (some e') (tr ++ (es ++ [.recorded id q])) := by
  have hquiet (x : IoEvent) (hx : x ∈ es) := x.quiet id (.inl (hes x hx))
  rintro _ ⟨⟩
  rw [life_append fun x hx => ?_]
  · refine (h e rfl).record ?_ (fun r d hmem => ?_) hs hkeep hlive
    · rw [statuses_append, statuses_eq_nil fun x hx => (hquiet x hx).2.1]
      simp [statuses, IoEvent.status?]
    · rcases List.mem_append.mp hmem with hmem | hmem
      · exact (hquiet _ hmem).2.2 r d rfl
      · simp at hmem
  · rcases List.mem_append.mp hx with hx | hx
    · exact (hquiet x hx).1
    · rw [List.mem_singleton.mp hx]
      rfl

theorem finalSoFar_keeps :
    KeepsEntry lib (fun b s => revives lib b id s = false) id (FinalSoFar id) where
  note := by
    intro b₀ s e tr x _ hx h s hs
    obtain ⟨hturn, hst, hreg⟩ := x.quiet id hx.aside
    rw [life_snoc, if_neg (by simp [hturn])]
    exact (h s hs).keep (statuses_eq_nil (by simpa using hst)) (by simpa using fun r d h => hreg r d h.symm)
      rfl rfl rfl
  backlog := by
    intro e tr l h
    have hk : FinalSoFar id (some { e with sendBacklog := l }) (tr ++ []) :=
      h.keep (by simp) rfl rfl rfl
    rwa [List.append_nil] at hk
  change := by
    intro b₀ s e new es tr hok _ _ hch h
    cases hch with
    | enter hent =>
      rintro _ ⟨⟩
      rw [life_append_turn (by simp [IoEvent.turns])]
      refine ⟨?_, by simp [statuses], by simp⟩
      cases hent <;> rfl
    | register hs =>
      rename_i e r d t
      rintro _ ⟨⟩
      have hrec := h e rfl
      rw [life_append (by simp [IoEvent.turns])]
      have hst : statuses id (life id tr ++ [.registered id r d]) = statuses id (life id tr) := by
        simp [statuses, IoEvent.status?]
      exact ⟨by rw [hst]; exact hrec.last, by rw [hst]; exact hrec.final, fun _ _ => by simp⟩
    | provide => exact h.keep (List.forall_mem_nil _) rfl rfl rfl
    | record hc =>
      rename_i e q
      refine h.record (List.forall_mem_nil _) (by simp) SocketState.updateStatus_channels fun hq => ?_
      by_contra hdead
      rw [hc.revives hq (by simpa using hdead)] at hok
      cases hok
    | listen hs h₀ ha hl =>
      rename_i e backlog reply
      refine h.record (List.forall_mem_nil _) (by simp) SocketState.updateStatus_channels fun hq => ?_
      by_contra hdead
      have hrev : revives lib b₀ id s = true := by
        have hslot : e.accessControl.all (fun slot => 0 ≤ lib.listenCallback b₀.step id slot) = true := by
          rw [Option.all_eq_true]
          simpa using ha
        simp [revives, hs, h₀, hslot, hl, eq_true_of_ne_false hdead]
      simp [hrev] at hok
    | await hs h₀ ha hq =>
      rename_i e addr reply
      refine h.record ?_ (by simp) SocketState.updateStatus_channels fun hq => ?_
      · cases e.connectReply <;> simp [IoEvent.isNote]
      · by_contra hdead
        rename_i hstate
        have hrev : revives lib b₀ id s = true := by
          simp only [not_and, ne_eq, not_not] at ha
          have hstate' : lib.getsockstate b₀.step 0 id ∈
              [.connected, .connecting, .opened, .init] := List.mem_cons_of_mem _ hstate
          simpa [revives, hs, h₀, eq_true_of_ne_false hdead, hstate', or_iff_not_imp_left] using ha
        simp [hrev] at hok
    | complete hs hf hi h₀ hr hq =>
      rename_i e flags reply result q
      refine h.record (List.forall_mem_singleton.mpr rfl) (by simp) SocketState.updateStatus_channels fun hlive => ?_
      by_contra hdead
      rcases hq with ⟨hc, -⟩ | ⟨-, rfl, -⟩
      · have hrev : revives lib b₀ id s = true := by
          have hin : e.isListener = false ∨ flags.inp = false := by
            simpa [or_iff_not_imp_left] using hi
          simp [revives, hs, h₀, eq_true_of_ne_false hdead, hf, hr, hc, hin]
        simp [hrev] at hok
      · cases hlive
    | fail => exact h.keep (by simp [IoEvent.isNote]) rfl rfl rfl
    | watch hes =>
      refine h.keep (fun x hx => ?_) rfl rfl rfl
      obtain ⟨m, rfl⟩ := hes x hx
      rfl
    | close => rintro _ ⟨⟩

variable (lib) in
/-- In a run whose steps revive no entry, a recorded terminal status is final: after it the
entry is given no other, up to its removal; and an entry that was given its channels and is
not dead still has them. -/
theorem terminal_final (id : SocketId) (actions : List Action)
    (h : StepsMeet lib (fun b s => revives lib b id s = false) start actions) :
    ∀ e, (start.run lib actions).entry id = some e →
      let es := life id (start.run lib actions).trace
      e.lastStatus = (statuses id es).getLast?.getD .init ∧
        ((statuses id es).Pairwise fun q q' =>
          isTerminalStatus q = true → isTerminalStatus q' = true) ∧
        ((∃ r d, .registered id r d ∈ es) → isTerminalStatus e.lastStatus = false →
          e.recvTx ≠ none ∧ e.sendRx ≠ none) := by
  intro e he es
  have hrec : Recorded id e es := finalSoFar_keeps.run h (by rintro _ ⟨⟩) e he
  refine ⟨hrec.last, hrec.final, fun hreg hlive => hrec.channels hreg fun q hq => ?_⟩
  by_contra hdead
  rw [hrec.terminal_of_mem hq (by simpa using hdead)] at hlive
  cases hlive

end Final

def openGroup : List Action :=
  [.io (.command (.createGroup .broadcast {} 0)), .io (.command (.registerSocket 7 1 2 3))]

def joinGroup : IoStep := .command (.connectGroup 7 [⟨.v4 0x7f000001 9000, none, 1, 7⟩] 1)

def connectedGroup : List Action := openGroup ++ [.io joinGroup]

/-- A group whose connection breaks. -/
theorem terminal_final_group :
    let b := start.run (.reading fun k => if k < 3 then .connected else .broken)
      (connectedGroup ++ [.io (.poll 7), .io .cleanup, .io (.poll 7)])
    ∀ e, b.entry 7 = some e → ((statuses 7 (life 7 b.trace)).Pairwise fun q q' =>
      isTerminalStatus q = true → isTerminalStatus q' = true) :=
  fun e he => (terminal_final _ 7 _ (by decide) e he).2.1

/-- What the loop finds when the group is connected beside an accepted socket, and in `n` turns after. -/
def besideSocket (n : ℕ) : List Finds :=
  .commanded [.createGroup .broadcast {} 0] ::
    .commanded [.registerSocket 7 1 2 3, .connectGroup 7 [⟨.v4 0x7f000001 9000, none, 1, 7⟩] 1,
      .registerSocket 8 4 5 6] :: List.replicate n (.commanded [])

/-- A library in which the accepted socket stays connected. -/
def readingGroup (state : ℕ → SockState) : Libsrt :=
  { Libsrt.reading fun _ => .connected with
    getsockstate := fun k _ id => if id = 7 then state k else .connected }

/-- The loop stays active for another socket's sake. A pending member reads `BROKEN` in one poll: the
group is recorded dead and loses its channels, and reads connected again in the poll a hundred turns on. -/
theorem terminal_revived :
    let lib := readingGroup fun k => if k = 205 then .broken else .connected
    let b := (IoThread.start.turns lib (besideSocket 199)).bridge
    ((b.entry 7).map fun e => (e.lastStatus, e.recvTx, e.sendRx)) = some (.connected, none, none) ∧
      statuses 7 (life 7 b.trace) = [.connected, .broken, .connected] ∧
        ¬(statuses 7 (life 7 b.trace)).Pairwise fun q q' =>
          isTerminalStatus q = true → isTerminalStatus q' = true := by
  intro lib b
  have hstatuses : statuses 7 (life 7 b.trace) = [.connected, .broken, .connected] := by decide +kernel
  exact ⟨by decide +kernel, hstatuses, by rw [hstatuses]; decide⟩

section Started

variable {lib : Libsrt} {b b₀ : Bridge} {id : SocketId} {s : IoStep}

/-- The step starts a connection: a group's connect succeeds, a socket's is accepted, or a
connected socket is registered. -/
def starts (lib : Libsrt) (b : Bridge) (id : SocketId) : IoStep → Bool
  | .command (.connectGroup i eps _) =>
    i = id && (b.entry id).isSome && (SrtBridge.connectGroup lib b.step 0 id eps).refused.isNone
  | .command (.connect i addr _) =>
    i = id && (b.entry id).isSome &&
      !(lib.connect b.step id addr < 0 && lib.lastSrtError b.step 0 ≠ .asyncFail) &&
        lib.getsockstate b.step 0 id ∈ [.connected, .connecting, .opened, .init]
  | .command (.registerSocket i _ _ _) =>
    i = id && !(b.entry id).any SocketState.isGroup && lib.getsockstate b.step 0 id = .connected
  | _ => false

/-- The step records in the entry of `id` a status of one that has no connection yet. -/
def unsettles (lib : Libsrt) (b : Bridge) (id : SocketId) (s : IoStep) : Bool :=
  (b.entry id).any fun e =>
    match s with
    | .poll i => i = id && !(lib.status b.step 0 id).started
    | .command (.registerSocket i _ _ _) =>
      i = id && !e.isGroup && !(lib.status b.step 0 id).started
    | .command (.listen i backlog _) =>
      i = id && e.accessControl.all (fun slot => 0 ≤ lib.listenCallback b.step id slot) &&
        0 ≤ lib.listen b.step id backlog
    | _ => false

theorem Cause.settled {e : SocketState} {q : SocketStatus}
    (h : Cause lib s b₀.step (b₀.entry id) id e q) (hok : unsettles lib b₀ id s = false)
    (he : e.lastStatus.started = true) : q.started = true := by
  cases h with
  | registered hs hg h₀ =>
    cases hent : b₀.entry id with
    | none =>
      rw [h₀, hent] at he
      cases he
    | some e' =>
      rw [h₀, hent] at hg
      simp only [Option.getD_some] at hg
      simpa [unsettles, hs, hent, hg] using hok
  | polled hs h₀ => simpa [unsettles, hs, h₀] using hok
  | _ => rfl

theorem started_keeps (tr₀ : List IoEvent) :
    KeepsEntry lib (fun b s => unsettles lib b id s = false) id
      (Since id tr₀ fun e => e.lastStatus.started = true) := by
  refine since_keeps tr₀ (fun _ _ h => h) fun {b₀ s e e' es} hok hch hlife hst => ?_
  cases hch with
  | enter => simpa [IoEvent.turns] using hlife (.entered id)
  | record hc => simpa using hc.settled hok hst
  | listen hs h₀ ha hl =>
    rename_i backlog reply
    have hslot : e.accessControl.all (fun slot => 0 ≤ lib.listenCallback b₀.step id slot) = true := by
      rw [Option.all_eq_true]
      simpa using ha
    simp [unsettles, hs, h₀, hslot, hl] at hok
  | await => simp [SocketStatus.started]
  | complete hs hf hi h₀ hr hq =>
    rcases hq with ⟨-, rfl, -⟩ | ⟨-, rfl, -⟩ <;> simp [SocketStatus.started]
  | register | provide | fail | watch => exact hst

theorem entry_awaitConnect (reply : ReplyId) : (b.awaitConnect id reply).entry id =
    (b.entry id).map fun e => { e with connectReply := some reply }.updateStatus .connecting := by
  unfold awaitConnect
  cases he : b.entry id with
  | none => exact he
  | some e =>
    dsimp only
    cases e.connectReply <;> simp [entry_record, entry_modify, he]

theorem connectGroup_started {eps : List GroupEndpoint} {reply : ReplyId} {e : SocketState}
    (he : b.entry id = some e) (hr : (SrtBridge.connectGroup lib b.step 0 id eps).refused = none) :
    ∃ e, (b.connectGroup lib id eps reply).entry id = some e ∧ e.lastStatus.started = true := by
  obtain ⟨ws, -, hw⟩ := ((b.emit (.subscribed id)).groupRun e).connect_leaves hr
  refine ⟨{ e with watched := ws }.updateStatus .connected, ?_, by simp [SocketStatus.started]⟩
  simp only [connectGroup, hr, entry_emit, he, entry_answer, putGroup, entry_emits, entry_setEntry,
    if_true]
  exact congrArg some hw

theorem connect_started {addr : SocketAddr} {reply : ReplyId} {e : SocketState}
    (he : b.entry id = some e)
    (ha : ¬(lib.connect b.step id addr < 0 ∧ lib.lastSrtError b.step 0 ≠ .asyncFail))
    (hq : lib.getsockstate b.step 0 id ∈ [.connected, .connecting, .opened, .init]) :
    ∃ e, (b.connect lib id addr reply).entry id = some e ∧ e.lastStatus.started = true := by
  unfold connect
  dsimp only
  rw [if_neg ha]
  have hwait (c : Bridge) (hc : c.entry id = some e) :
      ∃ e, (c.awaitConnect id reply).entry id = some e ∧ e.lastStatus.started = true := by
    rw [entry_awaitConnect, hc]
    exact ⟨_, rfl, by simp [SocketStatus.started]⟩
  simp only [List.mem_cons, List.not_mem_nil, or_false] at hq
  rcases hq with hq | hq | hq | hq
  · rw [hq]
    refine ⟨e.updateStatus .connected, ?_, by simp [SocketStatus.started]⟩
    simp [entry_record, he]
  · rw [hq]
    exact hwait _ he
  · rw [hq]
    exact hwait _ he
  · rw [hq]
    exact hwait _ he

theorem registerSocket_started {r d t : ChannelId} (hg : (b.entry id).any SocketState.isGroup = false)
    (hq : lib.getsockstate b.step 0 id = .connected) :
    ∃ e, (b.registerSocket lib id r d t).entry id = some e ∧ e.lastStatus.started = true := by
  have hq : lib.status b.step 0 id = .connected := by simpa [Libsrt.status] using hq
  have hgrp : ((b.entry id).getD .fresh).isGroup = false := by
    cases he : b.entry id with
    | none => rfl
    | some e => simpa [he] using hg
  rw [entry_registerSocket, if_pos rfl, hq]
  dsimp only
  split_ifs with h
  · refine ⟨_, rfl, ?_⟩
    rcases h with h | h
    · rw [hgrp] at h
      cases h
    · exact h ▸ rfl
  · exact ⟨_, rfl, by simp [SocketStatus.started]⟩

/-- A step that starts a connection leaves an entry that says so. -/
theorem starts_started (h : starts lib b id s = true) (hr : b.running = true) :
    ∃ e, (b.act lib (.io s)).entry id = some e ∧ e.lastStatus.started = true := by
  rw [entry_act hr]
  unfold starts at h
  split at h
  · simp only [Bool.and_eq_true, decide_eq_true_eq, Option.isNone_iff_eq_none] at h
    obtain ⟨⟨rfl, hsome⟩, hnone⟩ := h
    obtain ⟨e, he⟩ := Option.isSome_iff_exists.mp hsome
    exact connectGroup_started he hnone
  · simp only [Bool.and_eq_true, Bool.not_eq_true', Bool.and_eq_false_iff, decide_eq_true_eq,
      decide_eq_false_iff_not] at h
    obtain ⟨⟨⟨rfl, hsome⟩, ha⟩, hq⟩ := h
    obtain ⟨e, he⟩ := Option.isSome_iff_exists.mp hsome
    exact connect_started he (by tauto) hq
  · simp only [Bool.and_eq_true, Bool.not_eq_true', decide_eq_true_eq] at h
    obtain ⟨⟨rfl, hg⟩, hq⟩ := h
    exact registerSocket_started hg hq
  · cases h

/-- The loop is not idle while some entry has a connection under way. -/
theorem not_idle {e : SocketState} (he : b.entry id = some e)
    (hq : e.lastStatus = .connecting ∨ e.lastStatus = .connected) : b.idle = false := by
  have hmem : ⟨id, e⟩ ∈ b.sockets.entries := AList.mem_lookup_iff.mp he
  have hany : b.anyWith e.lastStatus = true := List.any_eq_true.mpr ⟨_, hmem, by simp⟩
  unfold idle hasConnecting hasConnected
  rcases hq with hq | hq <;> rw [hq] at hany <;> simp [hany]

variable (lib) in
/-- Once a step has started a connection, and as long as no step reads a status of one that
has not started, its entry says that it is under way or over until it is taken out or
replaced; while it is under way the loop is not idle, and the state poll does not take a
group for one that is not connected yet. -/
theorem started_stays (b : Bridge) (id : SocketId) (s : IoStep) (actions : List Action)
    (hs : starts lib b id s = true) (hr : b.running = true)
    (h : StepsMeet lib (fun b s => unsettles lib b id s = false) (b.act lib (.io s)) actions) :
    let b₁ := b.act lib (.io s)
    let b₂ := b₁.run lib actions
    (∃ x ∈ b₂.trace.drop b₁.trace.length, x.turns id = true) ∨
      ∃ e, b₂.entry id = some e ∧ e.lastStatus.started = true ∧
        (isTerminalStatus e.lastStatus = false →
          b₂.idle = false ∧ ¬(e.isGroup = true ∧ e.lastStatus = .init)) := by
  intro b₁ b₂
  obtain ⟨e₁, he₁, hst₁⟩ := starts_started hs hr
  rcases Since.run (started_keeps b₁.trace) h he₁ hst₁ with hes | ⟨e, he, hst⟩
  · exact .inl hes
  · refine .inr ⟨e, he, hst, fun hlive => ⟨not_idle he ?_, ?_⟩⟩
    · cases hq : e.lastStatus <;> simp_all [SocketStatus.started, isTerminalStatus]
    · rintro ⟨-, hinit⟩
      rw [hinit] at hst
      cases hst

end Started

/-- A group whose connection breaks. -/
theorem started_stays_group :
    let lib := Libsrt.reading fun k => if k < 3 then .connected else .broken
    let b₁ := start.run lib connectedGroup
    let b₂ := b₁.run lib [.io (.poll 7)]
    (∃ x ∈ b₂.trace.drop b₁.trace.length, x.turns 7 = true) ∨
      ∃ e, b₂.entry 7 = some e ∧ e.lastStatus.started = true ∧
        (isTerminalStatus e.lastStatus = false →
          b₂.idle = false ∧ ¬(e.isGroup = true ∧ e.lastStatus = .init)) :=
  started_stays (.reading fun k => if k < 3 then .connected else .broken)
    (start.run (.reading fun k => if k < 3 then .connected else .broken) openGroup) 7 joinGroup
    [.io (.poll 7)] (by decide) rfl (by decide)

/-- The state poll of a connected group reads a pending member that is only opened: the group
is recorded as opened, and the loop goes idle. -/
theorem started_reads_opened :
    let lib := Libsrt.reading fun k => if k = 3 then .opened else .connected
    let b := start.run lib connectedGroup
    let b' := b.run lib [.io (.poll 7)]
    starts lib (start.run lib openGroup) 7 joinGroup = true ∧
      (∀ x ∈ b'.trace.drop b.trace.length, x.turns 7 = false) ∧
        (b'.entry 7).map SocketState.lastStatus = some .opened ∧ b'.idle = true :=
  ⟨by decide, by decide, by rfl, by decide⟩

end Bridge

end SrtBridge
