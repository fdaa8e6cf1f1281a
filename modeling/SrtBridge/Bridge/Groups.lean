import SrtBridge.Bridge.Runs

/-! A caller group dies only of its own state. From its creation on it has no status but
`Init` until its connect succeeds, and it is not in the epoll before; after that a terminal
status is recorded, and a channel dropped, only where the group itself reads as dead. -/

namespace SrtBridge

open General

def epollAfter (id : SocketId) (inside : Bool) : IoEvent → Bool
  | .subscribed i => i = id || inside
  | .unsubscribed i | .closed i | .created i => i ≠ id && inside
  | _ => inside

/-- libsrt's epoll holds the socket: it was added, and neither removed nor closed since. -/
def inEpoll (id : SocketId) (tr : List IoEvent) : Bool := tr.foldl (epollAfter id) false

section InEpoll

variable {id : SocketId} {tr es : List IoEvent}

theorem inEpoll_snoc {x : IoEvent} (h : inEpoll id tr = false) (hx : x ≠ .subscribed id) :
    inEpoll id (tr ++ [x]) = false := by
  have hlast : inEpoll id (tr ++ [x]) = epollAfter id (inEpoll id tr) x := by
    simp [inEpoll, List.foldl_append]
  rw [hlast, h]
  cases x <;> simp_all [epollAfter]

theorem inEpoll_append (h : inEpoll id tr = false) (hes : .subscribed id ∉ es) :
    inEpoll id (tr ++ es) = false := by
  induction es using List.reverseRecOn with
  | nil => simpa using h
  | append_singleton es x ih =>
    rw [← List.append_assoc]
    refine inEpoll_snoc (ih fun hmem => hes (by simp [hmem])) ?_
    rintro rfl
    exact hes (by simp)

theorem inEpoll_created : inEpoll id (tr ++ [.created id]) = false := by
  simp [inEpoll, List.foldl_append, epollAfter]

end InEpoll

namespace Bridge

section Steps

variable {lib : Libsrt} {b₀ : Bridge} {grp : SocketId} {s : IoStep}

/-- The steps a caller group is put through: none that makes a socket or a listener of it, and
events only for what is in the epoll; libsrt gives nothing new the id of something old. -/
def groupStep (lib : Libsrt) (b : Bridge) (grp : SocketId) : IoStep → Bool
  | .event i _ => inEpoll i b.trace && lib.accept b.step i ≠ grp
  | .command (.connect i _ _) | .command (.listen i _ _) | .command (.registerListener i _ _) =>
    i ≠ grp
  | s => groupFresh lib b s

def joins (lib : Libsrt) (b : Bridge) (grp : SocketId) : IoStep → Bool
  | .command (.connectGroup i eps _) =>
    i = grp && (SrtBridge.connectGroup lib b.step 0 i eps).refused.isNone
  | _ => false

/-- What a step can do to the entry of a caller group. -/
inductive GroupChange (lib : Libsrt) (s : IoStep) (n : ℕ) (e₀ : Option SocketState) (grp : SocketId)
    (e : SocketState) : Option SocketState → List IoEvent → Prop
  | closed {es} (hs : s = .command (.close grp) ∨ s = .command .shutdown)
      (hturn : .released grp ∈ es) (hes : ∀ q, .recorded grp q ∉ es) : GroupChange lib s n e₀ grp e none es
  | kept {e' es} (hg : e'.isGroup = true) (hc : e'.connectReply = none)
      (hq : e'.lastStatus = e.lastStatus) (hr : e.recvTx ≠ none → e'.recvTx ≠ none)
      (hd : e.sendRx ≠ none → e'.sendRx ≠ none) (hes : ∀ q, .recorded grp q ∉ es) :
      GroupChange lib s n e₀ grp e (some e') es
  | recorded {q} (h : Cause lib s n e₀ grp e q) :
      GroupChange lib s n e₀ grp e (some (e.updateStatus q)) [.recorded grp q]

theorem Change.ofGroup {e : SocketState} {new : Option SocketState} {es : List IoEvent}
    (h : Change lib s b₀.step (b₀.entry grp) grp (some e) new es)
    (hok : groupStep lib b₀ grp s = true) (hg : e.isGroup = true) (hc : e.connectReply = none) :
    GroupChange lib s b₀.step (b₀.entry grp) grp e new es := by
  cases h with
  | enter hent =>
    cases hent with
    | group hs hid h₀ => simp [groupStep, groupFresh, hs, hid, ← h₀] at hok
  | register hs => exact .kept hg hc rfl (by simp) (by simp) (by simp)
  | provide hs | listen hs | await hs => simp [groupStep, hs] at hok
  | record hcause => exact .recorded hcause
  | complete _ _ _ _ hr | fail _ hr => simp [hc] at hr
  | watch hes =>
    refine .kept hg hc rfl id id fun q hmem => ?_
    obtain ⟨m, hm⟩ := hes _ hmem
    cases hm
  | close hpre hcl =>
    rename_i pre post
    have hno (q : SocketStatus) (post : List IoEvent) (hpost : post = []) :
        .recorded grp q ∉ pre ++ .closed grp :: .released grp :: post := by
      rw [hpost]
      intro hmem
      simp only [List.mem_append, List.mem_cons, reduceCtorEq, List.not_mem_nil, or_false] at hmem
      simpa [IoEvent.isPlain] using hpre _ hmem
    cases hcl with
    | listen hs => simp [groupStep, hs] at hok
    | reaped _ _ _ hg' => simp [hg] at hg'
    | close hs => exact .closed (.inl hs) (by simp) fun q => hno q _ (by rw [hc]; rfl)
    | shutdown hs => exact .closed (.inr hs) (by simp) fun q => hno q _ (by rw [hc]; rfl)

theorem group_keeps (tr₀ : List IoEvent) :
    KeepsEntry lib (fun b s => groupStep lib b grp s = true) grp
      (Since grp tr₀ fun e => e.isGroup = true ∧ e.connectReply = none) := by
  refine since_keeps tr₀ (fun _ _ h => h) fun {b₀ s e e' es} hok hch _ h => ?_
  cases hch.ofGroup hok h.1 h.2 with
  | kept hg hc => exact ⟨hg, hc⟩
  | recorded => simpa using h

/-- The entry of a group since its creation, as long as no connect succeeds. -/
def Unjoined (grp : SocketId) (tr₀ : List IoEvent) (e : Option SocketState) (tr : List IoEvent) :
    Prop :=
  ∃ es, tr = tr₀ ++ es ∧ ((∃ x ∈ es, x.turns grp = true) ∨
    (∃ s, e = some s ∧ s.isGroup = true ∧ s.connectReply = none ∧ s.lastStatus = .init) ∧
      inEpoll grp tr = false)

theorem Unjoined.of_turned {tr₀ tr : List IoEvent} {e : Option SocketState}
    (h : ∃ es, tr = tr₀ ++ es ∧ ∃ x ∈ es, x.turns grp = true) (more : List IoEvent) :
    Unjoined grp tr₀ e (tr ++ more) := by
  obtain ⟨es, rfl, x, hx, hturn⟩ := h
  exact ⟨es ++ more, List.append_assoc .., .inl ⟨x, List.mem_append_left _ hx, hturn⟩⟩

theorem Unjoined.still {tr₀ tr es : List IoEvent} {e : SocketState} (h : ∃ es, tr = tr₀ ++ es)
    (hg : e.isGroup = true) (hc : e.connectReply = none) (hq : e.lastStatus = .init)
    (hin : inEpoll grp (tr ++ es) = false) : Unjoined grp tr₀ (some e) (tr ++ es) := by
  obtain ⟨es₀, rfl⟩ := h
  exact ⟨es₀ ++ es, List.append_assoc .., .inr ⟨⟨e, rfl, hg, hc, hq⟩, hin⟩⟩

/-- A step that does not connect the group does not record a status in it before its connect
has succeeded. -/
theorem Cause.joins {e : SocketState} {q : SocketStatus}
    (h : Cause lib s b₀.step (b₀.entry grp) grp e q) (hok : groupStep lib b₀ grp s = true)
    (hg : e.isGroup = true) (hq : e.lastStatus = .init) (hin : inEpoll grp b₀.trace = false) :
    joins lib b₀ grp s = true := by
  cases h with
  | registered _ hng => simp [hg] at hng
  | connected hs => simp [groupStep, hs] at hok
  | joined hs hr => simp [Bridge.joins, hs, hr]
  | errored hs => simp [groupStep, hs, hin] at hok
  | recovered _ hc => simp [hq] at hc
  | polled _ _ hskip => exact absurd ⟨hg, hq⟩ hskip

theorem unjoined_keeps (tr₀ : List IoEvent) :
    KeepsEntry lib (fun b s => groupStep lib b grp s = true ∧ joins lib b grp s = false) grp
      (Unjoined grp tr₀) where
  note := by
    rintro b₀ s e tr x ⟨hok, hno⟩ hx ⟨es, htr, hdone | ⟨⟨s', rfl, hg, hc, hq⟩, hin⟩⟩
    · exact .of_turned ⟨es, htr, hdone⟩ [x]
    · refine .still ⟨es, htr⟩ hg hc hq (inEpoll_snoc hin fun hsub => ?_)
      cases hx.subscribe hsub with
      | listen hs | connect hs => simp [groupStep, hs] at hok
      | join hs hr => simp [joins, hs, hr] at hno
      | accept hs hid => simp [groupStep, hs, hid] at hok
  backlog := by
    rintro e tr l ⟨es, htr, hdone | ⟨⟨s', he, hg, hc, hq⟩, hin⟩⟩
    · exact ⟨es, htr, .inl hdone⟩
    · obtain rfl := Option.some.inj he
      exact ⟨es, htr, .inr ⟨⟨_, rfl, hg, hc, hq⟩, hin⟩⟩
  change := by
    rintro b₀ s e new es tr ⟨hok, hno⟩ ⟨es₀, htr₀, hdone₀ | ⟨-, hin₀⟩⟩ ⟨mid, rfl⟩ hch
      ⟨es', htr, hdone | ⟨⟨s', rfl, hg, hc, hq⟩, hin⟩⟩
    · exact .of_turned ⟨es', htr, hdone⟩ es
    · obtain ⟨x, hx, hturn⟩ := hdone₀
      exact .of_turned ⟨es₀ ++ mid, by rw [htr₀, List.append_assoc], x, by simp [hx], hturn⟩ es
    · exact .of_turned ⟨es', htr, hdone⟩ es
    · have hsub : .subscribed grp ∉ es := fun hmem => by
        simpa [IoEvent.isPlain, IoEvent.isReply, IoEvent.isNote] using hch.events _ hmem
      cases hch.ofGroup hok hg hc with
      | closed _ hturn =>
        refine ⟨es' ++ es, by rw [htr, List.append_assoc], .inl ⟨.released grp, by simp [hturn], ?_⟩⟩
        simp [IoEvent.turns]
      | kept hg' hc' hq' => exact .still ⟨es', htr⟩ hg' hc' (hq'.trans hq) (inEpoll_append hin hsub)
      | recorded hcause =>
        rw [hcause.joins hok hg hq hin₀] at hno
        cases hno

/-- The step reads the group's own state, and it is terminal: the check of an error event, or
the state poll. -/
def ReadsDead (lib : Libsrt) (b : Bridge) (grp : SocketId) (s : IoStep) : Prop :=
  ((∃ flags, s = .event grp flags) ∧ isTerminalStatus (lib.status b.step 2 grp) = true) ∨
    (s = .poll grp ∧ ∃ e, b.entry grp = some e ∧ ¬(e.isGroup = true ∧ e.lastStatus = .init)) ∧
      isTerminalStatus (lib.status b.step 0 grp) = true

theorem Cause.readsDead {e : SocketState} {q : SocketStatus}
    (h : Cause lib s b₀.step (b₀.entry grp) grp e q) (hok : groupStep lib b₀ grp s = true)
    (hg : e.isGroup = true) (hq : isTerminalStatus q = true) : ReadsDead lib b₀ grp s := by
  cases h with
  | registered _ hng => simp [hg] at hng
  | connected hs => simp [groupStep, hs] at hok
  | joined | recovered => cases hq
  | errored hs _ _ hreal => exact .inl ⟨⟨_, hs⟩, hreal hg⟩
  | polled hs h₀ hskip => exact .inr ⟨⟨hs, e, h₀, hskip⟩, hq⟩

/-- A group's entry within a step: it is there and waits on no connect, or the step takes it
out. -/
def GroupEntry (grp : SocketId) (s : IoStep) : Option SocketState → Prop
  | none => s = .command (.close grp) ∨ s = .command .shutdown
  | some e => e.isGroup = true ∧ e.connectReply = none

theorem GroupEntry.change {e : SocketState} {e' new : Option SocketState} {es : List IoEvent}
    (h : GroupEntry grp s e') (he : b₀.entry grp = some e) (hok : groupStep lib b₀ grp s = true)
    (hch : Change lib s b₀.step (b₀.entry grp) grp e' new es) :
    ∃ e₁, e' = some e₁ ∧ e₁.isGroup = true ∧
      GroupChange lib s b₀.step (b₀.entry grp) grp e₁ new es := by
  cases e' with
  | none =>
    cases hch with
    | enter hent =>
      rw [he] at hent
      cases hent with
      | socket _ h₀ | listener _ h₀ => cases h₀
      | group _ _ h₀ => cases h₀
  | some e₁ => exact ⟨e₁, rfl, h.1, hch.ofGroup hok h.1 h.2⟩

theorem GroupChange.groupEntry {e : SocketState} {new : Option SocketState} {es : List IoEvent}
    {e₀ : Option SocketState} {n : ℕ} (h : GroupChange lib s n e₀ grp e new es)
    (he : GroupEntry grp s (some e)) : GroupEntry grp s new := by
  cases h with
  | closed hs => exact hs
  | kept hg hc => exact ⟨hg, hc⟩
  | recorded => exact ⟨by simpa using he.1, by simpa using he.2⟩

theorem groupEntry_keeps {b : Bridge} {e : SocketState} (he : b.entry grp = some e)
    (hok : groupStep lib b grp s = true) :
    KeepsEntry lib (fun b' s' => b' = b ∧ s' = s) grp fun e' _ => GroupEntry grp s e' where
  note _ _ h := h
  backlog _ h := h
  change := by
    rintro b₀ s' e' new es tr ⟨rfl, rfl⟩ - - hch h
    obtain ⟨e₁, rfl, -, hgc⟩ := h.change he hok hch
    exact hgc.groupEntry h

/-- What a step does to a group that does not read as dead. -/
structure Spared (grp : SocketId) (s : IoStep) (e : SocketState) (es : List IoEvent)
    (e' : Option SocketState) : Prop where
  entry : GroupEntry grp s e'
  records : ∀ q, .recorded grp q ∈ es → isTerminalStatus q = false
  channels : ∀ e₁, e' = some e₁ →
    (e.recvTx ≠ none → e₁.recvTx ≠ none) ∧ (e.sendRx ≠ none → e₁.sendRx ≠ none)

theorem spared_keeps {b : Bridge} {e : SocketState} (he : b.entry grp = some e)
    (hok : groupStep lib b grp s = true) (hno : ¬ReadsDead lib b grp s) :
    KeepsEntry lib (fun b' s' => b' = b ∧ s' = s) grp
      fun e' tr => ∃ es, tr = b.trace ++ es ∧ Spared grp s e es e' where
  note := by
    rintro b₀ s' e' tr x - hx ⟨es, htr, h⟩
    refine ⟨es ++ [x], by rw [htr, List.append_assoc], h.entry, fun q hmem => ?_, h.channels⟩
    rcases List.mem_append.mp hmem with hmem | hmem
    · exact h.records q hmem
    · rw [← List.mem_singleton.mp hmem] at hx
      simpa [IoEvent.isNote, IoEvent.subject] using hx.aside
  backlog := by
    rintro e' tr l ⟨es, htr, h⟩
    refine ⟨es, htr, h.entry, h.records, fun e₁ he₁ => ?_⟩
    obtain rfl := Option.some.inj he₁
    exact h.channels e' rfl
  change := by
    rintro b₀ s' e' new es' tr ⟨rfl, rfl⟩ - - hch ⟨es, htr, h⟩
    obtain ⟨e₁, rfl, hg, hgc⟩ := h.entry.change he hok hch
    have hentry := hgc.groupEntry h.entry
    obtain ⟨hr, hd⟩ := h.channels e₁ rfl
    refine ⟨es ++ es', by rw [htr, List.append_assoc], hentry, fun q hmem => ?_, fun e₂ he₂ => ?_⟩
    · rcases List.mem_append.mp hmem with hmem | hmem
      · exact h.records q hmem
      · cases hgc with
        | closed _ _ hes => exact absurd hmem (hes q)
        | kept _ _ _ _ _ hes => exact absurd hmem (hes q)
        | recorded hcause =>
          obtain ⟨-, rfl⟩ := IoEvent.recorded.inj (List.mem_singleton.mp hmem)
          by_contra hdead
          exact hno (hcause.readsDead hok hg (by simpa using hdead))
    · cases hgc with
      | closed => cases he₂
      | kept _ _ _ hr' hd' =>
        obtain rfl := Option.some.inj he₂
        exact ⟨fun h => hr' (hr h), fun h => hd' (hd h)⟩
      | recorded hcause =>
        rename_i q
        obtain rfl := Option.some.inj he₂
        have hlive : isTerminalStatus q = false := by
          by_contra hdead
          exact hno (hcause.readsDead hok hg (by simpa using hdead))
        rw [(e₁.updateStatus_channels hlive).1, (e₁.updateStatus_channels hlive).2]
        exact ⟨hr, hd⟩

end Steps

/-- `ConnectGroup` on the group succeeds somewhere in the run. -/
def Joined (lib : Libsrt) (b : Bridge) (grp : SocketId) (actions : List Action) : Prop :=
  ∃ pre eps reply post, actions = pre ++ .io (.command (.connectGroup grp eps reply)) :: post ∧
    (b.run lib pre).running = true ∧
      (SrtBridge.connectGroup lib (b.run lib pre).step 0 grp eps).refused = none

section Runs

variable {lib : Libsrt} {b : Bridge} {grp : SocketId} {actions : List Action}

theorem stepsMeet_of_not_joined (h : ¬Joined lib b grp actions) :
    StepsMeet lib (fun b s => joins lib b grp s = false) b actions := by
  refine along_iff.mpr fun pre a post hcut => ?_
  match a with
  | .tokio _ | .elapse _ => trivial
  | .io s =>
    intro hrun
    unfold joins
    split
    · rename_i i eps reply
      by_contra hjoin
      simp only [Bool.not_eq_false, Bool.and_eq_true, decide_eq_true_eq,
        Option.isNone_iff_eq_none] at hjoin
      obtain ⟨rfl, hr⟩ := hjoin
      exact h ⟨pre, eps, reply, post, hcut, hrun, hr⟩
    · rfl

theorem createGroup_fresh {mode : GroupType} (config : SrtConfig) (reply : ReplyId)
    (hid : lib.createGroup b.step mode = grp) (hpos : 0 ≤ grp) (hr : b.running = true) :
    let b₁ := b.act lib (.io (.command (.createGroup mode config reply)))
    b₁.entry grp = some (.freshGroup (mode = .backup)) ∧ inEpoll grp b₁.trace = false := by
  intro b₁
  have hb₁ : b₁ = { b.createGroup lib mode config reply with
      step := (b.createGroup lib mode config reply).step + 1 } := by
    show (if b.running = true then _ else b) = _
    rw [if_pos hr]
    rfl
  have hent : b₁.entry grp = (b.createGroup lib mode config reply).entry grp := by
    rw [hb₁]
    rfl
  have htr : b₁.trace = (b.createGroup lib mode config reply).trace := by rw [hb₁]
  rw [hent, htr]
  unfold createGroup
  dsimp only
  rw [hid, if_neg (not_lt.mpr hpos)]
  refine ⟨by simp, ?_⟩
  simp only [setOptions, trace_answer, trace_enter, trace_emits, trace_emit, List.append_assoc]
  rw [← List.append_assoc]
  refine inEpoll_append inEpoll_created ?_
  simp

variable (lib) in
/-- A caller group, from its creation on and through any steps a group is put through: only
`Close` and a shutdown take its entry out; and a step records a terminal status for it, or
drops its receive or send channel, only after its connect has succeeded and where
`srt_getsockstate` on the group returns a terminal state. -/
theorem group_dies_of_reading (b : Bridge) (mode : GroupType) (config : SrtConfig) (reply : ReplyId)
    (grp : SocketId) (hid : lib.createGroup b.step mode = grp) (hpos : 0 ≤ grp)
    (hr : b.running = true) (actions : List Action) (s : IoStep) :
    let b₁ := b.act lib (.io (.command (.createGroup mode config reply)))
    let b₂ := b₁.run lib actions
    let b₃ := b₂.ioStep lib s
    StepsMeet lib (fun b s => groupStep lib b grp s = true) b₁ actions →
    (∀ x ∈ b₂.trace.drop b₁.trace.length, x.turns grp = false) →
    groupStep lib b₂ grp s = true →
    ∃ e, b₂.entry grp = some e ∧ e.isGroup = true ∧
      (b₃.entry grp = none → s = .command (.close grp) ∨ s = .command .shutdown) ∧
      ((∃ q, .recorded grp q ∈ b₃.trace.drop b₂.trace.length ∧ isTerminalStatus q = true) ∨
        (∃ e', b₃.entry grp = some e' ∧ (e.recvTx ≠ none ∧ e'.recvTx = none ∨
          e.sendRx ≠ none ∧ e'.sendRx = none)) →
        Joined lib b₁ grp actions ∧ ReadsDead lib b₂ grp s) := by
  intro b₁ b₂ b₃ hok hlife hs
  obtain ⟨hfresh, hout⟩ := createGroup_fresh config reply hid hpos hr
  have hkept : ∃ e, b₂.entry grp = some e ∧ e.isGroup = true ∧ e.connectReply = none := by
    refine (Since.run (group_keeps b₁.trace) hok hfresh ⟨rfl, rfl⟩).resolve_left ?_
    rintro ⟨x, hx, hturn⟩
    rw [hlife x hx] at hturn
    cases hturn
  obtain ⟨e, he, hg, hc⟩ := hkept
  have hentry : GroupEntry grp s (b₂.entry grp) := by
    rw [he]
    exact ⟨hg, hc⟩
  refine ⟨e, he, hg, fun hnone => ?_, fun hloss => ?_⟩
  · have hstep : GroupEntry grp s (b₃.entry grp) := (groupEntry_keeps he hs).step ⟨rfl, rfl⟩ hentry
    rwa [hnone] at hstep
  · have hreads : ReadsDead lib b₂ grp s := by
      by_contra hno
      have hsame : ∃ es, b₂.trace = b₂.trace ++ es ∧ Spared grp s e es (b₂.entry grp) := by
        refine ⟨[], (List.append_nil _).symm, hentry, by simp, fun e₁ he₁ => ?_⟩
        obtain rfl := Option.some.inj (he.symm.trans he₁)
        exact ⟨id, id⟩
      obtain ⟨es, htr, hspared⟩ := (spared_keeps he hs hno).step ⟨rfl, rfl⟩ hsame
      rcases hloss with ⟨q, hmem, hq⟩ | ⟨e', he', hlost⟩
      · have hmem' : .recorded grp q ∈ es := by
          have hdrop : b₃.trace.drop b₂.trace.length = es := by
            show (b₂.ioStep lib s).trace.drop _ = es
            rw [htr, List.drop_left]
          rwa [hdrop] at hmem
        rw [hspared.records q hmem'] at hq
        cases hq
      · obtain ⟨hrecv, hsend⟩ := hspared.channels e' he'
        rcases hlost with ⟨hr, hn⟩ | ⟨hd, hn⟩
        · exact hrecv hr hn
        · exact hsend hd hn
    refine ⟨?_, hreads⟩
    · by_contra hno
      have hstart : Unjoined grp b₁.trace (b₁.entry grp) b₁.trace :=
        ⟨[], (List.append_nil _).symm, .inr ⟨⟨_, hfresh, rfl, rfl, rfl⟩, hout⟩⟩
      have hmeet : StepsMeet lib
          (fun b s => groupStep lib b grp s = true ∧ joins lib b grp s = false) b₁ actions :=
        StepsMeet.and hok (stepsMeet_of_not_joined hno)
      obtain ⟨es, htr, ⟨x, hx, hturn⟩ | ⟨⟨e', he', hg', -, hinit⟩, hin⟩⟩ :=
        (unjoined_keeps b₁.trace).run hmeet hstart
      · have hdrop : b₂.trace.drop b₁.trace.length = es := by
          show (b₁.run lib actions).trace.drop _ = es
          rw [htr, List.drop_left]
        rw [← hdrop] at hx
        rw [hlife x hx] at hturn
        cases hturn
      · rcases hreads with ⟨⟨flags, rfl⟩, -⟩ | ⟨⟨-, e'', he'', hskip⟩, -⟩
        · simp only [groupStep, Bool.and_eq_true] at hs
          rw [hs.1] at hin
          cases hin
        · obtain rfl := Option.some.inj (he'.symm.trans he'')
          exact hskip ⟨hg', hinit⟩

end Runs

def joinedGroup : List Action :=
  [.io (.command (.registerSocket 7 1 2 3)),
    .io (.command (.connectGroup 7 [⟨.v4 0x7f000001 9000, none, 1, 7⟩] 1))]

theorem group_dies_of_reading_broken :
    let lib := Libsrt.reading fun _ => .broken
    let b₁ := start.act lib (.io (.command (.createGroup .broadcast {} 0)))
    let b₂ := b₁.run lib joinedGroup
    ((b₂.ioStep lib (.poll 7)).entry 7).map SocketState.lastStatus = some .broken ∧
      Joined lib b₁ 7 joinedGroup ∧ ReadsDead lib b₂ 7 (.poll 7) := by
  refine ⟨rfl, ?_⟩
  obtain ⟨e, he, -, -, hdies⟩ := group_dies_of_reading (.reading fun _ => .broken) start .broadcast {} 0
    7 rfl (by decide) rfl joinedGroup (.poll 7) (by decide) (by decide) (by decide)
  have hrecorded : IoEvent.recorded 7 .broken ∈ [.recorded 7 .broken] := List.mem_singleton_self _
  exact hdies (.inl ⟨.broken, hrecorded, rfl⟩)

end Bridge

end SrtBridge
