import SrtBridge.Bridge.Connects
import SrtBridge.Bridge.Statuses
import SrtBridge.Handles.Calls

/-! What becomes of a socket, a listener or a group that a call has created, when the call fails
and when its future is dropped. -/

namespace SrtBridge

open General

/-- What the receiver of a oneshot is told, one thing after the other. -/
def outcomes (reply : ReplyId) (tr : List IoEvent) : List (Awaited Reply) :=
  tr.filterMap (IoEvent.outcome reply)

/-- An event that sets an option of a new socket, or puts it into the map. -/
def IoEvent.isSetup : IoEvent → Bool
  | .optionSet .. | .entered _ => true
  | _ => false

section Outcomes

variable {reply : ReplyId} {tr es : List IoEvent}

theorem outcomes_append : outcomes reply (tr ++ es) = outcomes reply tr ++ outcomes reply es :=
  List.filterMap_append

theorem outcomes_eq_nil (h : ∀ x ∈ es, x.outcome reply = none) : outcomes reply es = [] :=
  List.filterMap_eq_nil_iff.mpr h

theorem outcomes_plain (h : ∀ x ∈ es, x.isPlain = true) : outcomes reply es = [] := by
  refine outcomes_eq_nil fun x hx => ?_
  have hp := h x hx
  cases x with
  | answered | unanswered => cases hp
  | _ => rfl

theorem mem_outcomes {a : Reply} (h : .answered reply a ∈ tr) : .answer a ∈ outcomes reply tr :=
  List.mem_filterMap.mpr ⟨_, h, by simp [IoEvent.outcome]⟩

end Outcomes

namespace Bridge

/-- No connect waits with the oneshot, and `told` is what its receiver has been told. -/
structure OneshotIs (reply : ReplyId) (told : List (Awaited Reply)) (b : Bridge) : Prop where
  free : ∀ i, b.connectReply i ≠ some reply
  told : outcomes reply b.trace = told

section Oneshots

variable {lib : Libsrt} {b b' : Bridge} {reply : ReplyId} {told : List (Awaited Reply)}

theorem OneshotIs.keep {es : List IoEvent} (h : OneshotIs reply told b)
    (hes : outcomes reply es = []) (hw : ∀ i, b'.connectReply i = some reply → ∃ j, b.connectReply j = some reply)
    (ht : b'.trace = b.trace ++ es) : OneshotIs reply told b' := by
  refine ⟨fun i hi => ?_, ?_⟩
  · obtain ⟨j, hj⟩ := hw i hi
    exact h.free j hj
  · rw [ht, outcomes_append, hes, List.append_nil, h.told]

/-- A change lets go of the connect that waits on its entry only. -/
theorem Change.unanswered {s : IoStep} {n : ℕ} {e₀ e new : Option SocketState} {i : SocketId}
    {es : List IoEvent} (h : Change lib s n e₀ i e new es) (hr : .unanswered reply ∈ es) :
    e.bind SocketState.connectReply = some reply := by
  cases h with
  | await => simpa using hr
  | watch hes =>
    obtain ⟨m, hm⟩ := hes _ hr
    cases hm
  | close hpre hcl =>
    rename_i e pre post
    have hpost : .unanswered reply ∈ post := by
      simp only [List.mem_append, List.mem_cons, reduceCtorEq, false_or] at hr
      exact hr.resolve_left fun hmem => by simpa [IoEvent.isPlain] using hpre _ hmem
    cases hcl with
    | listen => simpa using hpost
    | close | shutdown | reaped => simp at hpost
  | _ => simp at hr

/-- Only the command that carries a oneshot has anything told to its receiver. -/
theorem oneshot_keeps :
    Keeps lib (fun _ s => ∀ cmd, s = .command cmd → cmd.reply ≠ some reply) (OneshotIs reply told) where
  moved := by
    intro b₀ s b b' hok _ _ hm h
    have hsame (he : ∀ i, b'.entry i = b.entry i) (i : SocketId) (hi : b'.connectReply i = some reply) :
        ∃ j, b.connectReply j = some reply := by
      unfold connectReply at hi
      rw [he] at hi
      exact ⟨i, hi⟩
    cases hm with
    | note hes he ht => exact h.keep (outcomes_plain hes) (hsame he) ht
    | answer hs hr hx =>
      refine h.keep ?_ (hsame fun _ => rfl) rfl
      have hne := hok _ hs
      rw [hr, ne_eq, Option.some.injEq] at hne
      rcases hx with rfl | ⟨a, rfl⟩ <;> simp [outcomes, IoEvent.outcome, hne]
    | arm | subscribe | listening | accepted =>
      exact h.keep (by simp [outcomes, IoEvent.outcome]) (hsame fun _ => rfl) rfl
    | change hch he ht hc =>
      rename_i i new es
      have hfree : (b.entry i).bind SocketState.connectReply ≠ some reply := h.free i
      obtain ⟨hcount, hw⟩ := (hch.answers hok).resolve_right fun hno => hfree hno.1
      refine h.keep (outcomes_eq_nil fun x hx => ?_) (fun i' hi' => ?_) ht
      · cases x with
        | answered r a =>
          have hne := List.countP_eq_zero.mp hcount _ hx
          simpa [IoEvent.outcome, IoEvent.answers] using hne
        | unanswered r =>
          refine if_neg ?_
          rintro rfl
          exact hfree (hch.unanswered hx)
        | _ => rfl
      · unfold connectReply at hi'
        rw [he] at hi'
        split_ifs at hi' with hi
        · exact absurd (hw hi') hfree
        · exact ⟨i', hi'⟩
    | take =>
      exact h.keep (by simp [outcomes, IoEvent.outcome]) (hsame fun _ => entry_deliver ..) (trace_deliver _)
    | send =>
      rename_i i _
      obtain ⟨es, ht, hes⟩ := trace_handleSend lib b i
      obtain ⟨l, hl⟩ := entry_handleSend lib b i
      refine h.keep (outcomes_eq_nil fun x hx => ?_) (fun i' hi' => ?_) ht
      · obtain ⟨data, ok, rfl⟩ := hes x hx
        rfl
      · unfold connectReply at hi'
        rw [hl] at hi'
        split_ifs at hi' with hi
        · rw [Option.bind_map] at hi'
          exact ⟨i, hi'⟩
        · exact ⟨i', hi'⟩
    | handOver => exact h.keep rfl (hsame fun _ => rfl) (List.append_nil _).symm
  tokio := by
    intro b t h
    cases t <;> exact ⟨h.free, h.told⟩
  same := by
    intro b b' he ht _ h
    have hnone : outcomes reply [] = [] := rfl
    refine h.keep hnone (fun i hi => ⟨i, ?_⟩) (by rw [ht, List.append_nil])
    unfold connectReply at hi ⊢
    rw [← he]
    exact hi

theorem OneshotIs.answer {es : List IoEvent} {a : Reply} (h : OneshotIs reply told b)
    (hes : outcomes reply es = []) (hw : ∀ i, b'.connectReply i = some reply → ∃ j, b.connectReply j = some reply)
    (ht : b'.trace = b.trace ++ (es ++ [.answered reply a])) :
    OneshotIs reply (told ++ [.answer a]) b' := by
  refine ⟨fun i hi => ?_, ?_⟩
  · obtain ⟨j, hj⟩ := hw i hi
    exact h.free j hj
  · rw [ht, outcomes_append, outcomes_append, hes, h.told]
    simp [outcomes, IoEvent.outcome]

end Oneshots

section Creation

variable {lib : Libsrt} {call : OpenCall} {c : CallEnds} {b b' : Bridge}

theorem setup_options (lib : Libsrt) (k : ℕ) (id : SocketId) (calls : List OptCall) :
    ∀ x ∈ (setOpts lib k id calls).map fun o => IoEvent.optionSet id o.1 o.2, x.isSetup = true :=
  List.forall_mem_map.mpr fun _ _ => rfl

theorem createSocket_eq (config : SrtConfig) (reply : ReplyId) (h : 0 ≤ lib.createSocket b.step) : ∃ es,
    (b.createSocket lib config reply).trace = b.trace ++ (.created (lib.createSocket b.step) :: es ++
      [.answered reply (.socket (.ok (lib.createSocket b.step)))]) ∧ (∀ x ∈ es, x.isSetup = true) ∧
    ∀ i, (b.createSocket lib config reply).entry i = b.entry i := by
  unfold createSocket
  dsimp only
  rw [if_neg (not_lt.mpr h)]
  set sock := lib.createSocket b.step
  refine ⟨((setOpts lib b.step sock nonBlocking).map fun o => .optionSet sock o.1 o.2) ++
    (setOpts lib b.step sock (applyConfig config)).map fun o => .optionSet sock o.1 o.2,
    by simp [setOptions, answer, emit, emits], fun x hx => ?_, fun i => rfl⟩
  exact (List.mem_append.mp hx).elim (setup_options _ _ _ _ x) (setup_options _ _ _ _ x)

/-- A group is created, put into the map, and reported. -/
theorem createGroup_eq {mode : GroupType} (config : SrtConfig) (reply : ReplyId)
    (h : 0 ≤ lib.createGroup b.step mode) : ∃ es,
      (b.createGroup lib mode config reply).trace = b.trace ++ (.created (lib.createGroup b.step mode) :: es ++
        [.answered reply (.socket (.ok (lib.createGroup b.step mode)))]) ∧ (∀ x ∈ es, x.isSetup = true) ∧
      ∀ i, (b.createGroup lib mode config reply).entry i =
        if i = lib.createGroup b.step mode then some (.freshGroup (mode = .backup)) else b.entry i := by
  unfold createGroup
  dsimp only
  rw [if_neg (not_lt.mpr h)]
  set grp := lib.createGroup b.step mode
  refine ⟨((setOpts lib b.step grp nonBlocking).map fun o => .optionSet grp o.1 o.2) ++
    ((setOpts lib b.step grp (applyConfig config)).map fun o => .optionSet grp o.1 o.2) ++ [.entered grp],
    by simp [setOptions, answer, emit, emits, enter, setEntry], fun x hx => ?_, fun i => ?_⟩
  · simp only [List.mem_append, List.mem_singleton] at hx
    rcases hx with (hx | hx) | rfl
    · exact setup_options _ _ _ _ x hx
    · exact setup_options _ _ _ _ x hx
    · rfl
  · rw [entry_answer, entry_enter]
    rfl

/-- The command that creates what a call opens is answered with `result`. -/
structure Creates (call : OpenCall) (c : CallEnds) (b : Bridge) (result : Except SrtError SocketId)
    (b' : Bridge) : Prop where
  told : ∀ {told}, OneshotIs c.create told b → OneshotIs c.create (told ++ [.answer (.socket result)]) b'
  made : ∀ id, result = .ok id → 0 ≤ id ∧ b'.entry id = call.entered.or (b.entry id) ∧
    ∃ es, b'.trace = b.trace ++ es ∧ .created id ∈ es ∧ statuses id es = []

theorem Creates.refused {reply : SrtError} (h : b' = b.answer c.create (.socket (.error reply))) :
    Creates call c b (.error reply) b' := by
  subst h
  have hnone : outcomes c.create [] = [] := rfl
  exact ⟨fun ho => ho.answer hnone (fun i hi => ⟨i, hi⟩) rfl, fun _ he => (by cases he)⟩

theorem Creates.taken {id : SocketId} {es : List IoEvent} (h0 : 0 ≤ id)
    (ht : b'.trace = b.trace ++ (.created id :: es ++ [.answered c.create (.socket (.ok id))]))
    (hes : ∀ x ∈ es, x.isSetup = true) (hent : b'.entry id = call.entered.or (b.entry id))
    (hw : ∀ i, b'.connectReply i = some c.create → ∃ j, b.connectReply j = some c.create) :
    Creates call c b (.ok id) b' := by
  have hquiet : ∀ x ∈ .created id :: es, x.outcome c.create = none ∧ x.status? id = none := by
    intro x hx
    rcases List.mem_cons.mp hx with rfl | hx
    · exact ⟨rfl, rfl⟩
    · have := hes x hx
      cases x with
      | optionSet | entered => exact ⟨rfl, rfl⟩
      | _ => contradiction
  refine ⟨fun ho => ho.answer (outcomes_eq_nil fun x hx => (hquiet x hx).1) hw ht, fun i hi => ?_⟩
  obtain rfl := Except.ok.inj hi
  refine ⟨h0, hent, _, ht, by simp, ?_⟩
  rw [statuses_append, statuses_eq_nil fun x hx => (hquiet x hx).2]
  rfl

theorem create_creates (lib : Libsrt) (call : OpenCall) (c : CallEnds) (b : Bridge) :
    ∃ result, Creates call c b result (b.processCommand lib (call.createCommand c)) := by
  have hsocket (config : SrtConfig) (hcall : call.entered = none) :
      ∃ result, Creates call c b result (b.createSocket lib config c.create) := by
    by_cases hneg : lib.createSocket b.step < 0
    · exact ⟨_, .refused (if_pos hneg)⟩
    · obtain ⟨es, ht, hes, hent⟩ := createSocket_eq config c.create (not_lt.mp hneg)
      refine ⟨_, .taken (not_lt.mp hneg) ht hes (by rw [hent, hcall]; rfl) fun i hi => ⟨i, ?_⟩⟩
      unfold connectReply at hi ⊢
      rw [← hent]
      exact hi
  cases call with
  | socket sb remote => exact hsocket sb.config rfl
  | listener lb addr => exact hsocket lb.config rfl
  | group gb =>
    by_cases hneg : lib.createGroup b.step gb.mode < 0
    · exact ⟨_, .refused (if_pos hneg)⟩
    · obtain ⟨es, ht, hes, hent⟩ := createGroup_eq gb.config c.create (not_lt.mp hneg)
      refine ⟨_, .taken (not_lt.mp hneg) ht hes ((hent _).trans (if_pos rfl)) fun i hi => ⟨i, ?_⟩⟩
      have hi' : ((b.createGroup lib gb.mode gb.config c.create).entry i).bind SocketState.connectReply =
          some c.create := hi
      rw [hent] at hi'
      split_ifs at hi'
      · cases hi'
      · exact hi'

end Creation

def createdIds (tr : List IoEvent) : List SocketId :=
  tr.filterMap fun | .created id => some id | _ => none

/-- libsrt has given the id to one new socket or group at most. -/
def GivenOnce (id : SocketId) (tr : List IoEvent) : Prop :=
  (createdIds tr).count id ≤ 1

/-- The step is no shutdown, and creates no group that is given the id. -/
def Undisturbed (lib : Libsrt) (id : SocketId) (b : Bridge) (s : IoStep) : Prop :=
  s ≠ .command .shutdown ∧
    ∀ mode config reply, s = .command (.createGroup mode config reply) → lib.createGroup b.step mode ≠ id

section Fresh

variable {lib : Libsrt} {c : CallEnds} {b : Bridge} {id : SocketId} {as : List Action}

theorem mem_createdIds {tr : List IoEvent} (h : .created id ∈ tr) : id ∈ createdIds tr :=
  List.mem_filterMap.mpr ⟨_, h, rfl⟩

theorem givenOnce_append {tr es : List IoEvent} :
    GivenOnce id (tr ++ es) ↔ (createdIds tr).count id + (createdIds es).count id ≤ 1 := by
  unfold GivenOnce
  rw [show createdIds (tr ++ es) = createdIds tr ++ createdIds es from List.filterMap_append,
    List.count_append]

theorem GivenOnce.left {tr es : List IoEvent} (h : GivenOnce id (tr ++ es)) : GivenOnce id tr :=
  le_trans (Nat.le_add_right ..) (givenOnce_append.mp h)

theorem GivenOnce.of_prefix {tr tr' : List IoEvent} (h : GivenOnce id tr') (hp : tr <+: tr') :
    GivenOnce id tr := by
  obtain ⟨es, rfl⟩ := hp
  exact h.left

theorem GivenOnce.not_mem {tr es : List IoEvent} (h : GivenOnce id (tr ++ es)) (ht : .created id ∈ tr) :
    .created id ∉ es := by
  intro hes
  have hfirst := List.count_pos_iff.mpr (mem_createdIds ht)
  have hsecond := List.count_pos_iff.mpr (mem_createdIds hes)
  have hsum := givenOnce_append.mp h
  omega

/-- An id that was given out is not given out again, and a thread that still runs was not shut
down. -/
theorem undisturbed (hr : (b.run lib as).running = true) (hc : .created id ∈ b.trace) (h0 : 0 ≤ id)
    (hn : GivenOnce id (b.run lib as).trace) : StepsMeet lib (Undisturbed lib id) b as := by
  refine along_iff.mpr fun pre a post hsplit => ?_
  match a with
  | .tokio _ | .elapse _ => trivial
  | .io s =>
    intro hrun
    change (b.run lib pre).running = true at hrun
    have hrest : b.run lib as = ((b.run lib pre).act lib (.io s)).run lib post := by
      rw [hsplit]
      exact run_append b pre (.io s :: post)
    refine ⟨?_, ?_⟩
    · rintro rfl
      rw [hrest] at hr
      have hstop : ((b.run lib pre).act lib (.io (.command .shutdown))).running = false := by
        show (if (b.run lib pre).running = true then _ else b.run lib pre).running = false
        rw [if_pos hrun]
        rfl
      rw [running_of_run hr] at hstop
      cases hstop
    · rintro mode config reply rfl hid
      change lib.createGroup (b.run lib pre).step mode = id at hid
      obtain ⟨es, ht, -⟩ := createGroup_eq (b := b.run lib pre) config reply (hid ▸ h0)
      obtain ⟨more, hmore⟩ := trace_run_grows lib
        ((b.run lib pre).act lib (.io (.command (.createGroup mode config reply)))) post
      obtain ⟨first, hfirst⟩ := trace_run_grows lib b pre
      rw [hrest, ← hmore, trace_act hrun] at hn
      have hmade : GivenOnce id ((b.run lib pre).createGroup lib mode config reply).trace := hn.left
      rw [ht, ← hfirst] at hmade
      exact hmade.not_mem (List.mem_append_left _ hc) (by simp [hid])

/-- The id has not been given out, and nothing has happened to it. -/
def Untouched (id : SocketId) (e : Option SocketState) (tr : List IoEvent) : Prop :=
  e = none ∧ statuses id tr = [] ∨ .created id ∈ tr

theorem untouched_keeps :
    KeepsEntry lib (fun b s => makesEntry lib b.step id s = false) id (Untouched id) where
  note := by
    rintro b₀ s e tr x - hx (⟨he, hst⟩ | hc)
    · refine .inl ⟨he, ?_⟩
      rw [statuses_append, hst, statuses_eq_nil (by simpa using (x.quiet id hx.aside).2.1)]
      rfl
    · exact .inr (List.mem_append_left _ hc)
  backlog := by
    rintro e tr l (⟨he, -⟩ | hc)
    · cases he
    · exact .inr hc
  change := by
    rintro b₀ s e new es tr hok - - hch (⟨rfl, -⟩ | hc)
    · cases hch with
      | enter hent =>
        cases hent with
        | socket hs | listener hs => simp [makesEntry, hs] at hok
        | group hs hid => simp [makesEntry, hs, hid] at hok
    · exact .inr (List.mem_append_left _ hc)

/-- Whatever is not about the id makes no entry of it, but for creating a group that is given it. -/
theorem makesEntry_of_apart {s : IoStep} (ha : Apart (c.owns id) (.io s)) {k : ℕ}
    (hg : ∀ mode config reply, s = .command (.createGroup mode config reply) → lib.createGroup k mode ≠ id) :
    makesEntry lib k id s = false := by
  cases s with
  | command cmd =>
    have hnot := ha cmd rfl
    cases cmd with
    | registerSocket i r d t | registerListener i a ac =>
      simpa [makesEntry, CallEnds.owns, IoCommand.subject, IoCommand.reply] using hnot
    | createGroup mode config reply => simpa [makesEntry] using hg mode config reply rfl
    | _ => rfl
  | _ => rfl

theorem untouched_run (h : Untouched id (b.entry id) b.trace)
    (ha : ∀ a ∈ as, Apart (c.owns id) a) (h0 : 0 ≤ id) :
    Untouched id ((b.run lib as).entry id) (b.run lib as).trace := by
  induction as generalizing b with
  | nil => exact h
  | cons a as ih =>
    refine ih ?_ fun a' h' => ha a' (List.mem_cons_of_mem _ h')
    by_cases hid : ∃ mode config reply, a = .io (.command (.createGroup mode config reply)) ∧
        b.running = true ∧ lib.createGroup b.step mode = id
    · obtain ⟨mode, config, reply, rfl, hr, hid⟩ := hid
      obtain ⟨es, ht, -⟩ := createGroup_eq (b := b) config reply (hid ▸ h0)
      refine .inr ?_
      rw [trace_act hr]
      change _ ∈ (b.createGroup lib mode config reply).trace
      rw [ht, hid]
      simp
    · refine untouched_keeps.keeps.act ?_ h
      match a with
      | .tokio _ | .elapse _ => trivial
      | .io s =>
        intro hr
        refine makesEntry_of_apart (ha _ (List.mem_cons_self ..)) fun mode config reply hs he => ?_
        exact hid ⟨mode, config, reply, by rw [hs], hr, he⟩

theorem oneshot_start (reply : ReplyId) : OneshotIs reply [] start := ⟨fun _ h => (by cases h), rfl⟩

theorem OneshotIs.run {reply : ReplyId} {told : List (Awaited Reply)} (h : OneshotIs reply told b)
    (ha : ∀ a ∈ as, ∀ cmd, a = .io (.command cmd) → cmd.reply ≠ some reply) :
    OneshotIs reply told (b.run lib as) := by
  have hall : Along (act lib) (fun _ a => ∀ cmd, a = .io (.command cmd) → cmd.reply ≠ some reply) b as :=
    along_of_forall ha
  refine oneshot_keeps.run (hall.mono fun b a h => ?_) h
  match a with
  | .io s => exact fun _ cmd hs => h cmd (by rw [hs])
  | .tokio _ | .elapse _ => trivial

theorem reply_of_apart {reply : ReplyId} (hr : reply ∈ c.replies) {a : Action} (ha : Apart (c.owns id) a)
    (cmd : IoCommand) (hs : a = .io (.command cmd)) : cmd.reply ≠ some reply := by
  intro he
  have hnot := ha cmd hs
  simp [CallEnds.owns, he, hr] at hnot

/-- The commands carried out have nothing told to the receiver of a oneshot none of them carries. -/
theorem OneshotIs.serves {reply : ReplyId} {told : List (Awaited Reply)} {cmds : List IoCommand} {b' : Bridge}
    (h : OneshotIs reply told b) (hr : reply ∈ c.replies) (hs : Serves lib (c.owns id) b cmds b')
    (hcmds : ∀ cmd ∈ cmds, cmd.reply ≠ some reply) : OneshotIs reply told b' := by
  obtain ⟨as, rfl, ha⟩ := hs.run
  refine h.run fun a hmem cmd he => ?_
  rcases ha a hmem with ha | ⟨cmd', hmem', he'⟩
  · exact reply_of_apart hr ha cmd he
  · obtain rfl : cmd' = cmd := by simpa using he'.symm.trans he
    exact hcmds cmd' hmem'

theorem oneshot_act {reply : ReplyId} {told : List (Awaited Reply)} {s : IoStep} (hr : b.running = true)
    (h : OneshotIs reply told (b.ioStep lib s)) : OneshotIs reply told (b.act lib (.io s)) := by
  refine ⟨fun i hi => h.free i ?_, by rw [trace_act hr]; exact h.told⟩
  unfold connectReply at hi ⊢
  rw [← entry_act hr]
  exact hi

/-- The thread has created what the call opens, and nothing has happened to it since. -/
structure Opened (call : OpenCall) (c : CallEnds) (id : SocketId) (b : Bridge) : Prop where
  nonneg : 0 ≤ id
  created : .created id ∈ b.trace
  entry : b.entry id = call.entered
  unread : statuses id b.trace = []
  told : ∀ reply ∈ c.replies, reply ≠ c.create → OneshotIs reply [] b

/-- A call that has been given the id, and nobody else has: what was created for it is new. -/
theorem serves_created {call : OpenCall} {cmds : List IoCommand}
    (h : Serves lib (c.owns id) start (call.createCommand c :: cmds) b) (hr : b.running = true)
    (hcmds : ∀ cmd ∈ cmds, cmd.reply ≠ some c.create)
    (hin : .answered c.create (.socket (.ok id)) ∈ b.trace) (hn : GivenOnce id b.trace) :
    outcomes c.create b.trace = [.answer (.socket (.ok id))] ∧
      ∃ b₁, Opened call c id b₁ ∧ Serves lib (c.owns id) b₁ cmds b := by
  obtain ⟨as, ha, hs⟩ := h
  set b₀ := start.run lib as
  have hrun : b₀.running = true := running_of_act (hs.running hr)
  have hcreate : c.create ∈ c.replies := List.mem_cons_self ..
  have hreply : (call.createCommand c).reply = some c.create := by cases call <;> rfl
  obtain ⟨result, hcr⟩ := create_creates lib call c b₀
  have hfirst {reply : ReplyId} (hmem : reply ∈ c.replies) : OneshotIs reply [] b₀ :=
    (oneshot_start reply).run fun a hmem' => reply_of_apart hmem (ha a hmem')
  have htold : OneshotIs c.create [.answer (.socket result)]
      (b₀.act lib (.io (.command (call.createCommand c)))) := oneshot_act hrun (hcr.told (hfirst hcreate))
  have hall := (htold.serves hcreate hs hcmds).told
  have hmem := mem_outcomes hin
  rw [hall] at hmem
  obtain rfl : result = .ok id := by simpa [eq_comm] using hmem
  obtain ⟨h0, hent, es, ht, hmade, hst⟩ := hcr.made id rfl
  -- had the id been given out before, it would have been given out twice
  have hnew : b₀.entry id = none ∧ statuses id b₀.trace = [] := by
    have hun : Untouched id (b₀.entry id) b₀.trace := untouched_run (.inl ⟨rfl, rfl⟩) ha h0
    refine hun.resolve_right fun hbefore => ?_
    obtain ⟨more, rfl, -⟩ := hs.run
    obtain ⟨rest, hrest⟩ := trace_run_grows lib
      (b₀.act lib (.io (.command (call.createCommand c)))) more
    rw [← hrest, trace_act hrun] at hn
    have hfirst : GivenOnce id (b₀.processCommand lib (call.createCommand c)).trace := hn.left
    rw [ht] at hfirst
    exact hfirst.not_mem hbefore hmade
  refine ⟨hall, _, ⟨h0, ?_, ?_, ?_, fun reply hmem hne => ?_⟩, hs⟩
  · rw [trace_act hrun]
    exact ht ▸ List.mem_append_right _ hmade
  · rw [entry_act hrun]
    exact hent.trans (by rw [hnew.1, Option.or_none])
  · rw [trace_act hrun]
    change statuses id (b₀.processCommand lib (call.createCommand c)).trace = []
    rw [ht, statuses_append, hnew.2, hst]
    rfl
  · have hstep : ∀ a ∈ [Action.io (.command (call.createCommand c))], ∀ cmd, a = .io (.command cmd) →
        cmd.reply ≠ some reply := by
      intro a ha' cmd he
      obtain rfl : call.createCommand c = cmd := by simpa using (List.mem_singleton.mp ha').symm.trans he
      rw [hreply]
      simpa using hne.symm
    exact (hfirst hmem).run hstep

end Fresh

section Keeping

variable {lib : Libsrt} {c : CallEnds} {b : Bridge} {id : SocketId} {cmds : List IoCommand}

/-- The step carries out one of the commands, or is not about the id. -/
def CarriesOut (lib : Libsrt) (c : CallEnds) (id : SocketId) (cmds : List IoCommand) (b : Bridge)
    (s : IoStep) : Prop :=
  Undisturbed lib id b s ∧ (Apart (c.owns id) (.io s) ∨ ∃ cmd ∈ cmds, s = .command cmd)

theorem serves_carriesOut {b' : Bridge} (h : Serves lib (c.owns id) b cmds b') (hr : b'.running = true)
    (h0 : 0 ≤ id) (hc : .created id ∈ b.trace) (hn : GivenOnce id b'.trace) :
    ∃ as, b' = b.run lib as ∧ StepsMeet lib (CarriesOut lib c id cmds) b as := by
  obtain ⟨as, rfl, ha⟩ := h.run
  have hall : Along (act lib) (fun _ a => Apart (c.owns id) a ∨ ∃ cmd ∈ cmds, a = .io (.command cmd)) b as :=
    along_of_forall ha
  refine ⟨as, rfl, (Along.and (undisturbed hr hc h0 hn) hall).mono fun b a hm => ?_⟩
  match a with
  | .io s =>
    refine fun hrun => ⟨hm.1 hrun, hm.2.imp_right fun ⟨cmd, hmem, he⟩ => ⟨cmd, hmem, ?_⟩⟩
    exact Action.io.inj he
  | .tokio _ | .elapse _ => trivial

/-- A command about the id is one of those carried out. -/
theorem CarriesOut.own {s : IoStep} {cmd : IoCommand} (h : CarriesOut lib c id cmds b s)
    (hs : s = .command cmd) (hid : cmd.subject = some id) : cmd ∈ cmds := by
  rcases h.2 with ha | ⟨cmd', hmem, he⟩
  · have hnot := ha cmd (by rw [hs])
    simp [CallEnds.owns, hid] at hnot
  · obtain rfl : cmd' = cmd := by simpa using he.symm.trans hs
    exact hmem

/-- What was created for the id has been closed since, and is not in the map. -/
def Gone (id : SocketId) (e : Option SocketState) (tr : List IoEvent) : Prop :=
  e = none ∧ List.Sublist [.created id, .closed id] tr

theorem Gone.append {e : Option SocketState} {tr : List IoEvent} (h : Gone id e tr) (es : List IoEvent) :
    Gone id e (tr ++ es) :=
  ⟨h.1, h.2.trans (List.sublist_append_left ..)⟩

theorem Enters.registers {s : IoStep} {e : Option SocketState} {fresh : SocketState}
    (h : Enters lib s b.step (b.entry id) id e fresh) (hok : CarriesOut lib c id cmds b s) :
    ∃ cmd ∈ cmds, IoCommand.registers cmd = true := by
  cases h with
  | socket hs | listener hs => exact ⟨_, hok.own hs rfl, rfl⟩
  | group hs hid => exact absurd hid (hok.1.2 _ _ _ hs)

theorem gone_keeps (hcmds : ∀ cmd ∈ cmds, IoCommand.registers cmd = false) :
    KeepsEntry lib (CarriesOut lib c id cmds) id (Gone id) where
  note _ _ h := h.append _
  backlog _ h := by cases h.1
  change := by
    rintro b₀ s e new es tr hok - - hch ⟨rfl, hsub⟩
    cases hch with
    | enter hent =>
      obtain ⟨cmd, hmem, hr⟩ := hent.registers hok
      rw [hcmds cmd hmem] at hr
      cases hr

def Stays (e : Option SocketState) : Prop :=
  ∃ s, e = some s ∧ (s.isListener = true ∨ s.isGroup = true)

/-- A listener or a group stays in the map until it is closed, or cannot listen. -/
theorem stays_keeps
    (hcmds : ∀ cmd ∈ cmds, cmd ≠ .close id ∧ ∀ backlog reply, cmd ≠ .listen id backlog reply) :
    KeepsEntry lib (CarriesOut lib c id cmds) id fun e _ => Stays e where
  note _ _ h := h
  backlog := by
    rintro e tr l ⟨s, he, hs⟩
    obtain rfl := Option.some.inj he
    exact ⟨_, rfl, hs⟩
  change := by
    rintro b₀ s e new es tr hok ⟨e₀, he₀, -⟩ - hch ⟨s', rfl, hk⟩
    cases hch with
    | enter hent =>
      cases hent with
      | group hs hid => exact absurd hid (hok.1.2 _ _ _ hs)
    | register | provide | fail | watch => exact ⟨_, rfl, hk⟩
    | record | await | complete => exact ⟨_, rfl, by simpa using hk⟩
    | listen hs => exact absurd rfl ((hcmds _ (hok.own hs rfl)).2 _ _)
    | close hpre hcl =>
      cases hcl with
      | listen hs => exact absurd rfl ((hcmds _ (hok.own hs rfl)).2 _ _)
      | close hs => exact absurd rfl (hcmds _ (hok.own hs rfl)).1
      | shutdown hs => exact absurd hs hok.1.1
      | reaped _ _ hl hg => rcases hk with hk | hk <;> simp [hk] at hl hg

/-- A socket that is neither a listener nor a group, with its channel and its last status. -/
structure Enlisted (c : CallEnds) (id : SocketId) (s : SocketState) (tr : List IoEvent) : Prop where
  listener : s.isListener = false
  group : s.isGroup = false
  recv : s.recvTx = none ∨ s.recvTx = some c.recv
  last : s.lastStatus = (statuses id tr).getLast?.getD .init

theorem Enlisted.keep {s s' : SocketState} {tr es : List IoEvent} (h : Enlisted c id s tr)
    (hl : s'.isListener = s.isListener) (hg : s'.isGroup = s.isGroup)
    (hr : s'.recvTx = none ∨ s'.recvTx = s.recvTx ∨ s'.recvTx = some c.recv)
    (hq : s'.lastStatus = (statuses id es).getLast?.getD s.lastStatus) : Enlisted c id s' (tr ++ es) := by
  refine ⟨hl.trans h.listener, hg.trans h.group, ?_, ?_⟩
  · rcases hr with hr | hr | hr
    · exact .inl hr
    · exact hr ▸ h.recv
    · exact .inr hr
  · rw [hq, h.last, statuses_append, List.getLast?_append]
    cases (statuses id es).getLast? <;> rfl

theorem Enlisted.note {s : SocketState} {tr : List IoEvent} {x : IoEvent} (h : Enlisted c id s tr)
    (hx : x.isNote = true ∨ x.subject ≠ some id) : Enlisted c id s (tr ++ [x]) := by
  refine h.keep rfl rfl (.inr (.inl rfl)) ?_
  rw [statuses_eq_nil (by simpa using (x.quiet id hx).2.1)]
  rfl

/-- A socket that has been registered: in the map, or closed. -/
def EnlistedOrGone (c : CallEnds) (id : SocketId) (e : Option SocketState) (tr : List IoEvent) : Prop :=
  (∃ s, e = some s ∧ Enlisted c id s tr) ∨ Gone id e tr

theorem recvTx_updateStatus (s : SocketState) (q : SocketStatus) :
    (s.updateStatus q).recvTx = none ∨ (s.updateStatus q).recvTx = s.recvTx := by
  cases ht : isTerminalStatus q with
  | true =>
    left
    simp [SocketState.updateStatus, ht]
  | false => exact .inr (SocketState.updateStatus_channels ht).1

/-- What becomes of a socket's entry: it is still one, or has been closed. -/
theorem Change.enlisted {s : IoStep} {e : SocketState} {new : Option SocketState} {es tr : List IoEvent}
    (h : Change lib s b.step (b.entry id) id (some e) new es) (hk : Enlisted c id e tr)
    (hgroup : ∀ mode config reply, s = .command (.createGroup mode config reply) →
      lib.createGroup b.step mode ≠ id)
    (hreg : ∀ r d t, s = .command (.registerSocket id r d t) → r = c.recv)
    (hlisten : ∀ backlog reply, s ≠ .command (.listen id backlog reply)) :
    (∃ e', new = some e' ∧ Enlisted c id e' (tr ++ es)) ∨ new = none ∧ .closed id ∈ es := by
  have hrecord (s : SocketState) (q : SocketStatus) (hl : s.isListener = e.isListener)
      (hg : s.isGroup = e.isGroup) (hr : s.recvTx = e.recvTx) (hq : statuses id es = [q]) :
      Enlisted c id (s.updateStatus q) (tr ++ es) := by
    refine hk.keep (by simpa using hl) (by simpa using hg) ?_ (by simp [hq])
    rw [← hr]
    exact (recvTx_updateStatus s q).imp_right .inl
  cases h with
  | enter hent =>
    cases hent with
    | group hs hid => exact absurd hid (hgroup _ _ _ hs)
  | register hs =>
    obtain rfl := hreg _ _ _ hs
    exact .inl ⟨_, rfl, hk.keep rfl rfl (.inr (.inr rfl)) rfl⟩
  | provide | fail => exact .inl ⟨_, rfl, hk.keep rfl rfl (.inr (.inl rfl)) rfl⟩
  | record => exact .inl ⟨_, rfl, hrecord e _ rfl rfl rfl (by simp [statuses, IoEvent.status?])⟩
  | listen hs => exact absurd hs (hlisten _ _)
  | await =>
    refine .inl ⟨_, rfl, hrecord _ _ rfl rfl rfl ?_⟩
    cases e.connectReply <;> simp [statuses, IoEvent.status?, List.filterMap_cons]
  | complete =>
    exact .inl ⟨_, rfl, hrecord _ _ rfl rfl rfl (by simp [statuses, IoEvent.status?, List.filterMap_cons])⟩
  | watch hes =>
    refine .inl ⟨_, rfl, hk.keep rfl rfl (.inr (.inl rfl)) ?_⟩
    rw [statuses_eq_nil fun x hx => ?_]
    · rfl
    · obtain ⟨m, rfl⟩ := hes x hx
      rfl
  | close => exact .inr ⟨rfl, by simp⟩

theorem enlistedOrGone_keeps (hcmds : ∀ cmd ∈ cmds, OpenCall.SocketCommand c id cmd) :
    KeepsEntry lib (CarriesOut lib c id cmds) id fun e tr =>
      .created id ∈ tr ∧ EnlistedOrGone c id e tr where
  note := by
    rintro b₀ s e tr x - hx ⟨hc, ⟨s', rfl, hh⟩ | hg⟩
    · exact ⟨List.mem_append_left _ hc, .inl ⟨s', rfl, hh.note hx.aside⟩⟩
    · exact ⟨List.mem_append_left _ hc, .inr (hg.append _)⟩
  backlog := by
    rintro e tr l ⟨hc, ⟨s, he, hh⟩ | hg⟩
    · obtain rfl := Option.some.inj he
      exact ⟨hc, .inl ⟨_, rfl, hh.listener, hh.group, hh.recv, hh.last⟩⟩
    · cases hg.1
  change := by
    rintro b₀ s e new es tr hok - - hch ⟨hc, ⟨s', rfl, hh⟩ | hg⟩
    · refine ⟨List.mem_append_left _ hc, ?_⟩
      have hnot {cmd : IoCommand} (hs : s = .command cmd) (hid : cmd.subject = some id)
          (hno : ¬OpenCall.SocketCommand c id cmd) : False := hno (hcmds cmd (hok.own hs hid))
      rcases hch.enlisted hh hok.1.2 (fun r d t hs => (hnot hs rfl (by simp [OpenCall.SocketCommand])).elim)
        (fun backlog reply hs => hnot hs rfl (by simp [OpenCall.SocketCommand])) with hkept | ⟨rfl, hcl⟩
      · exact .inl hkept
      · refine .inr ⟨rfl, ?_⟩
        exact (List.singleton_sublist.mpr hc).append (List.singleton_sublist.mpr hcl)
    · obtain ⟨rfl, -⟩ := hg
      cases hch with
      | enter hent =>
        obtain ⟨cmd, hmem, hr⟩ := hent.registers hok
        rcases hcmds cmd hmem with ⟨addr, rfl⟩ | ⟨addr, rfl⟩ | rfl | rfl | rfl <;> cases hr

end Keeping

end Bridge

end SrtBridge
