import SrtBridge.Bridge.Steps
import SrtBridge.General.Runs

/-! Invariants of the I/O thread's runs. What each move keeps, and what the Tokio tasks
keep, every run keeps; for a single entry, what each of its changes keeps. -/

namespace SrtBridge

open General

namespace Bridge

section Traces

variable {lib : Libsrt} {s : IoStep} {n : ℕ} {e₀ : Option SocketState} {i : SocketId}

/-- The events of a change are notes, answers, or about its entry. -/
theorem Change.events {e new : Option SocketState} {es : List IoEvent}
    (h : Change lib s n e₀ i e new es) : ∀ x ∈ es,
      (x.isPlain = true ∨ x.isReply = true) ∨ x.isNote = false ∧ x.subject = some i := by
  cases h with
  | enter | register | record | listen => simp [IoEvent.isNote, IoEvent.subject]
  | provide => simp
  | await =>
    rename_i e _ _ _ _ _ _
    cases e.connectReply <;> simp [IoEvent.isReply, IoEvent.isNote, IoEvent.subject]
  | complete | fail => simp [IoEvent.isReply, IoEvent.isNote, IoEvent.subject]
  | watch hes =>
    rintro x hx
    obtain ⟨m, rfl⟩ := hes x hx
    exact .inl (.inl rfl)
  | close hpre hcl =>
    rename_i e pre post
    have hpost : ∀ x ∈ post, x.isReply = true := by
      cases hcl <;> cases e.connectReply <;> simp [IoEvent.isReply]
    rintro x hx
    simp only [List.mem_append, List.mem_cons] at hx
    rcases hx with hx | rfl | rfl | hx
    · exact .inl (.inl (hpre x hx))
    · exact .inl (.inl rfl)
    · exact .inr ⟨rfl, rfl⟩
    · exact .inl (.inr (hpost x hx))

theorem trace_handleSend (lib : Libsrt) (b : Bridge) (id : SocketId) :
    ∃ es : List IoEvent, (b.handleSend lib id).trace = b.trace ++ es ∧
      ∀ x ∈ es, ∃ data ok, x = .sent id data ok := by
  have hoff (o : Offered) : ∀ x ∈ o.events id, ∃ data ok, x = .sent id data ok := by
    intro x hx
    unfold Offered.events at hx
    rcases List.mem_append.mp hx with hx | hx
    · obtain ⟨data, -, rfl⟩ := List.mem_map.mp hx
      exact ⟨data, true, rfl⟩
    · cases hr : o.refused with
      | none => simp [hr] at hx
      | some r =>
        obtain rfl : x = .sent id r.1 false := by simpa [hr] using hx
        exact ⟨r.1, false, rfl⟩
  unfold handleSend
  cases he : b.entry id with
  | none => exact ⟨[], (List.append_nil _).symm, by simp⟩
  | some e =>
    dsimp only
    split_ifs
    · exact ⟨_, rfl, hoff _⟩
    · split
      · exact ⟨_, rfl, hoff _⟩
      · refine ⟨_, List.append_assoc .., fun x hx => ?_⟩
        exact (List.mem_append.mp hx).elim (hoff _ x) (hoff _ x)

/-- A move only adds to the record, and `srt_listen` is called by `Listen` alone. -/
theorem Moved.trace {b₀ b b' : Bridge} (h : Moved lib s b₀ b b') :
    ∃ es, b'.trace = b.trace ++ es ∧
      ∀ id ok, .listening id ok ∈ es → ∃ backlog reply, s = .command (.listen id backlog reply) := by
  cases h with
  | note hes _ ht =>
    exact ⟨_, ht, fun id ok hmem => by simpa [IoEvent.isPlain] using hes _ hmem⟩
  | answer _ _ hx =>
    refine ⟨[_], rfl, fun id ok hmem => ?_⟩
    rcases hx with rfl | ⟨a, rfl⟩ <;> simp at hmem
  | arm | subscribe => exact ⟨[_], rfl, by simp⟩
  | listening hs =>
    refine ⟨[_], rfl, fun id ok hmem => ?_⟩
    obtain ⟨rfl, -⟩ := IoEvent.listening.inj (List.mem_singleton.mp hmem)
    exact ⟨_, _, hs⟩
  | change hch _ ht =>
    refine ⟨_, ht, fun id ok hmem => ?_⟩
    simpa [IoEvent.isPlain, IoEvent.isReply, IoEvent.isNote] using hch.events _ hmem
  | take => exact ⟨_, trace_deliver _, by simp⟩
  | send =>
    obtain ⟨es, ht, hes⟩ := trace_handleSend lib b _
    refine ⟨es, ht, fun id ok hmem => ?_⟩
    obtain ⟨data, r, hx⟩ := hes _ hmem
    cases hx
  | accepted => exact ⟨[_], rfl, by simp⟩
  | handOver => exact ⟨[], (List.append_nil _).symm, by simp⟩

theorem Moves.trace {b₀ b b' : Bridge} (h : Moves lib s b₀ b b') :
    ∃ es, b'.trace = b.trace ++ es ∧
      ∀ id ok, .listening id ok ∈ es → ∃ backlog reply, s = .command (.listen id backlog reply) := by
  induction h with
  | refl => exact ⟨[], (List.append_nil _).symm, by simp⟩
  | tail _ hlast ih =>
    obtain ⟨es, ht, hes⟩ := ih
    obtain ⟨es', ht', hes'⟩ := hlast.trace
    refine ⟨es ++ es', by rw [ht', ht, List.append_assoc], fun id ok hmem => ?_⟩
    exact (List.mem_append.mp hmem).elim (hes id ok) (hes' id ok)

theorem Moves.keep {P : Bridge → Prop} {b₀ b b' : Bridge} (h : Moves lib s b₀ b b')
    (hP : ∀ b b', Moved lib s b₀ b b' → P b → P b') (hb : P b) : P b' := by
  induction h with
  | refl => exact hb
  | tail _ hlast ih => exact hP _ _ hlast ih

end Traces

section Rule

variable (lib : Libsrt) (ok : Bridge → IoStep → Prop)

/-- If the action is a step the thread takes, it meets a condition. -/
def Meets (b : Bridge) : Action → Prop
  | .io s => b.running = true → ok b s
  | _ => True

instance Meets.decidable [∀ b s, Decidable (ok b s)] (b : Bridge) :
    ∀ a, Decidable (Meets ok b a)
  | .io s => inferInstanceAs (Decidable (b.running = true → ok b s))
  | .tokio _ | .elapse _ => inferInstanceAs (Decidable True)

/-- Every step the thread takes in a run meets a condition. -/
abbrev StepsMeet (b : Bridge) (actions : List Action) : Prop := Along (act lib) (Meets ok) b actions

section Running

variable {lib : Libsrt} {b : Bridge}

theorem running_of_act {a : Action} (h : (b.act lib a).running = true) : b.running = true := by
  cases a with
  | io s =>
    by_contra hno
    have hsame : b.act lib (.io s) = b := if_neg hno
    rw [hsame] at h
    exact hno h
  | tokio t => cases t <;> exact h
  | elapse d => exact h

end Running

/-- What every move keeps within a step that meets the condition and begins in `b₀`, and
every Tokio task. -/
structure Keeps (P : Bridge → Prop) : Prop where
  moved : ∀ {b₀ s b b'}, ok b₀ s → P b₀ → b₀.trace <+: b.trace → Moved lib s b₀ b b' → P b → P b'
  tokio : ∀ {b} (t : TokioStep), P b → P (b.tokioStep t)
  /-- Nothing depends on the clock, the step number or whether the thread runs. -/
  same : ∀ {b b'}, (∀ i, b'.entry i = b.entry i) → b'.trace = b.trace →
    b'.channels = b.channels → P b → P b'

variable {lib ok} {P : Bridge → Prop} {b : Bridge} {actions : List Action}

theorem Keeps.moves (h : Keeps lib ok P) {b₀ b' : Bridge} {s : IoStep} (hs : ok b₀ s)
    (hm : Moves lib s b₀ b₀ b') (hP : P b₀) : P b' := by
  induction hm with
  | refl => exact hP
  | tail hfirst hlast ih =>
    obtain ⟨es, ht, -⟩ := Moves.trace hfirst
    exact h.moved hs hP ⟨es, ht.symm⟩ hlast ih

theorem Keeps.act (h : Keeps lib ok P) {a : Action}
    (hs : Meets ok b a) (hP : P b) : P (b.act lib a) := by
  cases a with
  | io s =>
    show P (if b.running = true then _ else b)
    split_ifs with hr
    · have hmoved : P (b.ioStep lib s) := h.moves (hs hr) (ioStep_moves lib b s) hP
      exact h.same (b := b.ioStep lib s) (fun _ => rfl) rfl rfl hmoved
    · exact hP
  | tokio t => exact h.tokio t hP
  | elapse d =>
    have hlater : P { b with clock := b.clock + d } := h.same (b := b) (fun _ => rfl) rfl rfl hP
    exact hlater

theorem Keeps.run (h : Keeps lib ok P) (hok : StepsMeet lib ok b actions) (hP : P b) :
    P (b.run lib actions) :=
  hok.invariant (fun _ _ hs => h.act hs) hP

theorem stepsMeet_of_forall (h : ∀ b s, ok b s) (b : Bridge) (actions : List Action) :
    StepsMeet lib ok b actions := by
  refine along_iff.mpr fun pre a post _ => ?_
  match a with
  | .io s => exact fun _ => h _ s
  | .tokio _ | .elapse _ => trivial

theorem StepsMeet.and {ok' : Bridge → IoStep → Prop} (h : StepsMeet lib ok b actions)
    (h' : StepsMeet lib ok' b actions) : StepsMeet lib (fun b s => ok b s ∧ ok' b s) b actions := by
  refine (Along.and h h').mono fun b a hm => ?_
  match a with
  | .io s => exact fun hr => ⟨hm.1 hr, hm.2 hr⟩
  | .tokio _ | .elapse _ => trivial

theorem StepsMeet.append {more : List Action} :
    StepsMeet lib ok b (actions ++ more) ↔
      StepsMeet lib ok b actions ∧ StepsMeet lib ok (b.run lib actions) more :=
  along_append

theorem trace_run_grows (lib : Libsrt) (b : Bridge) (actions : List Action) :
    b.trace <+: (b.run lib actions).trace := by
  have hkeeps : Keeps lib (fun _ _ => True) fun c => b.trace <+: c.trace := by
    refine ⟨fun _ _ _ hm hx => ?_, fun t hx => ?_, fun _ ht _ hx => ht ▸ hx⟩
    · obtain ⟨es, ht, -⟩ := hm.trace
      exact ht ▸ hx.trans (List.prefix_append ..)
    · cases t <;> exact hx
  exact hkeeps.run (stepsMeet_of_forall (fun _ _ => trivial) _ _) (List.prefix_refl _)

end Rule

section OneEntry

variable {lib : Libsrt} {s : IoStep}

/-- What is known of an event of step `s` that does not change the entry `e` of `id`. -/
structure Noted (lib : Libsrt) (b₀ : Bridge) (s : IoStep) (id : SocketId) (e : Option SocketState)
    (x : IoEvent) : Prop where
  aside : x.isNote = true ∨ x.subject ≠ some id
  arm : ∀ slot r, x = .armed id slot r → e.bind SocketState.accessControl = some slot
  subscribe : x = .subscribed id → Subscribes lib s b₀.step id

theorem Noted.of_plain {b₀ : Bridge} {id : SocketId} {e : Option SocketState} {x : IoEvent}
    (h : x.isPlain = true ∨ x.isReply = true) : Noted lib b₀ s id e x := by
  refine ⟨?_, ?_, ?_⟩ <;> cases x <;> simp_all [IoEvent.isPlain, IoEvent.isReply, IoEvent.isNote]

/-- What every change of the entry of `id` keeps, and every event that is none. -/
structure KeepsEntry (lib : Libsrt) (ok : Bridge → IoStep → Prop) (id : SocketId)
    (P : Option SocketState → List IoEvent → Prop) : Prop where
  note : ∀ {b₀ s e tr x}, ok b₀ s → Noted lib b₀ s id e x → P e tr → P e (tr ++ [x])
  backlog : ∀ {e tr} (l : List Bytes), P (some e) tr → P (some { e with sendBacklog := l }) tr
  change : ∀ {b₀ s e new es tr}, ok b₀ s → P (b₀.entry id) b₀.trace → b₀.trace <+: tr →
    Change lib s b₀.step (b₀.entry id) id e new es → P e tr → P new (tr ++ es)

variable {ok : Bridge → IoStep → Prop} {id : SocketId} {P : Option SocketState → List IoEvent → Prop}

theorem KeepsEntry.notes (h : KeepsEntry lib ok id P) {b₀ : Bridge} {s : IoStep}
    {e : Option SocketState} {tr es : List IoEvent} (hok : ok b₀ s)
    (hes : ∀ x ∈ es, Noted lib b₀ s id e x) (hP : P e tr) : P e (tr ++ es) := by
  induction es generalizing tr with
  | nil => simpa using hP
  | cons x es ih =>
    have hfirst := h.note hok (hes x (by simp)) hP
    have := ih (fun y hy => hes y (by simp [hy])) hfirst
    simpa using this

theorem KeepsEntry.keeps (h : KeepsEntry lib ok id P) :
    Keeps lib ok fun b => P (b.entry id) b.trace where
  moved := by
    intro b₀ s b b' hok hP₀ hpre hm hP
    cases hm with
    | note hes he ht hc =>
      rw [he, ht]
      exact h.notes hok (fun x hx => .of_plain (.inl (hes x hx))) hP
    | answer hs hr hx =>
      rcases hx with rfl | ⟨a, rfl⟩
      · exact h.note hok (.of_plain (.inr rfl)) hP
      · exact h.note hok (.of_plain (.inr rfl)) hP
    | arm hs hslot =>
      refine h.note hok ⟨.inl rfl, fun slot r hr => ?_, by simp⟩ hP
      obtain ⟨rfl, rfl, -⟩ := IoEvent.armed.inj hr
      exact hslot
    | subscribe hsub =>
      refine h.note hok ⟨.inl rfl, by simp, fun hx => ?_⟩ hP
      obtain rfl := IoEvent.subscribed.inj hx
      exact hsub
    | listening | accepted => exact h.note hok ⟨.inl rfl, by simp, by simp⟩ hP
    | change hch he ht hc =>
      rename_i i new es
      rw [ht, he]
      split_ifs with hi
      · subst hi
        exact h.change hok hP₀ hpre hch hP
      · refine h.notes hok (fun x hx => ?_) hP
        rcases hch.events x hx with hx | ⟨hn, hsub⟩
        · exact .of_plain hx
        · refine ⟨.inr (by rw [hsub]; simpa using Ne.symm hi), fun slot r hr => ?_, fun hr => ?_⟩
          · rw [hr] at hn
            cases hn
          · rw [hr] at hn
            cases hn
    | take =>
      rw [entry_deliver, trace_deliver]
      exact h.note hok ⟨.inl rfl, by simp, by simp⟩ hP
    | send =>
      rename_i i hs
      obtain ⟨es, ht, hes⟩ := trace_handleSend lib b i
      obtain ⟨l, hl⟩ := entry_handleSend lib b i
      have hnote : P (b.entry id) (b.trace ++ es) := by
        refine h.notes hok (fun x hx => ?_) hP
        obtain ⟨data, r, rfl⟩ := hes x hx
        exact ⟨.inl rfl, by simp, by simp⟩
      rw [ht, hl]
      split_ifs with hi
      · subst hi
        cases he : b.entry id with
        | none =>
          rw [he] at hnote
          exact hnote
        | some e =>
          rw [he] at hnote
          exact h.backlog l hnote
      · exact hnote
    | handOver => exact hP
  tokio := by
    intro b t hP
    cases t <;> exact hP
  same := by
    intro b b' he ht _ hP
    rw [he, ht]
    exact hP

theorem KeepsEntry.run (h : KeepsEntry lib ok id P) {b : Bridge} {actions : List Action}
    (hok : StepsMeet lib ok b actions) (hP : P (b.entry id) b.trace) :
    P ((b.run lib actions).entry id) (b.run lib actions).trace :=
  h.keeps.run hok hP

theorem KeepsEntry.step (h : KeepsEntry lib ok id P) {b : Bridge} {s : IoStep} (hok : ok b s)
    (hP : P (b.entry id) b.trace) : P ((b.ioStep lib s).entry id) (b.ioStep lib s).trace :=
  h.keeps.moves hok (ioStep_moves lib b s) hP

/-- Since the trace was `tr₀`, the entry of `id` has been taken out or replaced, or it is
still as `Q` says. -/
def Since (id : SocketId) (tr₀ : List IoEvent) (Q : SocketState → Prop) (e : Option SocketState)
    (tr : List IoEvent) : Prop :=
  ∃ es, tr = tr₀ ++ es ∧ ((∃ x ∈ es, x.turns id = true) ∨ ∃ s, e = some s ∧ Q s)

theorem Since.extend {tr₀ tr es : List IoEvent} {Q : SocketState → Prop} {e e' : Option SocketState}
    (h : Since id tr₀ Q e tr)
    (hs : ∀ s, e = some s → Q s → (∃ x ∈ es, x.turns id = true) ∨ ∃ s', e' = some s' ∧ Q s') :
    Since id tr₀ Q e' (tr ++ es) := by
  obtain ⟨es₀, rfl, hdone | ⟨s, rfl, hst⟩⟩ := h
  · obtain ⟨x, hx, hturn⟩ := hdone
    exact ⟨es₀ ++ es, List.append_assoc .., .inl ⟨x, List.mem_append_left _ hx, hturn⟩⟩
  · refine ⟨es₀ ++ es, List.append_assoc .., ?_⟩
    exact (hs s rfl hst).imp_left fun ⟨x, hx, hturn⟩ => ⟨x, List.mem_append_right _ hx, hturn⟩

/-- A property of an entry that every change within its life keeps. -/
theorem since_keeps (tr₀ : List IoEvent) {Q : SocketState → Prop}
    (hback : ∀ s l, Q s → Q { s with sendBacklog := l })
    (hch : ∀ {b₀ s e e' es}, ok b₀ s → Change lib s b₀.step (b₀.entry id) id (some e) (some e') es →
      (∀ x ∈ es, x.turns id = false) → Q e → Q e') : KeepsEntry lib ok id (Since id tr₀ Q) where
  note := by
    intro b₀ s e tr x _ _ h
    exact h.extend fun s he hQ => .inr ⟨s, he, hQ⟩
  backlog := by
    rintro e tr l ⟨es, htr, h⟩
    exact ⟨es, htr, h.imp_right fun ⟨s, he, hQ⟩ => ⟨_, rfl, hback e l (Option.some.inj he ▸ hQ)⟩⟩
  change := by
    intro b₀ s e new es tr hok _ _ hc h
    refine h.extend fun e₁ he hQ => ?_
    by_cases hturn : ∃ x ∈ es, x.turns id = true
    · exact .inl hturn
    · right
      subst he
      simp only [not_exists, not_and, Bool.not_eq_true] at hturn
      cases new with
      | none =>
        cases hc
        have := hturn (.released id) (by simp)
        simp [IoEvent.turns] at this
      | some e' => exact ⟨e', rfl, hch hok hc hturn hQ⟩

theorem Since.run {Q : SocketState → Prop} {b : Bridge} {actions : List Action}
    (h : KeepsEntry lib ok id (Since id b.trace Q)) (hok : StepsMeet lib ok b actions)
    {e : SocketState} (he : b.entry id = some e) (hQ : Q e) :
    (∃ x ∈ (b.run lib actions).trace.drop b.trace.length, x.turns id = true) ∨
      ∃ e', (b.run lib actions).entry id = some e' ∧ Q e' := by
  have hstart : Since id b.trace Q (b.entry id) b.trace :=
    ⟨[], (List.append_nil _).symm, .inr ⟨e, he, hQ⟩⟩
  obtain ⟨es, htr, hes | hkept⟩ := h.run hok hstart
  · left
    rw [htr, List.drop_left]
    exact hes
  · exact .inr hkept

theorem entry_act {b : Bridge} (hr : b.running = true) (s : IoStep) (id : SocketId) :
    (b.act lib (.io s)).entry id = (b.ioStep lib s).entry id := by
  show (if b.running = true then _ else b).entry id = _
  rw [if_pos hr]
  rfl

theorem trace_act {b : Bridge} (hr : b.running = true) (s : IoStep) :
    (b.act lib (.io s)).trace = (b.ioStep lib s).trace := by
  show (if b.running = true then _ else b).trace = _
  rw [if_pos hr]

end OneEntry

/-- A new group is not given an id that is in the map. -/
def groupFresh (lib : Libsrt) (b : Bridge) : IoStep → Bool
  | .command (.createGroup mode _ _) => (b.entry (lib.createGroup b.step mode)).isNone
  | _ => true

end Bridge

end SrtBridge
