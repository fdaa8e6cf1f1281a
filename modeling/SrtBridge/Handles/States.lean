import SrtBridge.Bridge.Runs
import SrtBridge.General.Watch

/-! The status channel of a handle: what `status` shows, and that `wait_for_state` sleeps only while
its socket is in the map with a status it does not wait for. -/

namespace SrtBridge

open General

/-- A status channel, and whether the entry of its socket has the sender. -/
structure StatusChannel where
  held : Bool
  watch : Watch SocketStatus

namespace StatusChannel

/-- What an event does to the channel registered with the socket `id`. -/
def feed (id : SocketId) (c : StatusChannel) : IoEvent → StatusChannel
  | .registered i _ _ => if i = id then { c with held := true } else c
  | .recorded i q => if i = id ∧ c.held = true then { c with watch := c.watch.send q } else c
  | .entered i | .released i => if i = id ∧ c.held = true then ⟨false, c.watch.close⟩ else c
  | _ => c

/-- The channel made with the status `first`, after some events. -/
def after (id : SocketId) (first : SocketStatus) (es : List IoEvent) : StatusChannel :=
  es.foldl (feed id) ⟨false, .new first⟩

variable {id : SocketId} {first : SocketStatus} {es es' : List IoEvent}

theorem after_append : after id first (es ++ es') = es'.foldl (feed id) (after id first es) :=
  List.foldl_append

theorem foldl_aside (h : ∀ x ∈ es, x.isNote = true ∨ x.subject ≠ some id) (c : StatusChannel) :
    es.foldl (feed id) c = c := by
  induction es generalizing c with
  | nil => rfl
  | cons x es ih =>
    have hx : feed id c x = c := by
      have haside := h x (by simp)
      cases x with
      | registered | recorded | entered | released =>
        simp only [IoEvent.isNote, IoEvent.subject, Option.some.injEq, Bool.false_eq_true, false_or,
          ne_eq] at haside
        simp [feed, haside]
      | _ => rfl
    rw [List.foldl_cons, hx]
    exact ih (fun y hy => h y (by simp [hy])) c

end StatusChannel

def stopsAt (target q : SocketStatus) : Bool := q = target || q = .broken || q = .closed

structure StateWait where
  bridge : Bridge
  wait : Wait SocketStatus

inductive StateMove where
  | act (a : Bridge.Action)
  | poll

/-- The move registers neither the socket nor the channel again. -/
def StateMove.Leaves (id : SocketId) (t : ChannelId) : StateMove → Prop
  | .act (.io (.command (.registerSocket i _ _ t'))) => i ≠ id ∧ t' ≠ t
  | _ => True

namespace StateWait

variable (lib : Libsrt) (id : SocketId) (first target : SocketStatus) (tr₀ : List IoEvent)

def channel (s : StateWait) : StatusChannel := .after id first (s.bridge.trace.drop tr₀.length)

def step (s : StateWait) : StateMove → StateWait
  | .act a => { s with bridge := s.bridge.act lib a }
  | .poll => { s with wait := s.wait.poll (stopsAt target) (s.channel id first tr₀).watch }

end StateWait

namespace Bridge

section Shows

variable {lib : Libsrt} {id : SocketId} {t : ChannelId} {first : SocketStatus}
  {stop : SocketStatus → Bool} {w : Wait SocketStatus} {tr₀ : List IoEvent}

/-- The channel `t` shows the status of the entry that has its sender, or it is closed and the entry of
the socket does not have it; and the task `w` has let no status that it waits for get past. -/
structure Shows (t : ChannelId) (stop : SocketStatus → Bool) (w : Wait SocketStatus)
    (e : Option SocketState) (c : StatusChannel) : Prop where
  alert : w.Alert stop c.watch
  status : c.held = true ∧ c.watch.closed = false ∧
      (∃ s, e = some s ∧ s.statusTx = some t ∧ c.watch.value = s.lastStatus) ∨
    c.held = false ∧ c.watch.closed = true ∧ ∀ s, e = some s → s.statusTx ≠ some t

theorem Shows.same {e e' : SocketState} {c : StatusChannel} (h : Shows t stop w (some e) c)
    (ht : e'.statusTx = e.statusTx) (hq : e'.lastStatus = e.lastStatus) : Shows t stop w (some e') c := by
  refine ⟨h.alert, ?_⟩
  rcases h.status with ⟨hheld, hopen, s, hs, hst, hv⟩ | ⟨hheld, hclosed, hno⟩
  · obtain rfl := Option.some.inj hs
    exact .inl ⟨hheld, hopen, e', rfl, ht.trans hst, hv.trans hq.symm⟩
  · refine .inr ⟨hheld, hclosed, fun s hs => ?_⟩
    obtain rfl := Option.some.inj hs
    rw [ht]
    exact hno e rfl

@[simp] theorem updateStatus_statusTx (s : SocketState) (q : SocketStatus) :
    (s.updateStatus q).statusTx = s.statusTx := by
  unfold SocketState.updateStatus
  split_ifs <;> rfl

theorem Shows.record {e : SocketState} {c : StatusChannel} (h : Shows t stop w (some e) c)
    (q : SocketStatus) : Shows t stop w (some (e.updateStatus q)) (c.feed id (.recorded id q)) := by
  rcases h.status with ⟨hheld, hopen, s, hs, hst, -⟩ | ⟨hheld, hclosed, hno⟩
  · obtain rfl := Option.some.inj hs
    have hfeed : c.feed id (.recorded id q) = { c with watch := c.watch.send q } := if_pos ⟨rfl, hheld⟩
    rw [hfeed]
    refine ⟨h.alert.send hopen q, .inl ⟨hheld, hopen, _, rfl, by simpa using hst, by simp [Watch.send]⟩⟩
  · have hfeed : c.feed id (.recorded id q) = c := if_neg (by simp [hheld])
    rw [hfeed]
    refine ⟨h.alert, .inr ⟨hheld, hclosed, fun s hs => ?_⟩⟩
    obtain rfl := Option.some.inj hs
    simpa using hno e rfl

/-- The entry is let go of, or another takes its place. -/
theorem Shows.turn {e e' : Option SocketState} {c : StatusChannel} {x : IoEvent} (h : Shows t stop w e c)
    (hx : x = .released id ∨ x = .entered id) (hnew : ∀ s, e' = some s → s.statusTx = none) :
    Shows t stop w e' (c.feed id x) := by
  have hno (s : SocketState) (hs : e' = some s) : s.statusTx ≠ some t := by simp [hnew s hs]
  rcases h.status with ⟨hheld, hopen, -⟩ | ⟨hheld, hclosed, -⟩
  · have hfeed : c.feed id x = ⟨false, c.watch.close⟩ := by
      rcases hx with rfl | rfl <;> exact if_pos ⟨rfl, hheld⟩
    rw [hfeed]
    exact ⟨h.alert.close, .inr ⟨rfl, rfl, hno⟩⟩
  · have hfeed : c.feed id x = c := by
      rcases hx with rfl | rfl <;> exact if_neg (by simp [hheld])
    rw [hfeed]
    exact ⟨h.alert, .inr ⟨hheld, hclosed, hno⟩⟩

/-- What holds of the entry and the channel in every run since the record was `tr₀`. -/
def ShowsSince (id : SocketId) (t : ChannelId) (first : SocketStatus) (stop : SocketStatus → Bool)
    (w : Wait SocketStatus) (tr₀ : List IoEvent) (e : Option SocketState) (tr : List IoEvent) : Prop :=
  ∃ es, tr = tr₀ ++ es ∧ Shows t stop w e (.after id first es)

theorem ShowsSince.aside {e e' : Option SocketState} {tr es : List IoEvent}
    (h : ShowsSince id t first stop w tr₀ e tr)
    (hes : ∀ x ∈ es, x.isNote = true ∨ x.subject ≠ some id)
    (he : ∀ c, Shows t stop w e c → Shows t stop w e' c) :
    ShowsSince id t first stop w tr₀ e' (tr ++ es) := by
  obtain ⟨es₀, rfl, hshows⟩ := h
  refine ⟨es₀ ++ es, List.append_assoc .., ?_⟩
  rw [StatusChannel.after_append, StatusChannel.foldl_aside hes]
  exact he _ hshows

theorem ShowsSince.event {e e' : Option SocketState} {tr : List IoEvent} {x : IoEvent}
    (h : ShowsSince id t first stop w tr₀ e tr)
    (he : ∀ c, Shows t stop w e c → Shows t stop w e' (c.feed id x)) :
    ShowsSince id t first stop w tr₀ e' (tr ++ [x]) := by
  obtain ⟨es₀, rfl, hshows⟩ := h
  refine ⟨es₀ ++ [x], List.append_assoc .., ?_⟩
  rw [StatusChannel.after_append]
  exact he _ hshows

/-- The step registers neither the socket nor the channel again. -/
def leavesStatus (id : SocketId) (t : ChannelId) : IoStep → Bool
  | .command (.registerSocket i _ _ t') => i ≠ id && t' ≠ t
  | _ => true

theorem isNote_of_plain {x : IoEvent} (h : x.isPlain = true ∨ x.isReply = true) : x.isNote = true := by
  cases x <;> simp_all [IoEvent.isPlain, IoEvent.isReply, IoEvent.isNote]

theorem showsSince_keeps :
    KeepsEntry lib (fun _ s => leavesStatus id t s = true) id (ShowsSince id t first stop w tr₀) where
  note := fun _ hx h => h.aside (List.forall_mem_singleton.mpr hx.aside) fun _ hc => hc
  backlog := by
    intro e tr l h
    obtain ⟨es, rfl, hshows⟩ := h
    exact ⟨es, rfl, hshows.same rfl rfl⟩
  change := by
    intro b₀ s e new es tr hok _ _ hch h
    have hnone {es : List IoEvent} (hes : ∀ x ∈ es, x.isPlain = true ∨ x.isReply = true) :
        ∀ x ∈ es, x.isNote = true ∨ x.subject ≠ some id := fun x hx => .inl (isNote_of_plain (hes x hx))
    cases hch with
    | enter hent =>
      refine h.event fun c hc => hc.turn (.inr rfl) fun s hs => ?_
      obtain rfl := Option.some.inj hs
      cases hent <;> rfl
    | register hs => simp [leavesStatus, hs] at hok
    | provide | fail =>
      exact h.aside (hnone (by simp [IoEvent.isReply])) fun _ hc => hc.same rfl rfl
    | record => exact h.event fun c hc => hc.record _
    | listen =>
      rename_i e _ _ _ _ _ _
      have hflag : ∀ c, Shows t stop w (some e) c → Shows t stop w (some { e with isListener := true }) c :=
        fun _ hc => hc.same rfl rfl
      exact h.event fun c hc => (hflag c hc).record _
    | await =>
      rename_i e addr reply _ _ _ _
      rw [← List.append_assoc]
      have hunanswered : ∀ x ∈ (e.connectReply.map IoEvent.unanswered).toList, x.isReply = true := by
        cases e.connectReply <;> simp [IoEvent.isReply]
      have hwait : ShowsSince id t first stop w tr₀ (some { e with connectReply := some reply })
          (tr ++ (e.connectReply.map .unanswered).toList) :=
        h.aside (hnone fun x hx => .inr (hunanswered x hx)) fun _ hc => hc.same rfl rfl
      exact hwait.event fun c hc => hc.record _
    | complete =>
      rename_i e flags reply result q _ _ _ _ _ _
      have hdone : ShowsSince id t first stop w tr₀ (some { e with connectReply := none })
          (tr ++ [.answered reply (.done result)]) :=
        h.aside (hnone (by simp [IoEvent.isReply])) fun _ hc => hc.same rfl rfl
      simpa using hdone.event fun c hc => hc.record q
    | watch hes =>
      refine h.aside (fun x hx => ?_) fun _ hc => hc.same rfl rfl
      obtain ⟨m, rfl⟩ := hes x hx
      exact .inl rfl
    | close hpre hcl =>
      rename_i e pre post
      have hclosed : ShowsSince id t first stop w tr₀ (some e) (tr ++ (pre ++ [.closed id])) := by
        refine h.aside (fun x hx => .inl ?_) fun _ hc => hc
        rcases List.mem_append.mp hx with hx | hx
        · exact isNote_of_plain (.inl (hpre x hx))
        · exact List.mem_singleton.mp hx ▸ rfl
      have hreleased : ShowsSince id t first stop w tr₀ none
          (tr ++ (pre ++ [.closed id]) ++ [.released id]) :=
        hclosed.event fun c hc => hc.turn (.inl rfl) (by simp)
      have hpost : ∀ x ∈ post, x.isReply = true := by
        cases hcl <;> cases e.connectReply <;> simp [IoEvent.isReply]
      have hall := hreleased.aside (hnone fun x hx => .inr (hpost x hx)) fun _ hc => hc
      simpa using hall

/-- The status of the entry, at the registration, is the one that the channel was made with, or it is
brought up to date. -/
def registersAs (lib : Libsrt) (id : SocketId) (first : SocketStatus) (b : Bridge) : Prop :=
  let e := (b.entry id).getD .fresh
  e.lastStatus = first ∨ e.isGroup = false ∧ lib.status b.step 0 id ≠ e.lastStatus

/-- The task is about to look when the handle is registered. -/
theorem ShowsSince.register {b : Bridge} (hfirst : b.registersAs lib id first) (r d : ChannelId)
    (hr : b.running = true) :
    let b' := b.act lib (.io (.command (.registerSocket id r d t)))
    ShowsSince id t first stop (.look 0) b.trace (b'.entry id) b'.trace := by
  intro b'
  have htr : b'.trace = (b.registerSocket lib id r d t).trace := trace_act hr _
  have hent : b'.entry id = (b.registerSocket lib id r d t).entry id := entry_act hr _ id
  -- the channel goes to the entry
  obtain ⟨es, hes, hfed⟩ : ∃ es, ((b.enterIfAbsent id .fresh).register id r d t).trace = b.trace ++ es ∧
      StatusChannel.after id first es = ⟨true, .new first⟩ := by
    rw [register_some (entry_enterIfAbsent b id .fresh), trace_emit, trace_setEntry]
    unfold enterIfAbsent
    split
    · exact ⟨_, rfl, by simp [StatusChannel.after, StatusChannel.feed]⟩
    · refine ⟨[.entered id, .registered id r d], by simp, ?_⟩
      simp [StatusChannel.after, StatusChannel.feed]
  have hreg : ((b.enterIfAbsent id .fresh).register id r d t).entry id =
      some { (b.entry id).getD .fresh with recvTx := some r, sendRx := some d, statusTx := some t } := by
    rw [register_some (entry_enterIfAbsent b id .fresh), entry_emit, entry_setEntry, if_pos rfl]
  have hstep : ((b.enterIfAbsent id .fresh).register id r d t).step = b.step := by
    rw [register_some (entry_enterIfAbsent b id .fresh)]
    unfold enterIfAbsent
    split <;> rfl
  rw [htr, hent]
  unfold registerSocket
  dsimp only
  rw [hreg, hstep]
  dsimp only
  split_ifs with hsame
  · rw [hreg, hes]
    refine ⟨es, rfl, ?_⟩
    rw [hfed]
    refine ⟨Nat.zero_le _, .inl ⟨rfl, rfl, _, rfl, rfl, ?_⟩⟩
    refine (hfirst.resolve_right fun hrec => ?_).symm
    rcases hsame with hg | hq
    · simp [hrec.1] at hg
    · exact hrec.2 hq
  · rw [record_some hreg, entry_emit, entry_setEntry, if_pos rfl, trace_emit, trace_setEntry, hes,
      List.append_assoc]
    refine ⟨_, rfl, ?_⟩
    rw [StatusChannel.after_append, hfed]
    have hfeed (q : SocketStatus) :
        [IoEvent.recorded id q].foldl (StatusChannel.feed id) ⟨true, .new first⟩ =
          ⟨true, (Watch.new first).send q⟩ := if_pos ⟨rfl, rfl⟩
    rw [hfeed]
    exact ⟨Nat.zero_le _, .inl ⟨rfl, rfl, _, rfl, by simp, by simp [Watch.send]⟩⟩

end Shows

end Bridge

namespace StateWait

section Waits

variable {lib : Libsrt} {id : SocketId} {t : ChannelId} {first target : SocketStatus} {tr₀ : List IoEvent}
  {s : StateWait}

/-- The channel shows the status, and the task has let none of those that it waits for get past. -/
def Sound (id : SocketId) (t : ChannelId) (first target : SocketStatus) (tr₀ : List IoEvent)
    (s : StateWait) : Prop :=
  Bridge.ShowsSince id t first (stopsAt target) s.wait tr₀ (s.bridge.entry id) s.bridge.trace

theorem Sound.channel (h : s.Sound id t first target tr₀) :
    Bridge.Shows t (stopsAt target) s.wait (s.bridge.entry id) (s.channel id first tr₀) := by
  obtain ⟨es, ht, hshows⟩ := h
  unfold StateWait.channel
  rw [ht, List.drop_left]
  exact hshows

theorem Sound.step (h : s.Sound id t first target tr₀) {m : StateMove} (hm : m.Leaves id t) :
    (s.step lib id first target tr₀ m).Sound id t first target tr₀ := by
  cases m with
  | act a =>
    have hmeets : Bridge.StepsMeet lib (fun _ s => Bridge.leavesStatus id t s = true) s.bridge [a] := by
      refine ⟨?_, trivial⟩
      cases a with
      | io step =>
        intro _
        cases step with
        | command cmd =>
          cases cmd with
          | registerSocket => simpa [StateMove.Leaves, Bridge.leavesStatus] using hm
          | _ => rfl
        | _ => rfl
      | tokio | elapse => trivial
    exact Bridge.showsSince_keeps.run hmeets h
  | poll =>
    obtain ⟨es, ht, hshows⟩ := h
    have hchannel : s.channel id first tr₀ = .after id first es := by
      unfold StateWait.channel
      rw [ht, List.drop_left]
    refine ⟨es, ht, ?_, hshows.status⟩
    show (s.wait.poll (stopsAt target) (s.channel id first tr₀).watch).Alert (stopsAt target) _
    rw [hchannel]
    exact hshows.alert.poll

/-- From the registration of a handle on, whatever the thread and the tasks do: `status` is the status
of the entry for as long as that has the handle's channel. A task in `wait_for_state` sleeps only while
there is such an entry and its status is not one that the task waits for; it returns with one of those, or
with the last status when the entry is gone; and once either is so, four steps of the task are enough. -/
theorem wait_for_state_wakes (lib : Libsrt) (id : SocketId) (r d t : ChannelId)
    (first target : SocketStatus) (pre : List Bridge.Action) (moves : List StateMove)
    (hr : (Bridge.start.run lib pre).running = true)
    (hfirst : (Bridge.start.run lib pre).registersAs lib id first)
    (hmoves : ∀ m ∈ moves, m.Leaves id t) :
    let b := Bridge.start.run lib pre
    let s := moves.foldl (step lib id first target b.trace)
      ⟨b.act lib (.io (.command (.registerSocket id r d t))), .look 0⟩
    let w := (s.channel id first b.trace).watch
    let up (e : SocketState) := s.bridge.entry id = some e ∧ e.statusTx = some t
    (∀ e, up e → w.value = e.lastStatus) ∧
      (s.wait.asleep w = true → ∃ e, up e ∧ stopsAt target e.lastStatus = false) ∧
        (∀ q, s.wait = .done q → stopsAt target q = true ∨ q = w.value ∧ ∀ e, ¬up e) ∧
          ((∀ e, up e → stopsAt target e.lastStatus = true) →
            ∃ q, (Wait.poll (stopsAt target) w)^[4] s.wait = .done q) := by
  intro b s w up
  have hsound : s.Sound id t first target b.trace := by
    refine List.foldlRecOn moves (step lib id first target b.trace) ?_ fun s hs m hm => hs.step (hmoves m hm)
    exact Bridge.ShowsSince.register hfirst r d hr
  obtain ⟨halert, hstatus⟩ := hsound.channel
  have hopen (e : SocketState) (he : up e) : w.value = e.lastStatus := by
    rcases hstatus with ⟨-, -, e', he', -, hv⟩ | ⟨-, -, hno⟩
    · obtain rfl := Option.some.inj (he.1.symm.trans he')
      exact hv
    · exact absurd he.2 (hno e he.1)
  have hclosed (hc : w.closed = true) (e : SocketState) : ¬up e := by
    rcases hstatus with ⟨-, hopen, -⟩ | ⟨-, -, hno⟩
    · rw [hopen] at hc
      cases hc
    · exact fun he => hno e he.1 he.2
  refine ⟨hopen, fun hasleep => ?_, fun q hq => ?_, fun hall => halert.returns ?_⟩
  · obtain ⟨hstop, hclosed⟩ := halert.asleep hasleep
    rcases hstatus with ⟨-, -, e, he, ht, hv⟩ | ⟨-, hc, -⟩
    · exact ⟨e, ⟨he, ht⟩, hv ▸ hstop⟩
    · rw [hclosed] at hc
      cases hc
  · rw [hq] at halert
    exact halert.imp_right fun hend => ⟨hend.2, hclosed hend.1⟩
  · rcases hstatus with ⟨-, -, e, he, ht, hv⟩ | ⟨-, hc, -⟩
    · exact .inl (hv ▸ hall e ⟨he, ht⟩)
    · exact .inr hc

/-- A connected socket dies while a task waits for it to be closed. -/
theorem wait_for_state_wakes_broken :
    let lib := Libsrt.reading fun k => if k < 2 then .connected else .broken
    let b := Bridge.start.run lib []
    let s := [StateMove.poll, .act (.io (.poll 7)), .poll, .act (.io (.poll 7)), .act (.io .cleanup)].foldl
      (step lib 7 .connected .closed b.trace) ⟨b.act lib (.io (.command (.registerSocket 7 1 2 3))), .look 0⟩
    let w := (s.channel 7 .connected b.trace).watch
    ∃ q, (Wait.poll (stopsAt .closed) w)^[4] s.wait = .done q := by
  intro lib b s w
  have hgone : (s.bridge.entry 7).isNone = true := by decide +kernel
  refine (wait_for_state_wakes lib 7 1 2 3 .connected .closed [] _ rfl (.inr ⟨rfl, by decide⟩)
    (by simp [StateMove.Leaves])).2.2.2 fun e he => ?_
  rw [he.1] at hgone
  cases hgone

end Waits

end StateWait

end SrtBridge
