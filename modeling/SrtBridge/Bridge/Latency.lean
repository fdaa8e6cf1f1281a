import SrtBridge.Bridge.Polling
import SrtBridge.Bridge.Wire

/-! The send channels are drained in every turn of the active path with something connected: what
waits for a connected socket is offered to libsrt in that turn, whatever libsrt makes of the
messages of other sockets. -/

namespace SrtBridge

open General

namespace Bridge

/-- The step gives the send channel `c` to no socket but `id`. -/
def IoStep.spares (id : SocketId) (c : ChannelId) : IoStep → Bool
  | .command (.registerSocket i _ d _) => d ≠ c || i = id
  | _ => true

/-- These messages are offered to libsrt in order, before any other of the socket: it takes all, or all
up to one that it refuses. -/
def Served (id : SocketId) (msgs : List Bytes) (es : List IoEvent) : Prop :=
  msgs <+: sentTo id es ∨
    ∃ data es₁ es₂, es = es₁ ++ .sent id data false :: es₂ ∧ sentTo id es₁ ++ [data] <+: msgs

/-- Messages wait for a connected socket, perhaps with others behind them. -/
structure Ready (id : SocketId) (c : ChannelId) (msgs : List Bytes) (b : Bridge) : Prop where
  running : b.running = true
  owner : ∀ i e, b.entry i = some e → e.sendRx = some c → i = id
  entry : ∃ e, b.entry id = some e ∧ e.sendRx = some c ∧ e.lastStatus = .connected
  waiting : msgs <+: b.unsent id c

section Pass

variable {lib : Libsrt} {b : Bridge} {id i : SocketId} {c : ChannelId} {e : SocketState}
  {msgs : List Bytes} {es es' : List IoEvent}

theorem Served.append (h : Served id msgs es) (more : List IoEvent) : Served id msgs (es ++ more) := by
  rcases h with h | ⟨data, es₁, es₂, rfl, h⟩
  · rw [Served, sentTo_append]
    exact .inl (h.trans (List.prefix_append ..))
  · refine .inr ⟨data, es₁, es₂ ++ more, ?_, h⟩
    rw [List.append_assoc, List.cons_append]

theorem Served.after (h : Served id msgs es') (hnil : sentTo id es = []) : Served id msgs (es ++ es') := by
  rcases h with h | ⟨data, es₁, es₂, rfl, h⟩
  · rw [Served, sentTo_append, hnil]
    exact .inl h
  · refine .inr ⟨data, es ++ es₁, es₂, by rw [List.append_assoc], ?_⟩
    rw [sentTo_append, hnil]
    exact h

/-- What libsrt is offered is what it takes, and from what it refuses on what is left. -/
theorem taken_offer (lib : Libsrt) (id : SocketId) (k j : ℕ) (msgs : List Bytes) :
    (offer lib k id j msgs).taken ++ ((offer lib k id j msgs).refused.map fun r =>
      r.1 :: (offer lib k id j msgs).left).getD [] = msgs := by
  induction msgs generalizing j with
  | nil => rfl
  | cons data rest ih =>
    rw [offer_cons]
    cases lib.sendOutcome k j id data with
    | accepted => exact congrArg (data :: ·) (ih (j + 1))
    | wouldBlock => rfl
    | failed => rfl

theorem served_offer (lib : Libsrt) (k j : ℕ) {all : List Bytes} (h : msgs <+: all) :
    Served id msgs ((offer lib k id j all).events id) := by
  have htaken : sentTo id ((offer lib k id j all).taken.map (.sent id · true)) =
      (offer lib k id j all).taken := sentTo_taken _
  have hall := taken_offer lib id k j all
  unfold Offered.events
  cases hr : (offer lib k id j all).refused with
  | none =>
    rw [hr, Option.map_none, Option.getD_none, List.append_nil] at hall
    rw [Option.map_none, Option.toList_none, List.append_nil]
    refine .inl ?_
    rw [htaken, hall]
    exact h
  | some r =>
    rw [hr, Option.map_some, Option.getD_some] at hall
    by_cases hle : msgs.length ≤ (offer lib k id j all).taken.length
    · refine Served.append (.inl ?_) _
      rw [htaken]
      exact List.prefix_of_prefix_length_le h ⟨_, hall⟩ hle
    · refine .inr ⟨r.1, _, [], rfl, ?_⟩
      rw [htaken]
      have hcut : (offer lib k id j all).taken ++ [r.1] <+: all :=
        ⟨(offer lib k id j all).left, by rw [List.append_assoc]; exact hall⟩
      refine List.prefix_of_prefix_length_le hcut h ?_
      rw [List.length_append, List.length_singleton]
      omega

theorem events_handleSend (lib : Libsrt) (he : b.entry id = some e) (hc : e.sendRx = some c) :
    (b.handleSend lib id).trace = b.trace ++ (offer lib b.step id 0 (b.unsent id c)).events id := by
  rw [unsent_some he, if_pos hc]
  cases hr : (offer lib b.step id 0 e.sendBacklog).refused with
  | some r =>
    have hsome : (offer lib b.step id 0 e.sendBacklog).refused.isSome := by rw [hr]; rfl
    rw [(handleSend_refused he hsome).2, offer_append_refused hsome]
    rfl
  | none =>
    have htaken : (offer lib b.step id 0 e.sendBacklog).taken = e.sendBacklog := by
      have hall := congrArg Offered.taken (offer_append_taken hr [])
      simpa [offer] using hall
    rw [(handleSend_taken he hc hr).2, offer_append_taken hr, Nat.zero_add]
    show b.trace ++ (offer lib b.step id 0 e.sendBacklog).events id ++ _ = _
    rw [Offered.events, Offered.events, Offered.events, hr, htaken, List.map_append]
    simp

theorem Ready.drain (lib : Libsrt) (h : Ready id c msgs b) :
    ∃ es, (b.act lib (.io (.drain id))).trace = b.trace ++ es ∧ Served id msgs es := by
  obtain ⟨e, he, hc, hs⟩ := h.entry
  have hdrain : b.drain lib id = b.handleSend lib id := by
    unfold Bridge.drain
    rw [he]
    exact if_pos ⟨by rw [hc]; rfl, hs⟩
  refine ⟨_, ?_, served_offer lib b.step 0 h.waiting⟩
  rw [trace_act h.running]
  exact (congrArg trace hdrain).trans (events_handleSend lib he hc)

/-- What another socket's messages come to changes nothing. -/
theorem Ready.drainOther (lib : Libsrt) (h : Ready id c msgs b) (hi : i ≠ id) :
    Ready id c msgs (b.act lib (.io (.drain i))) ∧
      ∃ es, (b.act lib (.io (.drain i))).trace = b.trace ++ es ∧ sentTo id es = [] := by
  have hno (e : SocketState) (he : b.entry i = some e) : e.sendRx ≠ some c :=
    fun hr => hi (h.owner i e he hr)
  have hact : b.act lib (.io (.drain i)) = { b.drain lib i with step := (b.drain lib i).step + 1 } :=
    if_pos h.running
  have hdrain : b.drain lib i = b ∨ b.drain lib i = b.handleSend lib i := by
    unfold Bridge.drain
    split
    · split_ifs
      · exact .inr rfl
      · exact .inl rfl
    · exact .inl rfl
  rw [hact]
  rcases hdrain with hd | hd
  · rw [hd]
    exact ⟨⟨h.running, h.owner, h.entry, h.waiting⟩, [], (List.append_nil _).symm, rfl⟩
  · obtain ⟨l, hent⟩ := entry_handleSend lib b i
    obtain ⟨es, ht, hes⟩ := trace_handleSend lib b i
    obtain ⟨m, q, tr, hframe⟩ := handleSend_frame lib b i
    have hrunning : (b.handleSend lib i).running = true := by rw [hframe]; exact h.running
    have hsame : (b.handleSend lib i).entry id = b.entry id := (hent id).trans (if_neg hi.symm)
    have hsends : (b.handleSend lib i).sends c = b.sends c := sends_handleSend hno
    have hwait : (b.handleSend lib i).unsent id c = b.unsent id c := by
      unfold unsent
      rw [hsame, hsends]
    have howner (i' : SocketId) (e' : SocketState) (he' : (b.handleSend lib i).entry i' = some e')
        (hr : e'.sendRx = some c) : i' = id := by
      rw [hent] at he'
      split_ifs at he' with hii
      · obtain ⟨e₀, he₀, rfl⟩ := Option.map_eq_some_iff.mp he'
        exact absurd hr (hno e₀ he₀)
      · exact h.owner i' e' he' hr
    have hnil : sentTo id es = [] := by
      refine sentTo_eq_nil fun x hx => ?_
      obtain ⟨data, ok, rfl⟩ := hes x hx
      cases ok <;> simp [IoEvent.sentTo, hi]
    rw [hd]
    exact ⟨⟨hrunning, howner, hsame ▸ h.entry, hwait ▸ h.waiting⟩, es, ht, hnil⟩

/-- Meanwhile tasks may put more messages behind those that wait. -/
theorem Ready.quiet (lib : Libsrt) {actions : List Action} (h : Ready id c msgs b)
    (hq : Only (fun _ => false) actions) :
    Ready id c msgs (b.run lib actions) ∧ (b.run lib actions).trace = b.trace := by
  induction actions generalizing b with
  | nil => exact ⟨h, rfl⟩
  | cons a actions ih =>
    have hrest : Only (fun _ => false) actions := fun s hs => by
      refine hq s ?_
      rw [List.filterMap_cons]
      split
      · exact hs
      · exact List.mem_cons_of_mem _ hs
    have hone : Ready id c msgs (b.act lib a) ∧ (b.act lib a).trace = b.trace := by
      cases a with
      | io s => exact absurd (hq s (List.mem_cons_self ..)) Bool.false_ne_true
      | tokio t =>
        refine ⟨⟨?_, ?_, ?_, ?_⟩, ?_⟩
        · cases t <;> exact h.running
        · cases t <;> exact h.owner
        · cases t <;> exact h.entry
        · cases t with
          | sendData d data =>
            obtain ⟨e, he, hc, -⟩ := h.entry
            have hwait := h.waiting
            rw [unsent_some he, if_pos hc] at hwait
            have hgrows : (b.sends c).buffer <+: ((b.act lib (.tokio (.sendData d data))).sends c).buffer := by
              show _ <+: (Function.update b.sends d ((b.sends d).send data) c).buffer
              by_cases hd : c = d
              · subst hd
                rw [Function.update_self, Mpsc.send]
                split_ifs
                · exact List.prefix_refl _
                · exact List.prefix_append ..
              · rw [Function.update_of_ne hd]
            rw [unsent_some (b := b.act lib (.tokio (.sendData d data))) he, if_pos hc]
            exact hwait.trans ((List.prefix_append_right_inj _).mpr hgrows)
          | _ => exact h.waiting
        · cases t <;> rfl
      | elapse d => exact ⟨⟨h.running, h.owner, h.entry, h.waiting⟩, rfl⟩
    obtain ⟨hready, ht⟩ := ih hone.1 hrest
    exact ⟨hready, ht.trans hone.2⟩

/-- A pass over the keys comes to the socket, whatever it does before. -/
theorem run_drains (lib : Libsrt) {ids : List SocketId} (h : Ready id c msgs b) (hid : id ∈ ids)
    {quiet : ℕ → List Action} (hq : ∀ n, Only (fun _ => false) (quiet n)) :
    ∃ es, (b.run lib (weave quiet (ids.map .drain))).trace = b.trace ++ es ∧ Served id msgs es := by
  induction ids generalizing b quiet with
  | nil => cases hid
  | cons i ids ih =>
    obtain ⟨hready, ht₀⟩ := h.quiet lib (hq 0)
    have hwhole : b.run lib (weave quiet ((i :: ids).map .drain)) =
        ((b.run lib (quiet 0)).act lib (.io (.drain i))).run lib
          (weave (fun n => quiet (n + 1)) (ids.map .drain)) := by
      rw [List.map_cons, weave]
      exact List.foldl_append
    rw [hwhole, ← ht₀]
    by_cases hi : i = id
    · subst hi
      obtain ⟨es, ht, hserved⟩ := hready.drain lib
      obtain ⟨more, hmore⟩ := trace_run_grows lib ((b.run lib (quiet 0)).act lib (.io (.drain i)))
        (weave (fun n => quiet (n + 1)) (ids.map .drain))
      refine ⟨es ++ more, ?_, hserved.append more⟩
      rw [← hmore, ht, List.append_assoc]
    · obtain ⟨hnext, es, ht, hnil⟩ := hready.drainOther lib hi
      have hmem : id ∈ ids := (List.mem_cons.mp hid).resolve_left (Ne.symm hi)
      obtain ⟨es', ht', hserved⟩ := ih hnext hmem fun n => hq (n + 1)
      refine ⟨es ++ es', ?_, hserved.after hnil⟩
      rw [ht', ht, List.append_assoc]

end Pass

section Owners

variable {lib : Libsrt} {b : Bridge} {id : SocketId} {c : ChannelId}

def Owns (id : SocketId) (c : ChannelId) (b : Bridge) : Prop :=
  ∀ i e, b.entry i = some e → e.sendRx = some c → i = id

/-- A socket comes by a send channel only when it is registered with it. -/
theorem owns_keeps (lib : Libsrt) (id : SocketId) (c : ChannelId) :
    Keeps lib (fun _ s => s.spares id c = true) (Owns id c) where
  moved {b₀ s b b'} hs _ _ hm h := by
    rcases hm.sends with ⟨i, rfl⟩ | ⟨-, -, hent⟩
    · intro i' e' he' hr
      obtain ⟨l, hl⟩ := entry_handleSend lib b i
      rw [hl] at he'
      split_ifs at he' with hi
      · obtain ⟨e, he, rfl⟩ := Option.map_eq_some_iff.mp he'
        exact hi ▸ h i e he hr
      · exact h i' e' he' hr
    · intro i e' he' hr
      rcases hent i e' he' with ⟨r, d, t, rfl, hd⟩ | ⟨hn, -⟩ | ⟨e, he, hsame | hn, -⟩
      · obtain rfl : d = c := Option.some.inj (hd.symm.trans hr)
        simpa [IoStep.spares] using hs
      · cases hn.symm.trans hr
      · exact h i e he (hsame.symm.trans hr)
      · cases hn.symm.trans hr
  tokio t h := by cases t <;> exact h
  same hent _ _ h i e he := h i e (hent i ▸ he)

end Owners

namespace IoThread

section Turns

variable {lib : Libsrt} {f : Finds} {t : IoThread} {kind : IoStep → Bool} {id : SocketId} {c : ChannelId}

/-- The thread as a turn of the active path finds it when the commands are done and the events handled. -/
def handled (lib : Libsrt) (t : IoThread) (f : Finds) : IoThread :=
  { (t.wake lib).drainCommands lib f with consecutiveEpollErrors := 0 }.processEvents lib f
    (f.events.getD [])

def drains (lib : Libsrt) (t : IoThread) (f : Finds) : Bool :=
  t.isActive lib f && ((t.wake lib).drainCommands lib f).bridge.hasConnected

/-- What a turn that drains the send channels goes on with. -/
theorem turn_drains (h : t.drains lib f = true) : (t.handled lib f).bridge.running = true ∧
    t.turn lib f = ((((t.handled lib f).drainSends lib f true).sweepGroups lib f true).checkStranded
      lib f).pollStates lib f := by
  simp only [drains, isActive, Bool.and_eq_true, Bool.not_eq_true', Option.isSome_iff_exists] at h
  obtain ⟨⟨⟨⟨hr, hb⟩, hc, hi⟩, events, hevents⟩, hconn⟩ := h
  have hsockets : (t.wake lib).bridge.sockets = t.bridge.sockets := rfl
  have hhandled : t.handled lib f =
      { (t.wake lib).drainCommands lib f with consecutiveEpollErrors := 0 }.processEvents lib f events := by
    rw [handled, hevents, Option.getD_some]
  constructor
  · rw [hhandled]
    refine (Adds.running ((processEvents_adds ..).mono fun s hs => ?_)).trans hc
    cases s <;> simp_all [IoStep.isEvent, IoStep.isCommand]
  · unfold turn
    rw [if_neg (by simp [hr])]
    dsimp only
    rw [hsockets, if_neg (by simp [hb]), goOn, if_neg (by simp [hc]), if_neg (by simp [hi]), hevents, hhandled,
      ← hconn]
    rfl

/-- The commands that a turn takes are those that it finds, and a shutdown when there is nobody left to
send one. -/
theorem drainCommands_takes (hcmds : ∀ cmd ∈ f.commands, kind (.command cmd) = true)
    (hdown : kind (.command .shutdown) = true) : Adds lib kind t (t.drainCommands lib f) := by
  refine takes_adds .commands fun s hs => ?_
  rcases List.mem_append.mp hs with hs | hs
  · obtain ⟨cmd, hcmd, rfl⟩ := List.mem_map.mp hs
    exact hcmds cmd hcmd
  · split_ifs at hs
    · obtain rfl := List.mem_singleton.mp hs
      exact hdown
    · cases hs

theorem handled_takes (hcmds : ∀ cmd ∈ f.commands, kind (.command cmd) = true)
    (hdown : kind (.command .shutdown) = true) (hother : ∀ s, s.isCommand = false → kind s = true) :
    Adds lib kind (t.wake lib) (t.handled lib f) := by
  have hevents : Adds lib kind ((t.wake lib).drainCommands lib f) (t.handled lib f) :=
    (processEvents_adds lib { (t.wake lib).drainCommands lib f with consecutiveEpollErrors := 0 } f
      (f.events.getD [])).mono fun s hs => hother s (by cases s <;> simp_all [IoStep.isEvent, IoStep.isCommand])
  exact (drainCommands_takes hcmds hdown).trans hevents

theorem does_adds {actions : List Action} (h : Only kind actions) : Adds lib kind t (t.does lib actions) :=
  ⟨actions, h, rfl, rfl⟩

theorem pollStates_adds (lib : Libsrt) (t : IoThread) (f : Finds) :
    Adds lib (fun s => !s.isCommand) t (t.pollStates lib f) := by
  unfold pollStates
  split_ifs
  · have hpolls : Adds lib (fun s => !s.isCommand) { t with statePollCounter := 0 }
        ({ t with statePollCounter := 0 }.takes lib f .polls ((t.keys f).map .poll)) :=
      takes_adds .polls (List.forall_mem_map.mpr fun _ _ => rfl)
    exact hpolls.trans (does_adds (List.forall_mem_singleton.mpr rfl))
  · exact .rfl

/-- A turn takes only the commands that it finds, and a shutdown when there is nobody left to send one. -/
theorem turn_takes (lib : Libsrt) (t : IoThread) (hcmds : ∀ cmd ∈ f.commands, kind (.command cmd) = true)
    (hdown : kind (.command .shutdown) = true) (hother : ∀ s, s.isCommand = false → kind s = true) :
    Adds lib kind { t with did := [] } (t.turn lib f) := by
  have hrest {t t' : IoThread} (h : Adds lib (fun s => !s.isCommand) t t') : Adds lib kind t t' :=
    h.mono fun s hs => hother s (by simpa using hs)
  have hwake : Adds lib kind { t with did := [] } (t.wake lib) :=
    does_adds (t := { t with did := [], sleeps := 0 }) fun _ h => (by cases h)
  unfold turn
  split_ifs with hr
  · exact .rfl
  dsimp only
  refine hwake.trans ?_
  split_ifs
  · have hwaits : Adds lib kind (t.wake lib) ((t.wake lib).does lib (f.meanwhile .commands 0)) :=
      does_adds (only_quiet (f.meanwhile_quiet _ 0))
    refine hwaits.trans (does_adds (List.forall_mem_singleton.mpr ?_))
    cases hcmd : f.commands with
    | nil => exact hdown
    | cons cmd cmds => exact hcmds cmd (hcmd ▸ List.mem_cons_self ..)
  · refine (drainCommands_takes hcmds hdown).trans ?_
    generalize (t.wake lib).drainCommands lib f = u
    unfold goOn
    split_ifs
    · exact .rfl
    · refine hrest (((processEvents_adds lib u f (f.events.getD [])).mono fun s hs => ?_).trans ?_)
      · cases s <;> simp_all [IoStep.isEvent, IoStep.isCommand]
      · exact does_adds (t := u.processEvents lib f (f.events.getD [])) (List.forall_mem_singleton.mpr rfl)
    · cases f.events with
      | none => exact .rfl
      | some events => exact hrest (((beforePoll_adds lib u f events).mono fun _ hs => IoStep.not_command_of_serves hs).trans
        (pollStates_adds ..))

/-- What every step keeps but for some commands, the loop keeps as long as it is not given those. -/
theorem turns_keep {P : Bridge → Prop} (hk : Keeps lib (fun _ s => kind s = true) P)
    (hdown : kind (.command .shutdown) = true) (hother : ∀ s, s.isCommand = false → kind s = true)
    {finds : List Finds} (hcmds : ∀ f ∈ finds, ∀ cmd ∈ f.commands, kind (.command cmd) = true)
    (hP : P t.bridge) : P (t.turns lib finds).bridge := by
  induction finds generalizing t with
  | nil => exact hP
  | cons f finds ih =>
    have hturn := turn_takes lib t (hcmds f (List.mem_cons_self ..)) hdown hother
    exact ih (fun g hg => hcmds g (List.mem_cons_of_mem _ hg)) (hturn.keeps hk hP)

/-- In any run of the loop: a turn that drains the send channels offers to libsrt all that waits, when its
events are handled, for a connected socket whose send channel is its own. libsrt takes it in order, up
to a message of this very socket that it refuses; what it makes of those of others does not matter, nor
the order in which the map gives out its keys. -/
theorem sends_served (lib : Libsrt) (earlier : List Finds) (f : Finds) (id : SocketId) (c : ChannelId)
    (hown : ∀ g ∈ earlier ++ [f], ∀ cmd ∈ g.commands, (IoStep.command cmd).spares id c = true) :
    let t := start.turns lib earlier
    t.drains lib f = true → ∀ e, (t.handled lib f).bridge.entry id = some e → e.sendRx = some c →
      e.lastStatus = .connected → ∃ es, (t.turn lib f).bridge.trace = (t.handled lib f).bridge.trace ++ es ∧
        Served id ((t.handled lib f).bridge.unsent id c) es := by
  intro t hdrains e he hc hs
  have hother (s : IoStep) (h : s.isCommand = false) : s.spares id c = true := by
    cases s <;> simp_all [IoStep.isCommand, IoStep.spares]
  have hstart : Owns id c t.bridge :=
    turns_keep (owns_keeps lib id c) rfl hother (fun g hg => hown g (List.mem_append_left _ hg))
      fun _ _ h => (by cases h)
  have howns : Owns id c (t.handled lib f).bridge := by
    have hwake : Owns id c (t.wake lib).bridge := hstart
    exact (handled_takes (hown f (by simp)) rfl hother).keeps (owns_keeps lib id c) hwake
  obtain ⟨hrunning, hturn⟩ := turn_drains hdrains
  have hready : Ready id c ((t.handled lib f).bridge.unsent id c) (t.handled lib f).bridge :=
    ⟨hrunning, howns, ⟨e, he, hc, hs⟩, List.prefix_refl _⟩
  rw [hturn]
  generalize t.handled lib f = u at hready he ⊢
  have hkey : id ∈ u.keys f := (f.order_perm _).mem_iff.mpr (AList.lookup_isSome.mp (by
    rw [show AList.lookup id u.bridge.sockets = some e from he]
    rfl))
  obtain ⟨es, ht, hserved⟩ := run_drains lib hready hkey (f.meanwhile_quiet .drains)
  have hafter : Adds lib (fun s => !s.isCommand) (u.drainSends lib f true)
      ((((u.drainSends lib f true).sweepGroups lib f true).checkStranded lib f).pollStates lib f) := by
    refine ((sweepGroups_adds ..).mono fun s h => ?_).trans
      (((checkStranded_adds ..).mono fun s h => ?_).trans (pollStates_adds ..))
    · cases s <;> simp_all [IoStep.isSweep, IoStep.isCommand]
    · cases s <;> simp_all [IoStep.isCheck, IoStep.isCommand]
  obtain ⟨as, -, -, hrun⟩ := hafter
  obtain ⟨more, hmore⟩ := trace_run_grows lib (u.drainSends lib f true).bridge as
  have hdrained : (u.drainSends lib f true).bridge =
      u.bridge.run lib (weave (f.meanwhile .drains) ((u.keys f).map .drain)) := rfl
  refine ⟨es ++ more, ?_, hserved.append more⟩
  rw [hrun, ← hmore, hdrained, ht, List.append_assoc]

/-- What a turn finds whose tasks send messages while it waits for events; the map gives its keys out last
first. -/
def sending (commands : List IoCommand) (msgs : List (ChannelId × Bytes)) : Finds :=
  { Finds.commanded commands with
    order := List.reverse
    order_perm := List.reverse_perm
    meanwhile := fun phase _ => if phase = .events then msgs.map fun m => .tokio (.sendData m.1 m.2) else []
    meanwhile_quiet := fun phase _ => by split_ifs <;> simp [Only, Action.ioStep] }

/-- A library that would block on `[1]` at first, and refuses `[3]` and `[4]`. -/
def choosy : Libsrt :=
  { Libsrt.connected with
    sendmsg := fun k _ _ data => if data = [1] ∧ k < 4 ∨ data = [3] ∨ data = [4] then -1 else 0
    getlasterror := fun k _ => if k < 4 then 6001 else 2001 }

/-- Two connected sockets, the first with a message in its backlog. -/
def backlogged : List Finds :=
  [.commanded [.registerSocket 7 1 2 3], sending [.registerSocket 8 4 5 6] [(2, [1])]]

def sendingMore : Finds := sending [] [(2, [2]), (5, [4]), (2, [3])]

/-- The message of a turn before goes out in this turn from the backlog, and one sent meanwhile behind it;
the last is refused. The other socket's is refused first. -/
theorem sends_served_meanwhile :
    let t := start.turns choosy backlogged
    ((t.bridge.entry 7).map SocketState.sendBacklog = some [[1]] ∧
        sentTo 7 (t.turn choosy sendingMore).bridge.trace = [[1], [2]] ∧
        sentTo 8 (t.turn choosy sendingMore).bridge.trace = []) ∧
      ∃ es, (t.turn choosy sendingMore).bridge.trace = (t.handled choosy sendingMore).bridge.trace ++ es ∧
        Served 7 [[1], [2], [3]] es := by
  intro t
  have hwaits : (t.handled choosy sendingMore).bridge.unsent 7 2 = [[1], [2], [3]] := by decide +kernel
  have hentry : ((t.handled choosy sendingMore).bridge.entry 7).map (fun e => (e.sendRx, e.lastStatus)) =
      some (some 2, .connected) := by decide +kernel
  obtain ⟨e, he, hchan⟩ := Option.map_eq_some_iff.mp hentry
  obtain ⟨hc, hs⟩ := Prod.mk.inj hchan
  refine ⟨by decide +kernel, ?_⟩
  rw [← hwaits]
  exact sends_served choosy backlogged sendingMore 7 2 (by decide +kernel) (by decide +kernel) e he hc hs

end Turns

end IoThread

end Bridge

end SrtBridge
