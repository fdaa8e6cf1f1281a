import SrtBridge.Bridge.Schedule

/-! The pace of the loop: which steps a turn takes by its counter and its timers, how often it polls the
socket states, and what it knows after a poll. -/

namespace SrtBridge

open General

namespace Bridge

/-- The entry's recorded status is what libsrt read of `id` in a poll that began in one of the steps,
or the entry is that of a group that polls leave alone. -/
def Polled (lib : Libsrt) (lo hi : ℕ) (id : SocketId) (e : SocketState) : Prop :=
  e.isGroup = true ∧ e.lastStatus = .init ∨ ∃ k, lo ≤ k ∧ k < hi ∧ e.lastStatus = lib.status k 0 id

section Pass

variable {lib : Libsrt} {b : Bridge} {id : SocketId}

theorem Polled.mono {lo lo' hi hi' : ℕ} {e : SocketState} (h : Polled lib lo hi id e) (hlo : lo' ≤ lo)
    (hhi : hi ≤ hi') : Polled lib lo' hi' id e :=
  h.imp_right fun ⟨k, hk, hk', hq⟩ => ⟨k, hlo.trans hk, hk'.trans_le hhi, hq⟩

theorem poll_polled {e : SocketState} (he : (b.poll lib id).entry id = some e) :
    Polled lib b.step (b.step + 1) id e := by
  cases hb : b.entry id with
  | none =>
    unfold poll at he
    rw [hb] at he
    cases hb.symm.trans he
  | some e₀ =>
    rw [entry_poll hb] at he
    have hread (h : e.lastStatus = lib.status b.step 0 id) : Polled lib b.step (b.step + 1) id e :=
      .inr ⟨b.step, le_rfl, Nat.lt_succ_self _, h⟩
    split_ifs at he with hskip hdead
    · obtain rfl := Option.some.inj he
      exact hskip.elim (fun hgroup => .inl hgroup) fun hsame => hread hsame.symm
    · obtain rfl := Option.some.inj he
      exact hread (SocketState.updateStatus_lastStatus ..)
    · obtain rfl := Option.some.inj he
      exact hread (SocketState.updateStatus_lastStatus ..)

/-- What Tokio tasks do and the passing of time leave of a bridge. -/
theorem run_quiet {actions : List Action} (h : Only (fun _ => false) actions) :
    (∀ i, (b.run lib actions).entry i = b.entry i) ∧ (b.run lib actions).running = b.running := by
  induction actions generalizing b with
  | nil => exact ⟨fun _ => rfl, rfl⟩
  | cons a actions ih =>
    have hrest : Only (fun _ => false) actions := fun s hs => by
      refine h s ?_
      rw [List.filterMap_cons]
      split
      · exact hs
      · exact List.mem_cons_of_mem _ hs
    obtain ⟨hent, hrun⟩ := ih (b := b.act lib a) hrest
    cases a with
    | io s => exact absurd (h s (List.mem_cons_self ..)) Bool.false_ne_true
    | tokio t => cases t <;> exact ⟨hent, hrun⟩
    | elapse d => exact ⟨hent, hrun⟩

theorem act_poll (lib : Libsrt) (hr : b.running = true) (id : SocketId) :
    (b.act lib (.io (.poll id))).running = true ∧
      (∀ e, (b.act lib (.io (.poll id))).entry id = some e →
        Polled lib b.step (b.act lib (.io (.poll id))).step id e) ∧
      ∀ i, i ≠ id → (b.act lib (.io (.poll id))).entry i = b.entry i := by
  obtain ⟨-, hrun, hstep⟩ := ioStep_ambient lib b (.poll id)
  have hact : b.act lib (.io (.poll id)) = { b.poll lib id with step := (b.poll lib id).step + 1 } :=
    if_pos hr
  rw [hact]
  refine ⟨(hrun (by simp)).trans hr, fun e he => ?_, fun i hi => entry_poll_ne hi⟩
  exact (poll_polled he).mono le_rfl (Nat.succ_le_succ hstep)

theorem run_polls (lib : Libsrt) (ids : List SocketId) {quiet : ℕ → List Action}
    (hq : ∀ n, Only (fun _ => false) (quiet n)) (hr : b.running = true) :
    (b.run lib (weave quiet (ids.map .poll))).running = true ∧
      ∀ i e, (b.run lib (weave quiet (ids.map .poll))).entry i = some e →
        Polled lib b.step (b.run lib (weave quiet (ids.map .poll))).step i e ∨
          i ∉ ids ∧ b.entry i = some e := by
  induction ids generalizing b quiet with
  | nil =>
    obtain ⟨hent, hrun⟩ := run_quiet (b := b) (hq 0)
    exact ⟨hrun.trans hr, fun i e he => .inr ⟨List.not_mem_nil, (hent i).symm.trans he⟩⟩
  | cons id ids ih =>
    obtain ⟨hent₀, hrun₀⟩ := run_quiet (b := b) (hq 0)
    have hstep₀ := run_step_le lib b (quiet 0)
    set b₀ := b.run lib (quiet 0)
    obtain ⟨hrun₁, hpolled, hother⟩ := act_poll lib (hrun₀.trans hr) id
    have hstep₁ := act_step_le lib b₀ (.io (.poll id))
    set b₁ := b₀.act lib (.io (.poll id))
    have hwhole : b.run lib (weave quiet ((id :: ids).map .poll)) =
        b₁.run lib (weave (fun n => quiet (n + 1)) (ids.map .poll)) := by
      rw [List.map_cons, weave]
      exact List.foldl_append
    rw [hwhole]
    have hstep₂ := run_step_le lib b₁ (weave (fun n => quiet (n + 1)) (ids.map .poll))
    obtain ⟨hrun₂, hrest⟩ := ih (fun n => hq (n + 1)) hrun₁
    refine ⟨hrun₂, fun i e he => ?_⟩
    rcases hrest i e he with hp | ⟨hnot, he₁⟩
    · exact .inl (hp.mono (hstep₀.trans hstep₁) le_rfl)
    · by_cases hi : i = id
      · subst hi
        exact .inl ((hpolled e he₁).mono hstep₀ hstep₂)
      · refine .inr ⟨by simp [hi, hnot], ?_⟩
        rw [← hent₀ i, ← hother i hi]
        exact he₁

theorem cleanup_no_zombie {e : SocketState} (he : b.cleanupZombies.entry id = some e) :
    b.entry id = some e ∧ b.cleanupZombies.isZombie e = false := by
  have hchan : b.cleanupZombies.channels = b.channels := by
    have hall (ids : List SocketId) (c : Bridge) :
        (ids.foldl (fun b id => b.closeAndFail id .connectionLost) c).channels = c.channels := by
      induction ids generalizing c with
      | nil => rfl
      | cons id ids ih => rw [List.foldl_cons, ih, channels_closeAndFail]
    exact hall _ b
  have hpackets : b.cleanupZombies.packets = b.packets := congrArg (·.2.1) hchan
  have hsame : b.cleanupZombies.isZombie e = b.isZombie e := by
    unfold isZombie recvClosed
    rw [hpackets]
  rw [entry_cleanupZombies] at he
  split_ifs at he with hz
  refine ⟨he, ?_⟩
  rw [hsame, ← Bool.not_eq_true]
  exact fun hzombie => hz (mem_zombies.mpr ⟨e, he, hzombie⟩)

end Pass

/-- The step serves what is there: it is no command, and reaps nothing. -/
def IoStep.serves : IoStep → Bool
  | .command _ | .cleanup => false
  | _ => true

theorem IoStep.not_command_of_serves {s : IoStep} (h : s.serves = true) : (!s.isCommand) = true := by
  cases s <;> first | rfl | cases h

/-- The loop takes the step on a timer or by its count of turns. -/
def IoStep.isTimed : IoStep → Bool
  | .sweep _ | .check _ | .poll _ => true
  | _ => false

theorem isSome_keeps (lib : Libsrt) (id : SocketId) :
    KeepsEntry lib (fun _ s => s.serves = true) id fun e _ => e.isSome = true where
  note _ _ h := h
  backlog _ _ := rfl
  change hok _ _ hch _ := by
    cases hch with
    | close _ h => cases h <;> subst_vars <;> cases hok
    | _ => rfl

namespace IoThread

section Turns

variable {lib : Libsrt} {f : Finds} {t t' t'' : IoThread} {kind kind' : IoStep → Bool}

theorem only_mono {as : List Action} (h : Only kind as) (hk : ∀ s, kind s = true → kind' s = true) :
    Only kind' as :=
  fun s hs => hk s (h s hs)

theorem Adds.mono (h : Adds lib kind t t') (hk : ∀ s, kind s = true → kind' s = true) :
    Adds lib kind' t t' := by
  obtain ⟨as, honly, hdid, hrun⟩ := h
  exact ⟨as, only_mono honly hk, hdid, hrun⟩

theorem Adds.trans (h : Adds lib kind t t') (h' : Adds lib kind t' t'') : Adds lib kind t t'' := by
  obtain ⟨as, honly, hdid, hrun⟩ := h
  obtain ⟨as', honly', hdid', hrun'⟩ := h'
  refine ⟨as ++ as', only_append honly honly', by rw [hdid', hdid, List.append_assoc], ?_⟩
  rw [hrun', hrun]
  exact List.foldl_append.symm

/-- Steps other than commands leave the thread running. -/
theorem Adds.running (h : Adds lib (fun s => !s.isCommand) t t') :
    t'.bridge.running = t.bridge.running := by
  obtain ⟨as, honly, -, hrun⟩ := h
  rw [hrun]
  clear hrun
  generalize t.bridge = b
  induction as generalizing b with
  | nil => rfl
  | cons a as ih =>
    have hrest : Only (fun s => !s.isCommand) as := fun s hs => by
      refine honly s ?_
      rw [List.filterMap_cons]
      split
      · exact hs
      · exact List.mem_cons_of_mem _ hs
    have hone : (b.act lib a).running = b.running := by
      cases a with
      | io s =>
        have hs : s ≠ .command .shutdown := by
          rintro rfl
          exact absurd (honly _ (List.mem_cons_self ..)) (by simp [IoStep.isCommand])
        show (if b.running = true then _ else b).running = b.running
        split_ifs
        · exact (ioStep_ambient lib b s).2.1 hs
        · rfl
      | tokio t => cases t <;> rfl
      | elapse d => rfl
    exact (ih hrest (b.act lib a)).trans hone

theorem Adds.keeps {P : Bridge → Prop} (h : Adds lib kind t t')
    (hk : Keeps lib (fun _ s => kind s = true) P) (hP : P t.bridge) : P t'.bridge := by
  obtain ⟨as, honly, -, hrun⟩ := h
  rw [hrun]
  refine hk.run (along_iff.mpr fun pre a post hsplit => ?_) hP
  cases a with
  | io s =>
    refine fun _ => honly s ?_
    rw [hsplit, List.filterMap_append, List.mem_append, List.filterMap_cons]
    exact .inr (List.mem_cons_self ..)
  | tokio | elapse => trivial

theorem beforePoll_adds (lib : Libsrt) (t : IoThread) (f : Finds)
    (events : List (SocketId × EpollFlags)) :
    Adds lib IoStep.serves t (t.beforePoll lib f events) := by
  have hevents : Adds lib IoStep.serves t
      ({ t with consecutiveEpollErrors := 0 }.processEvents lib f events) :=
    (processEvents_adds ..).mono fun s hs => by cases s <;> simp_all [IoStep.isEvent, IoStep.serves]
  refine hevents.trans (((drainSends_adds ..).mono fun s hs => ?_).trans
    (((sweepGroups_adds ..).mono fun s hs => ?_).trans ((checkStranded_adds ..).mono fun s hs => ?_)))
  · cases s <;> simp_all [IoStep.isDrain, IoStep.serves]
  · cases s <;> simp_all [IoStep.isSweep, IoStep.serves]
  · cases s <;> simp_all [IoStep.isCheck, IoStep.serves]

/-- The steps that the thread has taken in this turn. -/
def steps (t : IoThread) : List IoStep := t.did.filterMap Action.ioStep

def takesStep (kind : IoStep → Bool) (lib : Libsrt) (t : IoThread) (f : Finds) : Bool :=
  (t.turn lib f).steps.any kind

theorem ioSteps_quiet {as : List Action} (h : Only (fun _ => false) as) : as.filterMap Action.ioStep = [] :=
  List.eq_nil_iff_forall_not_mem.mpr fun s hs => absurd (h s hs) Bool.false_ne_true

theorem ioSteps_weave {quiet : ℕ → List Action} (hq : ∀ n, Only (fun _ => false) (quiet n))
    (steps : List IoStep) : (weave quiet steps).filterMap Action.ioStep = steps := by
  induction steps generalizing quiet with
  | nil => exact ioSteps_quiet (hq 0)
  | cons s steps ih =>
    rw [weave, List.filterMap_append, ioSteps_quiet (hq 0), List.filterMap_cons, ih fun n => hq (n + 1)]
    rfl

theorem does_quiet {as : List Action} (h : Only (fun _ => false) as) : (t.does lib as).steps = t.steps := by
  rw [steps, does, List.filterMap_append, ioSteps_quiet h, List.append_nil]
  rfl

@[simp] theorem steps_takes (lib : Libsrt) (f : Finds) (phase : Phase) (ss : List IoStep) (t : IoThread) :
    (t.takes lib f phase ss).steps = t.steps ++ ss := by
  rw [steps, takes, does, List.filterMap_append, ioSteps_weave (f.meanwhile_quiet phase)]
  rfl

@[simp] theorem steps_act (lib : Libsrt) (s : IoStep) (t : IoThread) :
    (t.does lib [.io s]).steps = t.steps ++ [s] := by
  rw [steps, does, List.filterMap_append]
  rfl

theorem steps_processEvents (lib : Libsrt) (f : Finds) (events : List (SocketId × EpollFlags)) (t : IoThread) :
    (t.processEvents lib f events).steps = t.steps ++ events.map fun e => .event e.1 e.2 :=
  steps_takes ..

theorem steps_drainSends (lib : Libsrt) (f : Finds) (connected : Bool) (t : IoThread) :
    (t.drainSends lib f connected).steps = t.steps ++ if connected then (t.keys f).map .drain else [] := by
  unfold drainSends
  split_ifs
  · exact steps_takes ..
  · exact (List.append_nil _).symm

theorem steps_sweepGroups (lib : Libsrt) (f : Finds) (connected : Bool) (t : IoThread) :
    (t.sweepGroups lib f connected).steps = t.steps ++
      if connected ∧ groupRecvSweep ≤ t.bridge.clock - t.lastGroupSweep then (t.keys f).map .sweep else [] := by
  unfold sweepGroups
  split_ifs
  · exact steps_takes ..
  · exact (List.append_nil _).symm

theorem steps_checkStranded (lib : Libsrt) (f : Finds) (t : IoThread) :
    (t.checkStranded lib f).steps = t.steps ++
      if strandedCheck ≤ t.bridge.clock - t.lastStrandedCheck then (t.keys f).map .check else [] := by
  unfold checkStranded
  split_ifs
  · exact steps_takes ..
  · exact (List.append_nil _).symm

theorem steps_pollStates (lib : Libsrt) (f : Finds) (t : IoThread) :
    (t.pollStates lib f).steps = t.steps ++
      if statePollInterval ≤ t.statePollCounter + 1 then (t.keys f).map .poll ++ [.cleanup] else [] := by
  unfold pollStates
  split_ifs
  · rw [steps_act, steps_takes, List.append_assoc]
    rfl
  · exact (List.append_nil _).symm

/-- What a turn takes before it classifies the sockets is no timed step. -/
theorem steps_drainCommands (lib : Libsrt) (f : Finds) (t : IoThread) :
    ∀ s ∈ ((t.wake lib).drainCommands lib f).steps, s.isTimed = false := by
  have hwake : (t.wake lib).steps = [] := rfl
  intro s hs
  rw [drainCommands, steps_takes, hwake, List.nil_append, List.mem_append] at hs
  rcases hs with hs | hs
  · obtain ⟨cmd, -, rfl⟩ := List.mem_map.mp hs
    rfl
  · split_ifs at hs
    · obtain rfl := List.mem_singleton.mp hs
      rfl
    · cases hs

/-- Time has passed; no timer has been set, and no turn of the active path been counted. -/
structure Waits (t t' : IoThread) : Prop where
  clock : t.bridge.clock ≤ t'.bridge.clock
  step : t.bridge.step ≤ t'.bridge.step
  sweep : t'.lastGroupSweep = t.lastGroupSweep
  check : t'.lastStrandedCheck = t.lastStrandedCheck
  count : t'.statePollCounter = t.statePollCounter

theorem Waits.trans (h : Waits t t') (h' : Waits t' t'') : Waits t t'' :=
  ⟨h.clock.trans h'.clock, h.step.trans h'.step, h'.sweep.trans h.sweep, h'.check.trans h.check,
    h'.count.trans h.count⟩

theorem does_waits (lib : Libsrt) (t : IoThread) (actions : List Action) : Waits t (t.does lib actions) :=
  ⟨run_clock_le .., run_step_le .., rfl, rfl, rfl⟩

theorem wake_waits (lib : Libsrt) (t : IoThread) : Waits t (t.wake lib) :=
  ⟨act_clock_le lib t.bridge (.elapse t.sleeps), act_step_le lib t.bridge (.elapse t.sleeps), rfl, rfl, rfl⟩

theorem drainCommands_waits (lib : Libsrt) (t : IoThread) (f : Finds) :
    Waits t ((t.wake lib).drainCommands lib f) :=
  (wake_waits lib t).trans (does_waits lib _ _)

theorem drainSends_waits (lib : Libsrt) (t : IoThread) (f : Finds) (connected : Bool) :
    Waits t (t.drainSends lib f connected) := by
  unfold drainSends
  split_ifs
  · exact does_waits lib _ _
  · exact ⟨le_rfl, le_rfl, rfl, rfl, rfl⟩

/-- A turn on the active path, from where its commands are done. -/
theorem turn_active (h : t.isActive lib f = true) :
    ∃ (events : List (SocketId × EpollFlags)) (c : IoThread), f.events = some events ∧ Waits t c ∧
      c.bridge.running = true ∧ c.bridge.idle = false ∧ (∀ s ∈ c.steps, s.isTimed = false) ∧
        t.turn lib f = c.activePath lib f events := by
  simp only [isActive, Bool.and_eq_true, Bool.not_eq_true', Option.isSome_iff_exists] at h
  obtain ⟨⟨⟨hr, hb⟩, hc, hi⟩, events, hevents⟩ := h
  refine ⟨events, (t.wake lib).drainCommands lib f, hevents, drainCommands_waits lib t f, hc, hi,
    steps_drainCommands lib f t, ?_⟩
  have hsockets : (t.wake lib).bridge.sockets = t.bridge.sockets := rfl
  unfold turn
  rw [if_neg (by simp [hr])]
  dsimp only
  rw [hsockets, if_neg (by simp [hb]), goOn, if_neg (by simp [hc]), if_neg (by simp [hi]), hevents]

theorem turn_inactive (h : t.isActive lib f = false) : Waits t (t.turn lib f) := by
  have hsockets : (t.wake lib).bridge.sockets = t.bridge.sockets := rfl
  unfold turn
  split_ifs with hr
  · exact ⟨le_rfl, le_rfl, rfl, rfl, rfl⟩
  · dsimp only
    rw [hsockets]
    split_ifs with hb
    · exact ((wake_waits lib t).trans (does_waits lib _ _)).trans (does_waits lib _ _)
    · have hc := drainCommands_waits lib t f
      unfold goOn
      split_ifs with hrun hi
      · exact hc
      · have hevents := hc.trans (does_waits lib _
          (weave (f.meanwhile .events) ((f.events.getD []).map fun e => .event e.1 e.2)))
        have hidle := hevents.trans (does_waits lib _ [.io .cleanup])
        exact ⟨hidle.clock, hidle.step, hidle.sweep, hidle.check, hidle.count⟩
      · cases hevents : f.events with
        | none => exact ⟨hc.clock, hc.step, hc.sweep, hc.check, hc.count⟩
        | some events =>
          simp only [Bool.not_eq_true, Bool.not_eq_false] at hr hb hi hrun
          simp [isActive, hr, hb, hrun, hi, hevents] at h

/-- Steps that serve leave the map with an entry, if something in it was connected or connecting. -/
theorem keys_of_serves {c : IoThread} (h : Adds lib IoStep.serves c t) (hi : c.bridge.idle = false) :
    t.keys f ≠ [] := by
  intro hnil
  have hkeys : t.bridge.sockets.keys = [] := ((f.order_perm _).symm.trans (.of_eq hnil)).eq_nil
  have hgone (id : SocketId) : c.bridge.entry id = none := by
    by_contra hne
    have hstays := h.keeps (isSome_keeps lib id).keeps (Option.isSome_iff_ne_none.mpr hne)
    have hmem : id ∈ t.bridge.sockets.keys := AList.lookup_isSome.mp hstays
    rw [hkeys] at hmem
    cases hmem
  have hnone := entries_of_empty hgone
  simp [idle, hasConnected, hasConnecting, anyWith, hnone] at hi

/-- A turn on the active path, from where the send channels are drained: the map is not empty, and
neither are its keys once more steps have served it. -/
theorem turn_drained (h : t.isActive lib f = true) : ∃ (connected : Bool) (u : IoThread),
    Waits t u ∧ (∀ s ∈ u.steps, s.isTimed = false) ∧
      (∀ v, Adds lib IoStep.serves u v → v.keys f ≠ []) ∧
      t.turn lib f = ((u.sweepGroups lib f connected).checkStranded lib f).pollStates lib f := by
  obtain ⟨events, c, -, hc, -, hi, hsteps, hturn⟩ := turn_active h
  obtain ⟨r, hr⟩ : ∃ r, r = { c with consecutiveEpollErrors := 0 } := ⟨_, rfl⟩
  have hreset : Waits t r := hr ▸ ⟨hc.clock, hc.step, hc.sweep, hc.check, hc.count⟩
  have hfree : ∀ s ∈ r.steps, s.isTimed = false := hr ▸ hsteps
  have hbusy : r.bridge.idle = false := hr ▸ hi
  rw [activePath, beforePoll, ← hr] at hturn
  refine ⟨c.bridge.hasConnected, _, ?_, fun s hs => ?_, fun v hv => ?_, hturn⟩
  · exact (hreset.trans (does_waits lib _ _)).trans (drainSends_waits lib _ f _)
  · rw [steps_drainSends, steps_processEvents] at hs
    simp only [List.mem_append] at hs
    rcases hs with (hs | hs) | hs
    · exact hfree s hs
    · obtain ⟨e, -, rfl⟩ := List.mem_map.mp hs
      rfl
    · split_ifs at hs
      · obtain ⟨id, -, rfl⟩ := List.mem_map.mp hs
        rfl
      · cases hs
  · have hevents : Adds lib IoStep.serves r (r.processEvents lib f events) :=
      (processEvents_adds lib r f events).mono fun s hs => by cases s <;> simp_all [IoStep.isEvent, IoStep.serves]
    refine keys_of_serves (hevents.trans (((drainSends_adds lib _ f _).mono fun s hs => ?_).trans hv)) hbusy
    cases s <;> simp_all [IoStep.isDrain, IoStep.serves]

/-- A timer that is looked at in a turn is left alone, or is due and set to the time it is. -/
def Ticks (period : Duration) (last last' now : Instant) : Prop :=
  last' = last ∨ last + period ≤ last' ∧ last' ≤ now

theorem Ticks.mono {period : Duration} {last last' now now' : Instant}
    (h : Ticks period last last' now) (hn : now ≤ now') : Ticks period last last' now' :=
  h.imp_right fun ⟨hdue, hnow⟩ => ⟨hdue, hnow.trans hn⟩

theorem Ticks.due {period last now : ℕ} (hpos : 0 < period) (h : period ≤ now - last) :
    Ticks period last now now := by
  have hle : last + period ≤ now := by omega
  exact .inr ⟨hle, le_rfl⟩

theorem sweepGroups_ticks (lib : Libsrt) (t : IoThread) (f : Finds) (connected : Bool) :
    let t' := t.sweepGroups lib f connected
    Waits { t with lastGroupSweep := t'.lastGroupSweep } t' ∧
      Ticks groupRecvSweep t.lastGroupSweep t'.lastGroupSweep t.bridge.clock := by
  unfold sweepGroups
  split_ifs with hdue
  · exact ⟨does_waits lib _ _, .due (by decide) hdue.2⟩
  · exact ⟨⟨le_rfl, le_rfl, rfl, rfl, rfl⟩, .inl rfl⟩

theorem checkStranded_ticks (lib : Libsrt) (t : IoThread) (f : Finds) :
    let t' := t.checkStranded lib f
    Waits { t with lastStrandedCheck := t'.lastStrandedCheck } t' ∧
      Ticks strandedCheck t.lastStrandedCheck t'.lastStrandedCheck t.bridge.clock ∧
        (strandedCheck ≤ t.bridge.clock - t.lastStrandedCheck → t'.lastStrandedCheck = t.bridge.clock) := by
  unfold checkStranded
  split_ifs with hdue
  · exact ⟨does_waits lib _ _, .due (by decide) hdue, fun _ => rfl⟩
  · exact ⟨⟨le_rfl, le_rfl, rfl, rfl, rfl⟩, .inl rfl, fun h => absurd h hdue⟩

structure Timed (t t' : IoThread) : Prop where
  clock : t.bridge.clock ≤ t'.bridge.clock
  step : t.bridge.step ≤ t'.bridge.step
  sweep : Ticks groupRecvSweep t.lastGroupSweep t'.lastGroupSweep t'.bridge.clock
  check : Ticks strandedCheck t.lastStrandedCheck t'.lastStrandedCheck t'.bridge.clock

theorem Waits.timed (h : Waits t t') : Timed t t' :=
  ⟨h.clock, h.step, .inl h.sweep, .inl h.check⟩

theorem beforePoll_timed (lib : Libsrt) (t : IoThread) (f : Finds)
    (events : List (SocketId × EpollFlags)) :
    let t' := t.beforePoll lib f events
    Timed t t' ∧ t'.statePollCounter = t.statePollCounter ∧
      (strandedCheck ≤ t.bridge.clock - t.lastStrandedCheck → t.bridge.clock ≤ t'.lastStrandedCheck) := by
  intro t'
  have hevents : Waits t ({ t with consecutiveEpollErrors := 0 }.processEvents lib f events) :=
    ⟨run_clock_le .., run_step_le .., rfl, rfl, rfl⟩
  have hu := hevents.trans (drainSends_waits lib _ f t.bridge.hasConnected)
  have ht' : t' = ((({ t with consecutiveEpollErrors := 0 }.processEvents lib f events).drainSends
      lib f t.bridge.hasConnected).sweepGroups lib f t.bridge.hasConnected).checkStranded lib f := rfl
  generalize ({ t with consecutiveEpollErrors := 0 }.processEvents lib f events).drainSends
    lib f t.bridge.hasConnected = u at hu ht'
  obtain ⟨hv, hsweep⟩ := sweepGroups_ticks lib u f t.bridge.hasConnected
  generalize u.sweepGroups lib f t.bridge.hasConnected = v at hv hsweep ht'
  obtain ⟨hw, hcheck, hdue⟩ := checkStranded_ticks lib v f
  rw [← ht'] at hw hcheck hdue
  have hclock : t.bridge.clock ≤ v.bridge.clock := hu.clock.trans hv.clock
  have hrest : v.bridge.clock ≤ t'.bridge.clock := hw.clock
  rw [hv.check.trans hu.check] at hcheck hdue
  rw [hu.sweep, show v.lastGroupSweep = t'.lastGroupSweep from hw.sweep.symm] at hsweep
  refine ⟨⟨hclock.trans hrest, (hu.step.trans hv.step).trans hw.step, ?_, hcheck.mono hrest⟩,
    hw.count.trans (hv.count.trans hu.count), fun h => ?_⟩
  · exact hsweep.mono (hv.clock.trans hrest)
  · rw [hdue (h.trans (Nat.sub_le_sub_right hclock _))]
    exact hclock

theorem pollStates_timers (lib : Libsrt) (t : IoThread) (f : Finds) :
    t.bridge.clock ≤ (t.pollStates lib f).bridge.clock ∧
    t.bridge.step ≤ (t.pollStates lib f).bridge.step ∧
      (t.pollStates lib f).lastGroupSweep = t.lastGroupSweep ∧
        (t.pollStates lib f).lastStrandedCheck = t.lastStrandedCheck ∧
          (t.pollStates lib f).statePollCounter =
            if statePollInterval ≤ t.statePollCounter + 1 then 0 else t.statePollCounter + 1 := by
  unfold pollStates
  split_ifs
  · have hpolled := (does_waits lib { t with statePollCounter := 0 }
      (weave (f.meanwhile .polls) ((t.keys f).map .poll))).trans (does_waits lib _ [.io .cleanup])
    exact ⟨hpolled.clock, hpolled.step, rfl, rfl, rfl⟩
  · exact ⟨le_rfl, le_rfl, rfl, rfl, rfl⟩

theorem turn_timed (lib : Libsrt) (t : IoThread) (f : Finds) : Timed t (t.turn lib f) ∧
    (t.isActive lib f = true → strandedCheck ≤ t.bridge.clock - t.lastStrandedCheck →
      t.bridge.clock ≤ (t.turn lib f).lastStrandedCheck) := by
  cases h : t.isActive lib f with
  | false => exact ⟨(turn_inactive h).timed, fun hno => (by cases hno)⟩
  | true =>
    obtain ⟨events, c, -, hc, -, -, -, hturn⟩ := turn_active h
    obtain ⟨hu, -, hdue⟩ := beforePoll_timed lib c f events
    obtain ⟨hclock, hstep, hsweep, hcheck, -⟩ :=
      pollStates_timers lib (c.beforePoll lib f events) f
    have htick := hu.sweep.mono hclock
    have htick' := hu.check.mono hclock
    rw [← hsweep, hc.sweep] at htick
    rw [← hcheck, hc.check] at htick'
    rw [← hcheck, hc.check] at hdue
    rw [hturn]
    refine ⟨⟨(hc.clock.trans hu.clock).trans hclock, (hc.step.trans hu.step).trans hstep, htick, htick'⟩,
      fun _ hlate => hc.clock.trans (hdue (hlate.trans (Nat.sub_le_sub_right hc.clock _)))⟩

theorem statePollCounter_turn (lib : Libsrt) (t : IoThread) (f : Finds) :
    (t.turn lib f).statePollCounter =
      if t.isActive lib f then
        if statePollInterval ≤ t.statePollCounter + 1 then 0 else t.statePollCounter + 1
      else t.statePollCounter := by
  cases h : t.isActive lib f with
  | false => exact (turn_inactive h).count
  | true =>
    obtain ⟨events, c, -, hc, -, -, -, hturn⟩ := turn_active h
    obtain ⟨-, hcount, -⟩ := beforePoll_timed lib c f events
    obtain ⟨-, -, -, -, hpolled⟩ :=
      pollStates_timers lib (c.beforePoll lib f events) f
    rw [hturn, if_pos rfl, ← hc.count, ← hcount]
    exact hpolled

theorem any_eq_false {ss : List IoStep} (hk : ∀ s, kind s = true → s.isTimed = true)
    (h : ∀ s ∈ ss, s.isTimed = false) : ss.any kind = false :=
  List.any_eq_false.mpr fun s hs ht => Bool.false_ne_true ((h s hs).symm.trans (hk s ht))

theorem any_due {ids : List SocketId} (hids : ids ≠ []) {step : SocketId → IoStep} {b : Bool}
    (hb : ∀ id, kind (step id) = b) (p : Prop) [Decidable p] :
    (if p then ids.map step else []).any kind = (decide p && b) := by
  obtain ⟨id, ids, rfl⟩ := List.exists_cons_of_ne_nil hids
  by_cases hp : p <;> cases b <;> simp [hp, hb]

theorem sweep_serves (lib : Libsrt) (t : IoThread) (f : Finds) (connected : Bool) :
    Adds lib IoStep.serves t (t.sweepGroups lib f connected) :=
  (sweepGroups_adds ..).mono fun s hs => by cases s <;> simp_all [IoStep.isSweep, IoStep.serves]

theorem check_serves (lib : Libsrt) (t : IoThread) (f : Finds) :
    Adds lib IoStep.serves t (t.checkStranded lib f) :=
  (checkStranded_adds ..).mono fun s hs => by cases s <;> simp_all [IoStep.isCheck, IoStep.serves]

/-- The steps of a kind that a turn of the active path takes on a timer or by its count. -/
theorem takesStep_active (h : t.isActive lib f = true) (hk : ∀ s, kind s = true → s.isTimed = true) :
    ∃ (connected : Bool) (u : IoThread), Waits t u ∧
      let v := u.sweepGroups lib f connected
      let w := v.checkStranded lib f
      t.turn lib f = w.pollStates lib f ∧ u.keys f ≠ [] ∧ v.keys f ≠ [] ∧ w.keys f ≠ [] ∧
        t.takesStep kind lib f =
          ((if connected ∧ groupRecvSweep ≤ u.bridge.clock - u.lastGroupSweep then (u.keys f).map IoStep.sweep
              else []).any kind ||
            (if strandedCheck ≤ v.bridge.clock - v.lastStrandedCheck then (v.keys f).map IoStep.check
              else []).any kind ||
            (if statePollInterval ≤ w.statePollCounter + 1 then (w.keys f).map IoStep.poll
              else []).any kind) := by
  obtain ⟨connected, u, hu, hsteps, hkeys, hturn⟩ := turn_drained h
  have hv := sweep_serves lib u f connected
  refine ⟨connected, u, hu, hturn, hkeys u .rfl, hkeys _ hv, hkeys _ (hv.trans (check_serves ..)), ?_⟩
  have hcleanup : kind .cleanup = false := Bool.eq_false_iff.mpr fun h => Bool.false_ne_true (hk _ h)
  rw [takesStep, hturn, steps_pollStates, steps_checkStranded, steps_sweepGroups]
  simp only [List.any_append, any_eq_false hk hsteps, Bool.false_or]
  congr 1
  split_ifs
  · simp [hcleanup]
  · rfl

theorem takesStep_inactive (h : t.isActive lib f = false) (hk : ∀ s, kind s = true → s.isTimed = true) :
    t.takesStep kind lib f = false := by
  refine any_eq_false hk fun s hs => ?_
  have hcommands := steps_drainCommands lib f t
  have hsockets : (t.wake lib).bridge.sockets = t.bridge.sockets := rfl
  unfold turn at hs
  split_ifs at hs with hr
  · cases hs
  · dsimp only at hs
    rw [hsockets] at hs
    split_ifs at hs with hb
    · have hwake : (t.wake lib).steps = [] := rfl
      rw [park, steps_act, does_quiet (f.meanwhile_quiet .commands 0), hwake] at hs
      obtain rfl := List.mem_singleton.mp hs
      rfl
    · generalize hc : (t.wake lib).drainCommands lib f = c at hs hcommands
      unfold goOn at hs
      split_ifs at hs with hrun hi
      · exact hcommands s hs
      · have hidle : (c.idlePath lib f).steps =
            ((c.processEvents lib f (f.events.getD [])).does lib [.io .cleanup]).steps := rfl
        rw [hidle, steps_act, steps_processEvents] at hs
        simp only [List.mem_append, List.mem_singleton] at hs
        rcases hs with (hs | hs) | rfl
        · exact hcommands s hs
        · obtain ⟨e, -, rfl⟩ := List.mem_map.mp hs
          rfl
        · rfl
      · cases hevents : f.events with
        | none =>
          rw [hevents] at hs
          exact hcommands s hs
        | some events =>
          simp only [Bool.not_eq_true, Bool.not_eq_false] at hr hb hi hrun
          simp [isActive, hr, hb, hc, hrun, hi, hevents] at h

/-- A turn takes poll steps exactly if it polls. -/
theorem takesStep_poll (lib : Libsrt) (t : IoThread) (f : Finds) :
    t.takesStep IoStep.isPoll lib f = t.polls lib f := by
  have hk (s : IoStep) (hs : s.isPoll = true) : s.isTimed = true := by
    cases s <;> first | rfl | cases hs
  rw [polls]
  cases h : t.isActive lib f with
  | false => exact takesStep_inactive h hk
  | true =>
    obtain ⟨connected, u, hu, -, hku, hkv, hkw, htakes⟩ := takesStep_active h hk
    have hsweep := (sweepGroups_ticks lib u f connected).1.count
    have hcheck := (checkStranded_ticks lib (u.sweepGroups lib f connected) f).1.count
    rw [htakes, any_due hku (b := false) fun _ => rfl, any_due hkv (b := false) fun _ => rfl,
      any_due hkw (b := true) fun _ => rfl, hcheck.trans (hsweep.trans hu.count)]
    simp

/-- After a turn that polls the socket states, every entry in the map has the status that libsrt
gave for it in the turn, and none is a zombie. -/
theorem polls_turn (h : t.polls lib f = true) {id : SocketId} {e : SocketState}
    (he : (t.turn lib f).bridge.entry id = some e) :
    Polled lib t.bridge.step (t.turn lib f).bridge.step id e ∧
      (t.turn lib f).bridge.isZombie e = false := by
  simp only [polls, Bool.and_eq_true, decide_eq_true_eq] at h
  obtain ⟨events, c, -, hc, hrun, -, -, hturn⟩ := turn_active h.1
  obtain ⟨hu, hcount, -⟩ := beforePoll_timed lib c f events
  have hcounter := hcount.trans hc.count
  have hserves := (beforePoll_adds lib c f events).mono fun _ hs => IoStep.not_command_of_serves hs
  have hrun' := (Adds.running hserves).trans hrun
  have hstep' := hc.step.trans hu.step
  unfold activePath at hturn
  generalize c.beforePoll lib f events = u at hturn hcounter hrun' hstep'
  have hdue : statePollInterval ≤ u.statePollCounter + 1 := hcounter ▸ h.2
  obtain ⟨hrunning, hpass⟩ := run_polls lib (u.keys f) (f.meanwhile_quiet .polls) hrun'
  have hbridge : (t.turn lib f).bridge =
      (u.bridge.run lib (weave (f.meanwhile .polls) ((u.keys f).map .poll))).act lib (.io .cleanup) := by
    rw [hturn, pollStates, if_pos hdue]
    rfl
  rw [hbridge] at he ⊢
  have hlast := act_step_le lib (u.bridge.run lib (weave (f.meanwhile .polls) ((u.keys f).map .poll)))
    (.io .cleanup)
  generalize u.bridge.run lib (weave (f.meanwhile .polls) ((u.keys f).map .poll)) = b at *
  rw [entry_act hrunning] at he
  obtain ⟨hentry, hzombie⟩ := cleanup_no_zombie he
  have hact : (b.act lib (.io .cleanup)).isZombie e = b.cleanupZombies.isZombie e := by
    rw [show b.act lib (.io .cleanup) = _ from if_pos hrunning]
    rfl
  refine ⟨?_, hact.trans hzombie⟩
  rcases hpass id e hentry with hp | ⟨hnot, hold⟩
  · exact hp.mono hstep' hlast
  · have hkey : id ∈ u.bridge.sockets.keys := AList.lookup_isSome.mp (by
      rw [show AList.lookup id u.bridge.sockets = some e from hold]
      rfl)
    exact absurd ((f.order_perm _).mem_iff.mpr hkey) hnot

theorem turns_step_le (finds : List Finds) : t.bridge.step ≤ (t.turns lib finds).bridge.step := by
  induction finds generalizing t with
  | nil => exact le_rfl
  | cons f finds ih => exact (turn_timed lib t f).1.step.trans ih

/-- The loop polls the socket states once in every hundred turns of its active path. -/
theorem countAlong_polls (lib : Libsrt) (finds : List Finds) (hc : t.statePollCounter < statePollInterval) :
    countAlong (turn lib) (polls lib) t finds =
      (t.statePollCounter + countAlong (turn lib) (isActive lib) t finds) / statePollInterval := by
  have hstep (t : IoThread) (f : Finds) (hlt : t.statePollCounter < statePollInterval) :
      (t.turn lib f).statePollCounter < statePollInterval ∧
        (t.turn lib f).statePollCounter + statePollInterval * (t.polls lib f).toNat =
          t.statePollCounter + (t.isActive lib f).toNat := by
    rw [statePollCounter_turn]
    unfold polls
    cases t.isActive lib f with
    | false => simpa using hlt
    | true =>
      by_cases hdue : statePollInterval ≤ t.statePollCounter + 1
      · simp only [hdue, if_true, decide_true, Bool.and_self, Bool.toNat_true]
        omega
      · simp only [hdue, if_true, if_false, decide_false, Bool.and_false, Bool.toNat_true,
          Bool.toNat_false]
        omega
  obtain ⟨hlt, hcount⟩ := countAlong_wraps finds hstep hc
  rw [← hcount, Nat.add_mul_div_left _ _ (by decide), Nat.div_eq_of_lt hlt, Nat.zero_add]

theorem turns_counter_lt (lib : Libsrt) (finds : List Finds) (hc : t.statePollCounter < statePollInterval) :
    (t.turns lib finds).statePollCounter < statePollInterval := by
  induction finds generalizing t with
  | nil => exact hc
  | cons f finds ih =>
    refine ih ?_
    rw [statePollCounter_turn]
    split_ifs
    · decide
    · omega
    · exact hc

variable (lib) in
/-- Over any stretch of any run of the loop: of the turns that it takes on its active path, with epoll
reporting, exactly every hundredth polls the socket states, and no other turn takes a poll step. After
such a turn every entry's status is what libsrt said of the socket within it, a group that has not been
connected apart, and no dead socket is left whose task is gone. So a socket that is dead in libsrt is
known to be so within a hundred of these turns. -/
theorem polls_paced (earlier finds : List Finds) :
    let t := start.turns lib earlier
    countAlong (turn lib) (polls lib) t finds =
        (t.statePollCounter + countAlong (turn lib) (isActive lib) t finds) / statePollInterval ∧
      (∀ f, t.takesStep IoStep.isPoll lib f = t.polls lib f) ∧
      (∀ f, t.polls lib f = true → ∀ id e, (t.turn lib f).bridge.entry id = some e →
        Polled lib t.bridge.step (t.turn lib f).bridge.step id e ∧
          (t.turn lib f).bridge.isZombie e = false) ∧
        ∀ id, (∀ k, t.bridge.step ≤ k → isTerminalStatus (lib.status k 0 id) = true) →
          statePollInterval ≤ countAlong (turn lib) (isActive lib) t finds →
            ∃ pre f post, finds = pre ++ f :: post ∧ ∀ e,
              (t.turns lib (pre ++ [f])).bridge.entry id = some e →
                e.isGroup = true ∧ e.lastStatus = .init ∨ isTerminalStatus e.lastStatus = true ∧
                  (e.isListener = true ∨ e.isGroup = true ∨
                    (t.turns lib (pre ++ [f])).bridge.recvClosed e = false) := by
  intro t
  have hcount := countAlong_polls lib finds (turns_counter_lt (t := start) lib earlier (by decide))
  refine ⟨hcount, takesStep_poll lib t, fun f hpolls id e he => polls_turn hpolls he,
    fun id hdead hmany => ?_⟩
  have hsome : 0 < countAlong (turn lib) (polls lib) t finds := by
    rw [hcount]
    exact Nat.div_pos (hmany.trans (Nat.le_add_left _ _)) (by decide)
  obtain ⟨pre, f, post, hsplit, hpolls⟩ := countAlong_pos hsome
  have hlast : t.turns lib (pre ++ [f]) = (t.turns lib pre).turn lib f := List.foldl_append
  refine ⟨pre, f, post, hsplit, fun e he => ?_⟩
  rw [hlast] at he ⊢
  obtain ⟨hgroup | ⟨k, hk, -, hq⟩, hzombie⟩ := polls_turn (t := t.turns lib pre) hpolls he
  · exact .inl hgroup
  · have hterm : isTerminalStatus e.lastStatus = true :=
      hq ▸ hdead k ((turns_step_le (t := t) pre).trans hk)
    refine .inr ⟨hterm, ?_⟩
    by_contra hno
    simp only [not_or, Bool.not_eq_true] at hno
    simp [isZombie, hterm, hno] at hzombie

end Turns

end IoThread

end Bridge

end SrtBridge
