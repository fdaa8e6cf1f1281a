import SrtBridge.Bridge.Shutdown

/-! `io_thread_main` turn by turn, with its counters and timers. A turn takes what it finds:
the commands that wait, what epoll reports, the order the map gives out its keys in, and what
Tokio tasks do meanwhile. Whatever it finds, it is an iteration of the loop. -/

namespace SrtBridge

open General

/-- The longest a live group goes unread. -/
def groupRecvSweep : Duration := fromMillis 100

/-- Every so many turns of the active path the socket states are polled. -/
def statePollInterval : ℕ := 100

namespace Bridge

inductive Phase where
  | commands | events | drains | sweeps | checks | polls
  deriving DecidableEq

structure Finds where
  /-- What comes off the command channel before it is empty. -/
  commands : List IoCommand
  /-- All senders of the channel are gone. -/
  hungUp : Bool
  /-- What `srt_epoll_uwait` reports, unless it fails. -/
  events : Option (List (SocketId × EpollFlags))
  /-- The order in which the map gives out its keys. -/
  order : List SocketId → List SocketId
  /-- What happens before the `n`-th step of a phase. -/
  meanwhile : Phase → ℕ → List Action
  order_perm : ∀ ids, (order ids).Perm ids
  meanwhile_quiet : ∀ phase n, Only (fun _ => false) (meanwhile phase n)

def Finds.commanded (commands : List IoCommand) : Finds where
  commands := commands
  hungUp := false
  events := some []
  order := id
  meanwhile _ _ := []
  order_perm _ := .refl _
  meanwhile_quiet _ _ _ h := by cases h

/-- Steps of the thread, with what happens before, between and after them. -/
def weave : (ℕ → List Action) → List IoStep → List Action
  | quiet, [] => quiet 0
  | quiet, s :: steps => quiet 0 ++ .io s :: weave (fun n => quiet (n + 1)) steps

/-- The I/O thread with the local variables of `io_thread_main`. -/
structure IoThread where
  bridge : Bridge
  statePollCounter : ℕ
  consecutiveEpollErrors : ℕ
  lastGroupSweep : Instant
  lastStrandedCheck : Instant
  /-- How long it sleeps before the turn that comes next. -/
  sleeps : Duration
  /-- What has happened in this turn. -/
  did : List Action

namespace IoThread

def start : IoThread := ⟨.start, 0, 0, 0, 0, 0, []⟩

def does (lib : Libsrt) (actions : List Action) (t : IoThread) : IoThread :=
  { t with bridge := t.bridge.run lib actions, did := t.did ++ actions }

def takes (lib : Libsrt) (f : Finds) (phase : Phase) (steps : List IoStep) (t : IoThread) : IoThread :=
  t.does lib (weave (f.meanwhile phase) steps)

def keys (f : Finds) (t : IoThread) : List SocketId := f.order t.bridge.sockets.keys

def wake (lib : Libsrt) (t : IoThread) : IoThread :=
  { t with did := [], sleeps := 0 }.does lib [.elapse t.sleeps]

/-- Phase 0: the map is empty, and the thread waits for one command. -/
def park (lib : Libsrt) (f : Finds) (t : IoThread) : IoThread :=
  (t.does lib (f.meanwhile .commands 0)).does lib [.io (.command (f.commands.head?.getD .shutdown))]

/-- Phase 1: the commands that wait, up to a shutdown. -/
def drainCommands (lib : Libsrt) (f : Finds) (t : IoThread) : IoThread :=
  t.takes lib f .commands
    (f.commands.map .command ++ if f.hungUp then [.command .shutdown] else [])

def processEvents (lib : Libsrt) (f : Finds) (events : List (SocketId × EpollFlags)) (t : IoThread) :
    IoThread :=
  t.takes lib f .events (events.map fun e => .event e.1 e.2)

def idlePath (lib : Libsrt) (f : Finds) (t : IoThread) : IoThread :=
  { (t.processEvents lib f (f.events.getD [])).does lib [.io .cleanup] with sleeps := fromMillis 100 }

/-- `srt_epoll_uwait` has failed. The count of failures is a `u32`, whose overflow is left out. -/
def backOff (t : IoThread) : IoThread :=
  { t with
    consecutiveEpollErrors := t.consecutiveEpollErrors + 1
    sleeps := fromMillis (1 <<< min (t.consecutiveEpollErrors + 1) 7) }

def drainSends (lib : Libsrt) (f : Finds) (connected : Bool) (t : IoThread) : IoThread :=
  if connected then t.takes lib f .drains ((t.keys f).map .drain) else t

def sweepGroups (lib : Libsrt) (f : Finds) (connected : Bool) (t : IoThread) : IoThread :=
  if connected ∧ groupRecvSweep ≤ t.bridge.clock - t.lastGroupSweep then
    { t with lastGroupSweep := t.bridge.clock }.takes lib f .sweeps ((t.keys f).map .sweep)
  else t

def checkStranded (lib : Libsrt) (f : Finds) (t : IoThread) : IoThread :=
  if strandedCheck ≤ t.bridge.clock - t.lastStrandedCheck then
    { t with lastStrandedCheck := t.bridge.clock }.takes lib f .checks ((t.keys f).map .check)
  else t

def pollStates (lib : Libsrt) (f : Finds) (t : IoThread) : IoThread :=
  if statePollInterval ≤ t.statePollCounter + 1 then
    { t with statePollCounter := 0 }.takes lib f .polls ((t.keys f).map .poll) |>.does lib [.io .cleanup]
  else { t with statePollCounter := t.statePollCounter + 1 }

/-- The active path up to the state poll, once epoll has reported. -/
def beforePoll (lib : Libsrt) (f : Finds) (events : List (SocketId × EpollFlags)) (t : IoThread) :
    IoThread :=
  let connected := t.bridge.hasConnected
  { t with consecutiveEpollErrors := 0 }.processEvents lib f events
    |>.drainSends lib f connected
    |>.sweepGroups lib f connected
    |>.checkStranded lib f

def activePath (lib : Libsrt) (f : Finds) (events : List (SocketId × EpollFlags)) (t : IoThread) :
    IoThread :=
  (t.beforePoll lib f events).pollStates lib f

def goOn (lib : Libsrt) (f : Finds) (t : IoThread) : IoThread :=
  if t.bridge.running = false then t
  else if t.bridge.idle then t.idlePath lib f
  else
    match f.events with
    | none => t.backOff
    | some events => t.activePath lib f events

/-- One turn of the loop, unless the thread has returned from it. -/
def turn (lib : Libsrt) (t : IoThread) (f : Finds) : IoThread :=
  if t.bridge.running = false then { t with did := [] }
  else
    let t := t.wake lib
    if t.bridge.sockets.keys.isEmpty then t.park lib f
    else (t.drainCommands lib f).goOn lib f

def turns (lib : Libsrt) (t : IoThread) (finds : List Finds) : IoThread := finds.foldl (turn lib) t

/-- The turn takes the active path, and epoll does not fail. -/
def isActive (lib : Libsrt) (t : IoThread) (f : Finds) : Bool :=
  t.bridge.running && !t.bridge.sockets.keys.isEmpty &&
    (let b := ((t.wake lib).drainCommands lib f).bridge; b.running && !b.idle) && f.events.isSome

def polls (lib : Libsrt) (t : IoThread) (f : Finds) : Bool :=
  t.isActive lib f && statePollInterval ≤ t.statePollCounter + 1

section Refines

variable {lib : Libsrt} {f : Finds} {t t' t'' : IoThread} {kind : IoStep → Bool} {phase : Phase}

theorem only_append {as bs : List Action} (ha : Only kind as) (hb : Only kind bs) :
    Only kind (as ++ bs) := by
  intro s hs
  rw [List.filterMap_append, List.mem_append] at hs
  exact hs.elim (ha s) (hb s)

theorem only_quiet {as : List Action} (h : Only (fun _ => false) as) : Only kind as :=
  fun s hs => absurd (h s hs) Bool.false_ne_true

theorem only_weave {quiet : ℕ → List Action} (hq : ∀ n, Only (fun _ => false) (quiet n))
    {steps : List IoStep} (hs : ∀ s ∈ steps, kind s = true) : Only kind (weave quiet steps) := by
  induction steps generalizing quiet with
  | nil => exact only_quiet (hq 0)
  | cons s steps ih =>
    have hrest := ih (fun n => hq (n + 1)) fun s' hs' => hs s' (List.mem_cons_of_mem _ hs')
    refine only_append (only_quiet (hq 0)) fun s' hs' => ?_
    rcases List.mem_cons.mp hs' with rfl | hs'
    · exact hs _ (List.mem_cons_self ..)
    · exact hrest s' hs'

/-- The thread has gone on with steps of one kind. -/
def Adds (lib : Libsrt) (kind : IoStep → Bool) (t t' : IoThread) : Prop :=
  ∃ as, Only kind as ∧ t'.did = t.did ++ as ∧ t'.bridge = t.bridge.run lib as

theorem Adds.rfl : Adds lib kind t t :=
  ⟨[], fun _ h => (by cases h), (List.append_nil _).symm, Eq.refl _⟩

theorem takes_adds (phase : Phase) {steps : List IoStep} (hs : ∀ s ∈ steps, kind s = true) :
    Adds lib kind t (t.takes lib f phase steps) :=
  ⟨_, only_weave (f.meanwhile_quiet phase) hs, Eq.refl _, Eq.refl _⟩

theorem processEvents_adds (lib : Libsrt) (t : IoThread) (f : Finds)
    (events : List (SocketId × EpollFlags)) :
    Adds lib IoStep.isEvent t (t.processEvents lib f events) :=
  takes_adds .events (List.forall_mem_map.mpr fun _ _ => Eq.refl _)

theorem drainSends_adds (lib : Libsrt) (t : IoThread) (f : Finds) (connected : Bool) :
    Adds lib (IoStep.isDrain connected) t (t.drainSends lib f connected) := by
  unfold drainSends
  split_ifs with hc
  · exact takes_adds .drains (by simp [IoStep.isDrain, hc])
  · exact .rfl

theorem sweepGroups_adds (lib : Libsrt) (t : IoThread) (f : Finds) (connected : Bool) :
    Adds lib (IoStep.isSweep connected) t (t.sweepGroups lib f connected) := by
  unfold sweepGroups
  split_ifs with hc
  · exact takes_adds (t := { t with lastGroupSweep := t.bridge.clock }) .sweeps
      (by simp [IoStep.isSweep, hc.1])
  · exact .rfl

theorem checkStranded_adds (lib : Libsrt) (t : IoThread) (f : Finds) :
    Adds lib IoStep.isCheck t (t.checkStranded lib f) := by
  unfold checkStranded
  split_ifs
  · exact takes_adds (t := { t with lastStrandedCheck := t.bridge.clock }) .checks
      (by simp [IoStep.isCheck])
  · exact .rfl

/-- What the thread has done in this turn has brought it here from `b`. -/
def From (lib : Libsrt) (b : Bridge) (t : IoThread) : Prop := t.bridge = b.run lib t.did

theorem From.does {b : Bridge} (h : From lib b t) (actions : List Action) :
    From lib b (t.does lib actions) := by
  show t.bridge.run lib actions = b.run lib (t.did ++ actions)
  rw [show t.bridge = b.run lib t.did from h]
  exact List.foldl_append.symm

theorem From.adds {b : Bridge} (h : From lib b t) (ha : Adds lib kind t t') :
    From lib b t' ∧ ∃ as, Only kind as ∧ t'.did = t.did ++ as := by
  obtain ⟨as, honly, hdid, hrun⟩ := ha
  refine ⟨?_, as, honly, hdid⟩
  have hdoes : t.bridge.run lib as = b.run lib (t.did ++ as) := h.does as
  show t'.bridge = b.run lib t'.did
  rw [hdid, hrun, hdoes]

/-- The turn is the iteration `actions`; once the thread has shut down, it takes no step of what is
left of that. -/
def EndsAs (lib : Libsrt) (b : Bridge) (t : IoThread) (actions : List Action) : Prop :=
  t.bridge = b.run lib actions ∧
    ∃ rest, actions = t.did ++ rest ∧ (rest = [] ∨ (b.run lib t.did).running = false)

theorem From.endsAs {b : Bridge} (h : From lib b t) : EndsAs lib b t t.did :=
  ⟨h, [], (List.append_nil _).symm, .inl (Eq.refl _)⟩

theorem act_halt {b : Bridge} (h : b.running = false) (s : IoStep) : b.act lib (.io s) = b :=
  if_neg (by simp [h])

theorem From.halted {b : Bridge} (h : From lib b t) (hr : t.bridge.running = false) (s : IoStep) :
    EndsAs lib b t (t.did ++ [.io s]) := by
  refine ⟨?_, [.io s], Eq.refl _, .inr (h ▸ hr)⟩
  have hrun : b.run lib (t.did ++ [.io s]) = (b.run lib t.did).act lib (.io s) := List.foldl_append
  rw [hrun, ← h, act_halt hr]

theorem beforePoll_active {b : Bridge} (f : Finds) (events : List (SocketId × EpollFlags))
    (hb : b.sockets.keys.isEmpty = false) (hc : Only IoStep.isCommand t.did) (h : From lib b t)
    (hi : t.bridge.idle = false) :
    Active lib b (t.beforePoll lib f events).did ∧ From lib b (t.beforePoll lib f events) := by
  have hconnected : t.bridge.hasConnected = (b.run lib t.did).hasConnected := congrArg _ h
  have h₀ : From lib b { t with consecutiveEpollErrors := 0 } := h
  obtain ⟨h₁, ev, hev, hdid₁⟩ := h₀.adds (processEvents_adds lib _ f events)
  obtain ⟨h₂, dr, hdr, hdid₂⟩ := h₁.adds (drainSends_adds lib _ f t.bridge.hasConnected)
  obtain ⟨h₃, sw, hsw, hdid₃⟩ := h₂.adds (sweepGroups_adds lib _ f t.bridge.hasConnected)
  obtain ⟨h₄, ck, hck, hdid₄⟩ := h₃.adds (checkStranded_adds lib _ f)
  rw [hconnected] at hdr hsw
  rw [h] at hi
  have hactive := Active.phases hb hc hi hev hdr hsw hck
  rw [hdid₃, hdid₂, hdid₁] at hdid₄
  exact ⟨hdid₄ ▸ hactive, h₄⟩

/-- The states are polled, and the thread reaps; or the turn is only counted. -/
theorem pollStates_from {b : Bridge} (h : From lib b t) : From lib b (t.pollStates lib f) ∧
    ((t.pollStates lib f).did = t.did ∨ ∃ polls, Only IoStep.isPoll polls ∧
      (t.pollStates lib f).did = t.did ++ polls ++ [.io .cleanup]) := by
  unfold pollStates
  split_ifs
  · have hreset : From lib b { t with statePollCounter := 0 } := h
    have hkind : ∀ s ∈ (t.keys f).map IoStep.poll, s.isPoll = true :=
      List.forall_mem_map.mpr fun _ _ => Eq.refl _
    obtain ⟨hpolled, polls, hpolls, hdid⟩ := hreset.adds (takes_adds (f := f) .polls hkind)
    refine ⟨hpolled.does _, .inr ⟨polls, hpolls, ?_⟩⟩
    exact congrArg (· ++ [Action.io .cleanup]) hdid
  · exact ⟨h, .inl (Eq.refl _)⟩

theorem stepsMeet_of_halted {ok : Bridge → IoStep → Prop} {b : Bridge} (h : b.running = false)
    (actions : List Action) : StepsMeet lib ok b actions := by
  induction actions generalizing b with
  | nil => trivial
  | cons a actions ih =>
    refine ⟨?_, ih ?_⟩
    · cases a with
      | io s => exact fun hr => absurd hr (by simp [h])
      | tokio | elapse => trivial
    · by_contra hr
      exact absurd (running_of_act (by simpa using hr)) (by simp [h])

/-- The active path is an iteration, which ends with a cleanup if the states are polled. -/
theorem activePath_iteration {b : Bridge} (f : Finds) (events : List (SocketId × EpollFlags))
    (hb : b.sockets.keys.isEmpty = false) (hc : Only IoStep.isCommand t.did) (h : From lib b t)
    (hi : t.bridge.idle = false) :
    ∃ reaps, Iteration lib b reaps (t.activePath lib f events).did ∧
      From lib b (t.activePath lib f events) := by
  obtain ⟨hactive, hbefore⟩ := beforePoll_active f events hb hc h hi
  unfold activePath
  obtain ⟨hafter, hdid | ⟨polls, hpolls, hdid⟩⟩ := pollStates_from (f := f) hbefore
  · exact ⟨false, by rw [hdid]; exact .active hactive, hafter⟩
  · exact ⟨true, by rw [hdid]; exact .polled hactive hpolls, hafter⟩

theorem wake_from (lib : Libsrt) (t : IoThread) (kind : IoStep → Bool) : From lib t.bridge (t.wake lib) ∧
    Only kind (t.wake lib).did ∧ (t.wake lib).bridge.sockets = t.bridge.sockets :=
  ⟨rfl, fun _ h => (by cases h), rfl⟩

theorem entries_of_empty {b : Bridge} (h : ∀ i, b.entry i = none) : b.sockets.entries = [] := by
  have hkeys : b.sockets.keys = [] :=
    List.eq_nil_iff_forall_not_mem.mpr fun i => AList.lookup_eq_none.mp (h i)
  exact List.map_eq_nil_iff.mp hkeys

/-- A turn that ends before the loop goes on to what it does after the commands. -/
theorem goOn_iteration {b : Bridge} (hb : b.sockets.keys.isEmpty = false)
    (hc : Only IoStep.isCommand t.did) (h : From lib b t)
    (hmap : t.bridge.running = false → ∀ i, t.bridge.entry i = none) :
    ∃ reaps actions, Iteration lib b reaps actions ∧ EndsAs lib b (t.goOn lib f) actions := by
  unfold goOn
  split_ifs with hr hi
  · have hidle : (b.run lib t.did).idle = true := by
      rw [← show t.bridge = b.run lib t.did from h]
      have hnone := entries_of_empty (hmap hr)
      simp [idle, hasConnected, hasConnecting, anyWith, hnone]
    have hidly : Iteration lib b true (t.did ++ [] ++ [.io .cleanup]) :=
      .idle hb hc hidle fun _ h => (by cases h)
    rw [List.append_nil] at hidly
    exact ⟨true, _, hidly, h.halted hr _⟩
  · obtain ⟨hevents, ev, hev, hdid⟩ := h.adds (processEvents_adds lib t f (f.events.getD []))
    refine ⟨true, _, .idle hb hc ((congrArg idle h).symm.trans hi) hev, ?_⟩
    rw [← hdid]
    exact (hevents.does [.io .cleanup]).endsAs
  · rw [Bool.not_eq_true] at hi
    have hactive : (b.run lib t.did).idle = false := (congrArg idle h).symm.trans hi
    cases f.events with
    | none => exact ⟨false, _, .failed hb hc hactive, From.endsAs (t := t.backOff) h⟩
    | some events =>
      obtain ⟨reaps, hit, hfrom⟩ := activePath_iteration f events hb hc h hi
      exact ⟨reaps, _, hit, hfrom.endsAs⟩

/-- Whatever a turn finds, it is an iteration of the loop. -/
theorem turn_iteration (lib : Libsrt) (t : IoThread) (f : Finds)
    (hmap : t.bridge.running = false → ∀ i, t.bridge.entry i = none) :
    ∃ reaps actions, Iteration lib t.bridge reaps actions ∧
      EndsAs lib t.bridge (t.turn lib f) actions := by
  obtain ⟨hwake, honly, hsockets⟩ := wake_from lib t IoStep.isCommand
  unfold turn
  split_ifs with hr
  · have hnone := entries_of_empty (hmap hr)
    have hempty : t.bridge.sockets.keys.isEmpty = true := by
      unfold AList.keys
      rw [hnone]
      rfl
    have hstart : From lib t.bridge { t with did := [] } := Eq.refl _
    have hparked : Iteration lib t.bridge false ([] ++ [.io (.command .shutdown)]) :=
      .parked hempty fun _ h => (by cases h)
    exact ⟨false, _, hparked, hstart.halted hr _⟩
  · dsimp only
    rw [hsockets]
    split_ifs with hempty
    · let cmd := f.commands.head?.getD .shutdown
      have hfrom := (hwake.does (f.meanwhile .commands 0)).does [.io (.command cmd)]
      have hwaits : Only (fun _ => false) ((t.wake lib).did ++ f.meanwhile .commands 0) :=
        only_append (fun _ h => (by cases h)) (f.meanwhile_quiet _ 0)
      have hparked : Iteration lib t.bridge false
          ((t.wake lib).did ++ f.meanwhile .commands 0 ++ [.io (.command cmd)]) := .parked hempty hwaits
      exact ⟨false, _, hparked, hfrom.endsAs⟩
    · rw [Bool.not_eq_true] at hempty
      have hcommands : Adds lib IoStep.isCommand (t.wake lib) ((t.wake lib).drainCommands lib f) := by
        refine takes_adds .commands fun s hs => ?_
        rcases List.mem_append.mp hs with hs | hs
        · obtain ⟨cmd, -, rfl⟩ := List.mem_map.mp hs
          rfl
        · split_ifs at hs
          · obtain rfl := List.mem_singleton.mp hs
            rfl
          · cases hs
      obtain ⟨hfrom, as, has, hdid⟩ := hwake.adds hcommands
      refine goOn_iteration hempty ?_ hfrom ?_
      · rw [hdid]
        exact only_append honly has
      · rw [show ((t.wake lib).drainCommands lib f).bridge = _ from hfrom]
        exact run_halted hmap _

def Emptied (t : IoThread) : Prop := t.bridge.running = false → ∀ i, t.bridge.entry i = none

theorem turn_emptied (f : Finds) (h : t.Emptied) : (t.turn lib f).Emptied := by
  obtain ⟨reaps, actions, -, hrun, -⟩ := turn_iteration lib t f h
  unfold Emptied
  rw [hrun]
  exact run_halted h actions

theorem turns_iterate (finds : List Finds) (ht : t.Emptied) : ∃ iterations,
    (t.turns lib finds).bridge = t.bridge.run lib iterations.flatten ∧
      ∀ ok, Along (turn lib) (fun t f => StepsMeet lib ok t.bridge (t.turn lib f).did) t finds →
        Iterates lib t.bridge (fun _ => ok) iterations := by
  induction finds generalizing t with
  | nil => exact ⟨[], rfl, fun _ _ => trivial⟩
  | cons f finds ih =>
    obtain ⟨reaps, actions, hit, hrun, rest, hrest, hdone⟩ := turn_iteration lib t f ht
    obtain ⟨iterations, hend, hits⟩ := ih (turn_emptied f ht)
    rw [hrun] at hits hend
    refine ⟨actions :: iterations, ?_, fun ok h => ⟨⟨reaps, hit, ?_⟩, hits ok h.2⟩⟩
    · rw [List.flatten_cons]
      exact hend.trans List.foldl_append.symm
    · rw [hrest]
      refine StepsMeet.append.mpr ⟨h.1, ?_⟩
      rcases hdone with rfl | hdone
      · trivial
      · exact stepsMeet_of_halted hdone rest

variable (lib) in
/-- The loop with its counters and timers, whatever its turns find, runs through iterations; and where
the steps of each turn meet a condition, so do those of the iterations. -/
theorem loop_iterates (finds : List Finds) : ∃ iterations,
    (start.turns lib finds).bridge = Bridge.start.run lib iterations.flatten ∧
      ∀ ok, Along (turn lib) (fun t f => StepsMeet lib ok t.bridge (t.turn lib f).did) start finds →
        Iterates lib Bridge.start (fun _ => ok) iterations :=
  turns_iterate finds fun _ _ => rfl

end Refines

end IoThread

end Bridge

end SrtBridge
