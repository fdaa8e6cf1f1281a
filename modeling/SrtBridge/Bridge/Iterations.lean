import SrtBridge.Bridge.Runs

/-! The iterations of `io_thread_main`: which steps the loop takes in which of its phases,
and what holds whenever an iteration has ended. -/

namespace SrtBridge

open General

namespace Bridge

def Action.ioStep : Action → Option IoStep
  | .io s => some s
  | .tokio _ | .elapse _ => none

def IoStep.isCommand : IoStep → Bool
  | .command _ => true
  | _ => false

def IoStep.isEvent : IoStep → Bool
  | .event _ _ => true
  | _ => false

/-- The send channels are drained only while something is connected. -/
def IoStep.isDrain (connected : Bool) : IoStep → Bool
  | .drain _ => connected
  | _ => false

def IoStep.isSweep (connected : Bool) : IoStep → Bool
  | .sweep _ => connected
  | _ => false

def IoStep.isCheck : IoStep → Bool
  | .check _ => true
  | _ => false

def IoStep.isPoll : IoStep → Bool
  | .poll _ => true
  | _ => false

/-- The thread takes steps of one kind only, while the Tokio tasks do what they like. -/
def Only (kind : IoStep → Bool) (actions : List Action) : Prop :=
  ∀ s ∈ actions.filterMap Action.ioStep, kind s = true

instance (kind : IoStep → Bool) (actions : List Action) : Decidable (Only kind actions) :=
  inferInstanceAs (Decidable (∀ s ∈ actions.filterMap Action.ioStep, kind s = true))

section Iterations

variable (lib : Libsrt) (b : Bridge)

/-- An iteration on the active path, up to the state poll. -/
inductive Active : List Action → Prop
  | phases {commands events drains sweeps checks : List Action}
      (hb : b.sockets.keys.isEmpty = false) (hc : Only IoStep.isCommand commands)
      (hi : (b.run lib commands).idle = false) (he : Only IoStep.isEvent events)
      (hd : Only (IoStep.isDrain (b.run lib commands).hasConnected) drains)
      (hs : Only (IoStep.isSweep (b.run lib commands).hasConnected) sweeps)
      (hk : Only IoStep.isCheck checks) : Active (commands ++ events ++ drains ++ sweeps ++ checks)

/-- One iteration that begins in `b`; `reaps` says whether it ends with a `cleanup_zombies`
pass. -/
inductive Iteration : (reaps : Bool) → List Action → Prop
  /-- The map is empty, and the thread is parked until a command comes. -/
  | parked {waits : List Action} {cmd : IoCommand} (hb : b.sockets.keys.isEmpty = true)
      (hw : Only (fun _ => false) waits) : Iteration false (waits ++ [.io (.command cmd)])
  | idle {commands events : List Action} (hb : b.sockets.keys.isEmpty = false)
      (hc : Only IoStep.isCommand commands) (hi : (b.run lib commands).idle = true)
      (he : Only IoStep.isEvent events) : Iteration true (commands ++ events ++ [.io .cleanup])
  /-- `srt_epoll_uwait` fails. -/
  | failed {commands : List Action} (hb : b.sockets.keys.isEmpty = false)
      (hc : Only IoStep.isCommand commands) (hi : (b.run lib commands).idle = false) :
      Iteration false commands
  | active {actions : List Action} (h : Active lib b actions) : Iteration false actions
  /-- The states are polled, which is every hundredth time. -/
  | polled {actions polls : List Action} (h : Active lib b actions) (hp : Only IoStep.isPoll polls) :
      Iteration true (actions ++ polls ++ [.io .cleanup])

/-- A run of whole iterations, in which every step meets a condition that may depend on
whether its iteration reaps. -/
def Iterates (ok : Bool → Bridge → IoStep → Prop) (iterations : List (List Action)) : Prop :=
  Along (run lib) (fun b actions => ∃ reaps, Iteration lib b reaps actions ∧
    StepsMeet lib (ok reaps) b actions) b iterations

end Iterations

section Rule

variable {lib : Libsrt} {b : Bridge} {reaps : Bool} {actions : List Action}

theorem Iteration.cleanup_last (h : Iteration lib b true actions) :
    ∃ pre, actions = pre ++ [.io .cleanup] := by
  cases h with
  | idle => exact ⟨_, rfl⟩
  | polled => exact ⟨_, rfl⟩

theorem run_flatten (lib : Libsrt) (b : Bridge) (iterations : List (List Action)) :
    iterations.foldl (run lib) b = b.run lib iterations.flatten := by
  unfold run
  rw [List.foldl_flatten]

variable {ok : Bool → Bridge → IoStep → Prop} {iterations : List (List Action)}

theorem Iterates.stepsMeet (h : Iterates lib b ok iterations) :
    StepsMeet lib (fun b s => ∃ reaps, ok reaps b s) b iterations.flatten := by
  induction iterations generalizing b with
  | nil => trivial
  | cons actions iterations ih =>
    obtain ⟨reaps, -, hmeet⟩ := h.1
    rw [List.flatten_cons]
    refine StepsMeet.append.mpr ⟨hmeet.mono fun b a hm => ?_, ih h.2⟩
    cases a with
    | io s => exact fun hr => ⟨reaps, hm hr⟩
    | tokio | elapse => trivial

/-- What holds after an iteration: it may be broken within one that reaps, as long as the
cleanup pass mends it. -/
theorem Iterates.invariant {P : Bridge → Prop} {Q : Bool → Bridge → Prop}
    (h : Iterates lib b ok iterations) (hbegin : ∀ b reaps, P b → Q reaps b)
    (hstep : ∀ reaps b a, Meets (ok reaps) b a → Q reaps b → Q reaps (b.act lib a))
    (hend : ∀ b, Q false b → P b) (hreap : ∀ b, Q true b → P (b.act lib (.io .cleanup))) (hP : P b) :
    P (b.run lib iterations.flatten) := by
  rw [← run_flatten]
  refine Along.invariant h (fun b actions hit hP => ?_) hP
  obtain ⟨reaps, hit, hmeet⟩ := hit
  cases reaps with
  | false => exact hend _ (hmeet.invariant (hstep false) (hbegin b false hP))
  | true =>
    obtain ⟨pre, rfl⟩ := hit.cleanup_last
    obtain ⟨hpre, -⟩ := StepsMeet.append.mp hmeet
    have hmid : Q true (b.run lib pre) := hpre.invariant (hstep true) (hbegin b true hP)
    have hlast : b.run lib (pre ++ [.io .cleanup]) = (b.run lib pre).act lib (.io .cleanup) :=
      List.foldl_append ..
    rw [hlast]
    exact hreap _ hmid

end Rule

end Bridge

end SrtBridge
