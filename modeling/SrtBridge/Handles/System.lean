import SrtBridge.Bridge.Iterations

/-! The I/O thread behind its command channel. Tokio tasks send commands whenever they like;
the thread takes them one at a time in the order they were sent, and does the rest of its work
in between. -/

namespace SrtBridge

open General

structure System where
  bridge : Bridge
  /-- Sent and not yet taken, the oldest first. -/
  commands : List IoCommand

namespace System

def start : System := ⟨.start, []⟩

def send (cmd : IoCommand) (s : System) : System := { s with commands := s.commands ++ [cmd] }

def sendAll (cmds : List IoCommand) (s : System) : System :=
  { s with commands := s.commands ++ cmds }

def act (lib : Libsrt) (a : Bridge.Action) (s : System) : System :=
  { s with bridge := s.bridge.act lib a }

def takeCommand (lib : Libsrt) (s : System) : System :=
  match s.commands with
  | [] => s
  | cmd :: rest => { s.act lib (.io (.command cmd)) with commands := rest }

/-- What happens in the process around the handle one looks at. -/
inductive Move where
  /-- The thread takes the next command. -/
  | command
  /-- The thread does something else, a task uses a channel, or time passes. -/
  | other (a : Bridge.Action)
  /-- Another task sends a command. -/
  | send (cmd : IoCommand)

def move (lib : Libsrt) (s : System) : Move → System
  | .command => s.takeCommand lib
  | .other a => if (a.ioStep).any Bridge.IoStep.isCommand then s else s.act lib a
  | .send cmd => s.send cmd

section Moves

variable {lib : Libsrt} {s : System} {m : Move}

@[simp] theorem send_bridge (cmd : IoCommand) : (s.send cmd).bridge = s.bridge := rfl

@[simp] theorem sendAll_bridge (cmds : List IoCommand) : (s.sendAll cmds).bridge = s.bridge := rfl

@[simp] theorem act_bridge (a : Bridge.Action) : (s.act lib a).bridge = s.bridge.act lib a := rfl

/-- A move sends some commands, or is something that happens to the thread: one that is no
command, or the command at the head of the channel. -/
theorem move_cases (lib : Libsrt) (s : System) (m : Move) :
    (∃ more, s.move lib m = s.sendAll more ∧ ∀ cmd ∈ more, m = .send cmd) ∨
      (∃ a, m = .other a ∧ (∀ cmd, a ≠ .io (.command cmd)) ∧ s.move lib m = s.act lib a) ∨
        ∃ cmd rest, s.commands = cmd :: rest ∧
          s.move lib m = ⟨s.bridge.act lib (.io (.command cmd)), rest⟩ := by
  have hstay (h : s.move lib m = s) : ∃ more, s.move lib m = s.sendAll more ∧ ∀ cmd ∈ more, m = .send cmd :=
    ⟨[], by rw [h]; simp [sendAll], List.forall_mem_nil _⟩
  cases m with
  | command =>
    cases hc : s.commands with
    | nil => exact .inl (hstay (by unfold move takeCommand; rw [hc]))
    | cons cmd rest =>
      refine .inr (.inr ⟨cmd, rest, rfl, ?_⟩)
      unfold move takeCommand
      rw [hc]
      rfl
  | other a =>
    by_cases hcmd : (a.ioStep).any Bridge.IoStep.isCommand = true
    · exact .inl (hstay (if_pos hcmd))
    · refine .inr (.inl ⟨a, rfl, ?_, if_neg hcmd⟩)
      rintro cmd rfl
      exact hcmd rfl
  | send cmd => exact .inl ⟨[cmd], rfl, by simp⟩

/-- A `Close` that the thread carries out calls `srt_close`. -/
theorem closed_of_close {b : Bridge} {id : SocketId}
    (h : (b.act lib (.io (.command (.close id)))).running = true) :
    .closed id ∈ (b.act lib (.io (.command (.close id)))).trace := by
  have hclose (b : Bridge) : .closed id ∈ (b.closeAndRelease id).trace := by
    have hemit (b : Bridge) : .closed id ∈ ((b.emit (.closed id)).release id).trace := by
      unfold Bridge.release
      split <;> simp
    exact hemit _
  have hfail : .closed id ∈ (b.closeAndFail id .socketClosed).trace := by
    unfold Bridge.closeAndFail
    split
    · exact List.mem_append_left _ (hclose b)
    · exact hclose b
  rw [Bridge.trace_act (Bridge.running_of_act h)]
  exact hfail

end Moves

end System

end SrtBridge
