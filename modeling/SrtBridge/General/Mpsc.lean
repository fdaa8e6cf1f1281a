import Mathlib.Tactic

/-! A channel with many senders and one receiver, each operation atomic: messages
come out in the order they went in, a full channel refuses, and a closed one takes
nothing more but still gives out what it holds. -/

namespace SrtBridge.General

/-- A channel: what waits in it, and whether its receiver closed it. -/
structure Mpsc (α : Type*) where
  buffer : List α
  closed : Bool

namespace Mpsc

variable {α : Type*}

def empty : Mpsc α := ⟨[], false⟩

/-- Send into a channel without a bound; a message for a closed one is lost. -/
def send (c : Mpsc α) (a : α) : Mpsc α :=
  if c.closed then c else { c with buffer := c.buffer ++ [a] }

/-- Send into a channel of the given capacity, unless it is full or closed. -/
def trySend (c : Mpsc α) (capacity : ℕ) (a : α) : Option (Mpsc α) :=
  if c.closed = false ∧ c.buffer.length < capacity then some { c with buffer := c.buffer ++ [a] }
  else none

def tryRecv (c : Mpsc α) : Option (α × Mpsc α) :=
  match c.buffer with
  | [] => none
  | a :: rest => some (a, { c with buffer := rest })

def close (c : Mpsc α) : Mpsc α := { c with closed := true }

/-- The receiver is gone, and with it what waits. -/
def drop (_ : Mpsc α) : Mpsc α := ⟨[], true⟩

def sends (c : Mpsc α) (as : List α) : Mpsc α := as.foldl send c

theorem trySend_some {c c' : Mpsc α} {capacity : ℕ} {a : α} (h : c.trySend capacity a = some c') :
    c.closed = false ∧ c' = { c with buffer := c.buffer ++ [a] } := by
  unfold trySend at h
  split_ifs at h with hc
  exact ⟨hc.1, (Option.some.inj h).symm⟩

theorem tryRecv_cases (c : Mpsc α) : c.tryRecv = none ∧ c.buffer = [] ∨
    ∃ a rest, c.tryRecv = some (a, { c with buffer := rest }) ∧ c.buffer = a :: rest := by
  unfold tryRecv
  cases hb : c.buffer with
  | nil => exact .inl ⟨rfl, rfl⟩
  | cons a rest => exact .inr ⟨a, rest, rfl, rfl⟩

end Mpsc

end SrtBridge.General
