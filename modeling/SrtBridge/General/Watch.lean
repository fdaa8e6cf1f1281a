import Mathlib.Tactic

/-! A channel that holds one value, the latest, and a task that waits until the value is one of
those it is looking for. Looking at the value and going to sleep are two steps, and anything may
happen between them. -/

namespace SrtBridge.General

/-- A channel: its value, how many values have been sent, and whether its sender is gone. -/
structure Watch (α : Type*) where
  value : α
  version : ℕ
  closed : Bool

namespace Watch

variable {α : Type*}

def new (a : α) : Watch α := ⟨a, 0, false⟩

def send (a : α) (w : Watch α) : Watch α := { w with value := a, version := w.version + 1 }

def close (w : Watch α) : Watch α := { w with closed := true }

end Watch

/-- Where a waiting task is; `seen`: the version it last took note of. -/
inductive Wait (α : Type*) where
  /-- About to look at the value. -/
  | look (seen : ℕ)
  /-- In `changed`. -/
  | sleep (seen : ℕ)
  | done (a : α)

namespace Wait

variable {α : Type*} (stop : α → Bool)

/-- The task takes a step, unless it sleeps and nothing has changed. -/
def poll (w : Watch α) : Wait α → Wait α
  | .look seen => if stop w.value then .done w.value else .sleep seen
  | .sleep seen =>
    if w.version ≠ seen then .look w.version else if w.closed then .done w.value else .sleep seen
  | .done a => .done a

/-- Nothing has happened that would wake the task. -/
def asleep (w : Watch α) : Wait α → Bool
  | .sleep seen => w.version = seen && !w.closed
  | _ => false

/-- No value that it looks for has got past the task: if it sleeps on the version that it has seen, it
has looked at the value; and it stops for such a value, or at the end. -/
def Alert (w : Watch α) : Wait α → Prop
  | .look seen => seen ≤ w.version
  | .sleep seen => seen ≤ w.version ∧ (seen = w.version → stop w.value = false)
  | .done a => stop a = true ∨ w.closed = true ∧ a = w.value

variable {stop} {w : Watch α} {t : Wait α}

theorem Alert.poll (h : t.Alert stop w) : (t.poll stop w).Alert stop w := by
  cases t with
  | look seen =>
    unfold Wait.poll
    cases hs : stop w.value with
    | true => exact .inl hs
    | false => exact ⟨h, fun _ => hs⟩
  | sleep seen =>
    unfold Wait.poll
    dsimp only
    split_ifs with hv hc
    · exact le_rfl
    · exact .inr ⟨hc, rfl⟩
    · exact h
  | done => exact h

theorem Alert.send (h : t.Alert stop w) (hopen : w.closed = false) (a : α) : t.Alert stop (w.send a) := by
  cases t with
  | look => exact Nat.le_succ_of_le h
  | sleep =>
    refine ⟨Nat.le_succ_of_le h.1, fun hseen => ?_⟩
    have hle := h.1
    rw [hseen] at hle
    exact absurd hle (Nat.not_succ_le_self _)
  | done =>
    refine .inl (h.resolve_right fun hend => ?_)
    rw [hopen] at hend
    exact Bool.false_ne_true hend.1

theorem Alert.close (h : t.Alert stop w) : t.Alert stop w.close := by
  cases t with
  | look | sleep => exact h
  | done => exact h.imp_right fun hend => ⟨rfl, hend.2⟩

theorem Alert.asleep (h : t.Alert stop w) (hs : t.asleep w = true) :
    stop w.value = false ∧ w.closed = false := by
  cases t with
  | look | done => cases hs
  | sleep =>
    simp only [Wait.asleep, Bool.and_eq_true, decide_eq_true_eq, Bool.not_eq_true'] at hs
    exact ⟨h.2 hs.1.symm, hs.2⟩

/-- With a value to stop for, or the sender gone, four steps are enough: in the worst case the task
looks, finds that the value is a new one, looks again, and finds that there will be no other. -/
theorem Alert.returns (h : t.Alert stop w) (hend : stop w.value = true ∨ w.closed = true) :
    ∃ a, (Wait.poll stop w)^[4] t = .done a := by
  cases hs : stop w.value with
  | true =>
    cases t with
    | look seen => exact ⟨w.value, by simp [Wait.poll, hs]⟩
    | sleep seen =>
      have hv : w.version ≠ seen := fun hv => by simp [h.2 hv.symm] at hs
      exact ⟨w.value, by simp [Wait.poll, hs, hv]⟩
    | done a => exact ⟨a, rfl⟩
  | false =>
    have hclosed : w.closed = true := hend.resolve_left (by simp [hs])
    cases t with
    | look seen | sleep seen =>
      refine ⟨w.value, ?_⟩
      by_cases hv : w.version = seen
      · simp [Wait.poll, hs, hclosed, hv]
      · simp [Wait.poll, hs, hclosed, hv]
    | done a => exact ⟨a, rfl⟩

end Wait

end SrtBridge.General
