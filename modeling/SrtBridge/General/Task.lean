import Mathlib.Tactic

/-! Tasks that send commands and wait for the answers, and a calculus of what they have sent and
heard when they wait and when they return. -/

namespace SrtBridge.General

/-- How a wait ends. -/
inductive Awaited (Answer : Type*) where
  | answer (a : Answer)
  /-- Whoever was to answer is gone. -/
  | dropped
  /-- The wait took too long. -/
  | elapsed

/-- A task between two of its steps. -/
inductive Task (Cmd Key Answer Chan Result : Type*) where
  | send (cmd : Cmd) (next : Task Cmd Key Answer Chan Result)
  /-- Wait for the answer to `key`, for the budget at most if there is one. -/
  | await (key : Key) (budget : Option ℕ) (next : Awaited Answer → Task Cmd Key Answer Chan Result)
  | letGo (chan : Chan) (next : Task Cmd Key Answer Chan Result)
  | panic
  | ret (result : Result)

/-- What a task has done, as far as others are concerned. -/
inductive Note (Cmd Key Answer : Type*) where
  | sent (cmd : Cmd)
  | heard (key : Key) (a : Awaited Answer)

variable {Cmd Key Answer Chan Result : Type*}

def sentIn (log : List (Note Cmd Key Answer)) : List Cmd :=
  log.filterMap fun | .sent cmd => some cmd | .heard .. => none

section Sent

variable (log : List (Note Cmd Key Answer))

@[simp] theorem sentIn_nil : sentIn ([] : List (Note Cmd Key Answer)) = [] := rfl

@[simp] theorem sentIn_sent (cmd : Cmd) : sentIn (log ++ [.sent cmd]) = sentIn log ++ [cmd] := by
  simp [sentIn]

@[simp] theorem sentIn_heard (key : Key) (a : Awaited Answer) :
    sentIn (log ++ [.heard key a]) = sentIn log := by
  simp [sentIn]

end Sent

namespace Task

/-- However the waits of the task end: `inv` holds of what it has done at every one of its steps,
and `post` when it returns. `log`: what it has done so far. -/
def Ensures (inv : List (Note Cmd Key Answer) → Prop)
    (post : List (Note Cmd Key Answer) → Result → Prop) :
    Task Cmd Key Answer Chan Result → List (Note Cmd Key Answer) → Prop
  | .send cmd next, log => inv log ∧ next.Ensures inv post (log ++ [.sent cmd])
  | .await key budget next, log =>
    inv log ∧ ∀ a, (a = .elapsed → budget ≠ none) → (next a).Ensures inv post (log ++ [.heard key a])
  | .letGo _ next, log => inv log ∧ next.Ensures inv post log
  | .panic, log => inv log
  | .ret result, log => inv log ∧ post log result

variable {inv : List (Note Cmd Key Answer) → Prop} {post : List (Note Cmd Key Answer) → Result → Prop}
  {t : Task Cmd Key Answer Chan Result} {log : List (Note Cmd Key Answer)}

theorem Ensures.now (h : t.Ensures inv post log) : inv log := by
  cases t with
  | panic => exact h
  | _ => exact h.1

def map {Result' : Type*} (f : Result → Result') :
    Task Cmd Key Answer Chan Result → Task Cmd Key Answer Chan Result'
  | .send cmd next => .send cmd (next.map f)
  | .await key budget next => .await key budget fun a => (next a).map f
  | .letGo chan next => .letGo chan (next.map f)
  | .panic => .panic
  | .ret result => .ret (f result)

section Grounded

variable (keyOf : Cmd → Option Key) (slow : Cmd → Bool) (mine : List Key) (bound : ℕ)

/-- However the waits of the task end: it is over within `n` steps; it brings each key of its own with
one command only; and it waits for the key of a command it has sent, for `bound` at most if the answer
to that one may take its time. `asked`: the commands it has sent. -/
def Grounded : Task Cmd Key Answer Chan Result → ℕ → List Cmd → Prop
  | .send cmd next, n, asked =>
    0 < n ∧ (∀ key, keyOf cmd = some key → key ∈ mine ∧ ∀ cmd' ∈ asked, keyOf cmd' ≠ some key) ∧
      next.Grounded (n - 1) (asked ++ [cmd])
  | .await key budget next, n, asked =>
    0 < n ∧ key ∈ mine ∧ (∃ cmd ∈ asked, keyOf cmd = some key ∧
      (slow cmd = true → ∃ d, budget = some d ∧ d ≤ bound)) ∧ ∀ a, (next a).Grounded (n - 1) asked
  | .letGo _ next, n, asked => 0 < n ∧ next.Grounded (n - 1) asked
  | .panic, n, _ | .ret _, n, _ => 0 < n

variable {keyOf slow mine bound} {n : ℕ} {asked : List Cmd}

theorem Grounded.pos (h : t.Grounded keyOf slow mine bound n asked) : 0 < n := by
  cases t with
  | panic | ret => exact h
  | send | await | letGo => exact h.1

theorem Grounded.mono {m : ℕ} (h : t.Grounded keyOf slow mine bound n asked) (hm : n ≤ m) :
    t.Grounded keyOf slow mine bound m asked := by
  have hpos := h.pos.trans_le hm
  induction t generalizing n m asked with
  | send cmd next ih =>
    have hle := Nat.sub_le_sub_right hm 1
    exact ⟨hpos, h.2.1, ih h.2.2 hle (h.2.2.pos.trans_le hle)⟩
  | await key budget next ih =>
    have hle := Nat.sub_le_sub_right hm 1
    exact ⟨hpos, h.2.1, h.2.2.1, fun a => ih a (h.2.2.2 a) hle ((h.2.2.2 a).pos.trans_le hle)⟩
  | letGo chan next ih =>
    have hle := Nat.sub_le_sub_right hm 1
    exact ⟨hpos, ih h.2 hle (h.2.pos.trans_le hle)⟩
  | panic | ret => exact hpos

theorem Grounded.map {Result' : Type*} (f : Result → Result')
    (h : t.Grounded keyOf slow mine bound n asked) : (t.map f).Grounded keyOf slow mine bound n asked := by
  induction t generalizing n asked with
  | send cmd next ih => exact ⟨h.1, h.2.1, ih h.2.2⟩
  | await key budget next ih => exact ⟨h.1, h.2.1, h.2.2.1, fun a => ih a (h.2.2.2 a)⟩
  | letGo chan next ih => exact ⟨h.1, ih h.2⟩
  | panic | ret => exact h

end Grounded

/-- What a task can have done at one of its steps, from what it has done before. -/
inductive Reaches : Task Cmd Key Answer Chan Result → List (Note Cmd Key Answer) →
    List (Note Cmd Key Answer) → Prop
  | now {u l} : Reaches u l l
  | send {cmd next l l'} (h : Reaches next (l ++ [.sent cmd]) l') : Reaches (.send cmd next) l l'
  | hear {key budget next l l'} (a : Awaited Answer) (ha : a = .elapsed → budget ≠ none)
      (h : Reaches (next a) (l ++ [.heard key a]) l') : Reaches (.await key budget next) l l'
  | letGo {chan next l l'} (h : Reaches next l l') : Reaches (.letGo chan next) l l'

def Sends (p : Cmd → Prop) : Task Cmd Key Answer Chan Result → Prop
  | .send cmd next => p cmd ∧ next.Sends p
  | .await _ _ next => ∀ a, (next a).Sends p
  | .letGo _ next => next.Sends p
  | .panic | .ret _ => True

section Sends

variable {p : Cmd → Prop} {log' : List (Note Cmd Key Answer)}

theorem Sends.send {cmd : Cmd} (hp : p cmd) (h : t.Sends p) : (Task.send cmd t).Sends p := ⟨hp, h⟩

theorem Sends.await {next : Awaited Answer → Task Cmd Key Answer Chan Result} (key : Key) (budget : Option ℕ)
    (h : ∀ a, (next a).Sends p) : (Task.await key budget next).Sends p := h

theorem Sends.letGo (chan : Chan) (h : t.Sends p) : (Task.letGo chan t).Sends p := h

theorem Sends.ret (result : Result) : (ret result : Task Cmd Key Answer Chan Result).Sends p := trivial

theorem Sends.reached (h : t.Sends p) (hr : t.Reaches log log') (hlog : ∀ cmd ∈ sentIn log, p cmd) :
    ∀ cmd ∈ sentIn log', p cmd := by
  induction hr with
  | now => exact hlog
  | send _ ih =>
    refine ih h.2 fun cmd hcmd => ?_
    rw [sentIn_sent, List.mem_append, List.mem_singleton] at hcmd
    rcases hcmd with hcmd | rfl
    · exact hlog cmd hcmd
    · exact h.1
  | hear a _ _ ih =>
    refine ih (h a) ?_
    rw [sentIn_heard]
    exact hlog
  | letGo _ ih => exact ih h hlog

theorem Sends.map {Result' : Type*} (f : Result → Result') (h : t.Sends p) : (t.map f).Sends p := by
  induction t with
  | send cmd next ih => exact ⟨h.1, ih h.2⟩
  | await key budget next ih => exact fun a => ih a (h a)
  | letGo chan next ih => exact ih h
  | panic | ret => trivial

end Sends

end Task

end SrtBridge.General
