import Mathlib.Tactic

/-! Runs of a system that takes one action after the other, with a condition on each
action in the state it is taken in, and the invariants of such runs. -/

namespace SrtBridge.General

variable {σ α : Type*} (step : σ → α → σ)

/-- Every action of a run meets a condition in the state it is taken in. -/
def Along (ok : σ → α → Prop) : σ → List α → Prop
  | _, [] => True
  | s, a :: as => ok s a ∧ Along ok (step s a) as

instance Along.decidable (ok : σ → α → Prop) [∀ s a, Decidable (ok s a)] :
    ∀ (s : σ) (as : List α), Decidable (Along step ok s as)
  | _, [] => inferInstanceAs (Decidable True)
  | s, a :: as =>
    have := Along.decidable ok (step s a) as
    inferInstanceAs (Decidable (ok s a ∧ Along step ok (step s a) as))

variable {step} {ok ok' : σ → α → Prop} {s : σ} {as bs : List α}

theorem Along.append (h : Along step ok s as) (h' : Along step ok (as.foldl step s) bs) :
    Along step ok s (as ++ bs) := by
  induction as generalizing s with
  | nil => exact h'
  | cons a as ih => exact ⟨h.1, ih h.2 h'⟩

theorem along_append :
    Along step ok s (as ++ bs) ↔ Along step ok s as ∧ Along step ok (as.foldl step s) bs := by
  refine ⟨fun h => ?_, fun h => h.1.append h.2⟩
  induction as generalizing s with
  | nil => exact ⟨trivial, h⟩
  | cons a as ih =>
    obtain ⟨hl, hr⟩ := ih h.2
    exact ⟨⟨h.1, hl⟩, hr⟩

theorem Along.mono (h : Along step ok s as) (hok : ∀ s a, ok s a → ok' s a) :
    Along step ok' s as := by
  induction as generalizing s with
  | nil => trivial
  | cons a as ih => exact ⟨hok s a h.1, ih h.2⟩

theorem Along.and (h : Along step ok s as) (h' : Along step ok' s as) :
    Along step (fun s a => ok s a ∧ ok' s a) s as := by
  induction as generalizing s with
  | nil => trivial
  | cons a as ih => exact ⟨⟨h.1, h'.1⟩, ih h.2 h'.2⟩

theorem along_of_forall {p : α → Prop} (h : ∀ a ∈ as, p a) : Along step (fun _ a => p a) s as := by
  induction as generalizing s with
  | nil => trivial
  | cons a as ih => exact ⟨h a (by simp), ih fun b hb => h b (by simp [hb])⟩

/-- The condition holds wherever the run is cut. -/
theorem along_iff : Along step ok s as ↔
    ∀ pre a post, as = pre ++ a :: post → ok (pre.foldl step s) a := by
  constructor
  · rintro h pre a post rfl
    exact (along_append.mp h).2.1
  · intro h
    induction as generalizing s with
    | nil => trivial
    | cons a as ih =>
      refine ⟨h [] a as rfl, ih fun pre b post hb => ?_⟩
      exact h (a :: pre) b post (by rw [hb]; rfl)

/-- What every action keeps, the run keeps. -/
theorem Along.invariant {P : σ → Prop} (h : Along step ok s as)
    (hstep : ∀ s a, ok s a → P s → P (step s a)) (hP : P s) : P (as.foldl step s) := by
  induction as generalizing s with
  | nil => exact hP
  | cons a as ih => exact ih h.2 (hstep s a h.1 hP)

/-- What a run has given, when each action gives what it gives in the state it is taken in: it was
given before the run, or the run can be cut at an action that gives it. -/
theorem given_iff {ω : Type*} {p : σ → ω → Prop} {q : σ → α → ω → Prop} {o : ω}
    (hstep : ∀ s a o, p (step s a) o ↔ p s o ∨ q s a o) :
    p (as.foldl step s) o ↔
      p s o ∨ ∃ pre a post, as = pre ++ a :: post ∧ q (pre.foldl step s) a o := by
  induction as generalizing s with
  | nil => simp
  | cons a as ih =>
    rw [List.foldl_cons, ih, hstep, or_assoc]
    apply or_congr_right
    constructor
    · rintro (h | ⟨pre, a', post, rfl, h⟩)
      · exact ⟨[], a, as, rfl, h⟩
      · exact ⟨a :: pre, a', post, rfl, h⟩
    · rintro ⟨pre, a', post, hsplit, h⟩
      cases pre with
      | nil =>
        obtain ⟨rfl, rfl⟩ := List.cons.inj hsplit
        exact .inl h
      | cons c pre =>
        obtain ⟨rfl, rfl⟩ := List.cons.inj hsplit
        exact .inr ⟨pre, a', post, rfl, h⟩

variable (step) in
/-- How many actions of a run are of a kind, in the state they are taken in. -/
def countAlong (p : σ → α → Bool) : σ → List α → ℕ
  | _, [] => 0
  | s, a :: as => (p s a).toNat + countAlong p (step s a) as

/-- If there is such an action, the run can be cut at one. -/
theorem countAlong_pos {p : σ → α → Bool} (h : 0 < countAlong step p s as) :
    ∃ pre a post, as = pre ++ a :: post ∧ p (pre.foldl step s) a = true := by
  induction as generalizing s with
  | nil => cases h
  | cons a as ih =>
    cases hp : p s a with
    | true => exact ⟨[], a, as, rfl, hp⟩
    | false =>
      rw [countAlong, hp, Bool.toNat_false, Nat.zero_add] at h
      obtain ⟨pre, a', post, rfl, hp'⟩ := ih h
      exact ⟨a :: pre, a', post, rfl, hp'⟩

variable (as) in
/-- What grows with every action, and by at least `n` with those of a kind: how much it has grown. -/
theorem countAlong_grows {p : σ → α → Bool} {c : σ → ℕ} {n : ℕ}
    (hstep : ∀ s a, c s + n * (p s a).toNat ≤ c (step s a)) :
    c s + n * countAlong step p s as ≤ c (as.foldl step s) := by
  induction as generalizing s with
  | nil => exact le_rfl
  | cons a as ih =>
    have hone := hstep s a
    have hrest := ih (s := step s a)
    rw [List.foldl_cons, countAlong, Nat.mul_add]
    omega

variable (as) in
/-- A counter that goes up with every action of one kind and starts over with the action that brings
it to `n`: how often it has started over. -/
theorem countAlong_wraps {p q : σ → α → Bool} {c : σ → ℕ} {n : ℕ}
    (hstep : ∀ s a, c s < n → c (step s a) < n ∧ c (step s a) + n * (q s a).toNat = c s + (p s a).toNat)
    (hc : c s < n) :
    c (as.foldl step s) < n ∧
      c (as.foldl step s) + n * countAlong step q s as = c s + countAlong step p s as := by
  induction as generalizing s with
  | nil => exact ⟨hc, rfl⟩
  | cons a as ih =>
    obtain ⟨hlt, hone⟩ := hstep s a hc
    obtain ⟨hend, hrest⟩ := ih hlt
    refine ⟨hend, ?_⟩
    rw [List.foldl_cons, countAlong, countAlong, Nat.mul_add]
    omega

section Paused

/-- A run with pauses: between its actions, what it does not depend on may change. -/
inductive Paused {σ α : Type*} (step : σ → α → σ) (pause : σ → σ → Prop) (s₀ : σ) : List α → σ → Prop
  | start : Paused step pause s₀ [] s₀
  | act {as : List α} {s : σ} (h : Paused step pause s₀ as s) (a : α) :
      Paused step pause s₀ (as ++ [a]) (step s a)
  | pause {as : List α} {s s' : σ} (h : Paused step pause s₀ as s) (hp : pause s s') :
      Paused step pause s₀ as s'

/-- What every action keeps, and every pause, a run with pauses keeps. -/
theorem Paused.invariant {pause : σ → σ → Prop} {P : σ → Prop} {s₀ s : σ} {as : List α}
    (h : Paused step pause s₀ as s) (hstep : ∀ a ∈ as, ∀ s, P s → P (step s a))
    (hpause : ∀ s s', pause s s' → P s → P s') (hP : P s₀) : P s := by
  induction h with
  | start => exact hP
  | act _ a ih => exact hstep a (by simp) _ (ih fun a ha => hstep a (by simp [ha]))
  | pause _ hp ih => exact hpause _ _ hp (ih hstep)

end Paused

end SrtBridge.General
