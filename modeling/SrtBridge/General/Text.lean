import Mathlib.Tactic
import Mathlib.Data.List.DropRight

/-! Text as a list of symbols: blanks trimmed off its ends, a cut at the first separator,
and numerals in base ten. -/

namespace SrtBridge.General

section Trim

variable {α : Type*} {blank : α → Bool} {a s : List α}

def trim (blank : α → Bool) (s : List α) : List α := (s.dropWhile blank).rdropWhile blank

/-- A text begins with a symbol that is not a blank, if it has one. -/
def Unindented (blank : α → Bool) (s : List α) : Prop := ∀ c ∈ s.head?, blank c = false

/-- A text ends with a symbol that is not a blank, if it has one. -/
def Unpadded (blank : α → Bool) (s : List α) : Prop := ∀ c ∈ s.getLast?, blank c = false

instance : Decidable (Unindented blank s) := by unfold Unindented; infer_instance

instance : Decidable (Unpadded blank s) := by unfold Unpadded; infer_instance

theorem Unindented.dropWhile (h : Unindented blank s) : s.dropWhile blank = s := by
  cases s with
  | nil => rfl
  | cons c s => exact List.dropWhile_cons_of_neg (by simp [h c rfl])

theorem Unpadded.rdropWhile (h : Unpadded blank s) : s.rdropWhile blank = s := by
  rw [List.rdropWhile_eq_self_iff]
  intro hs
  simp [h _ (List.getLast?_eq_some_getLast hs)]

theorem unpadded_rdropWhile (s : List α) : Unpadded blank (s.rdropWhile blank) := by
  intro c hc
  obtain ⟨hne, rfl⟩ := List.mem_getLast?_eq_getLast hc
  simpa using List.rdropWhile_last_not blank s hne

theorem unindented_dropWhile (s : List α) : Unindented blank (s.dropWhile blank) := by
  intro c hc
  have h := List.head?_dropWhile_not blank s
  rw [hc] at h
  simpa using h

theorem trim_eq_self (hi : Unindented blank s) (hp : Unpadded blank s) : trim blank s = s := by
  rw [trim, hi.dropWhile, hp.rdropWhile]

theorem unpadded_trim (s : List α) : Unpadded blank (trim blank s) := unpadded_rdropWhile _

theorem Unindented.take (h : Unindented blank s) (ha : a <+: s) : Unindented blank a := by
  obtain ⟨t, rfl⟩ := ha
  cases a with
  | nil => simp [Unindented]
  | cons c a => exact h

theorem unindented_trim (s : List α) : Unindented blank (trim blank s) :=
  (unindented_dropWhile s).take (List.rdropWhile_prefix ..)

theorem mem_of_mem_trim {c : α} (h : c ∈ trim blank s) : c ∈ s :=
  (List.dropWhile_sublist blank).subset ((List.rdropWhile_prefix ..).subset h)

@[simp] theorem trim_nil : trim blank ([] : List α) = [] := rfl

theorem Unindented.append (h : Unindented blank a) (ha : a ≠ []) (s : List α) :
    Unindented blank (a ++ s) := by
  cases a with
  | nil => exact absurd rfl ha
  | cons c a => exact h

/-- What a text ends with is what its last part ends with. -/
theorem unpadded_append (hs : s ≠ []) : Unpadded blank (a ++ s) ↔ Unpadded blank s := by
  unfold Unpadded
  rw [List.getLast?_append_of_ne_nil a hs]

end Trim

section SplitOnce

variable {α : Type*} [DecidableEq α] {sep : α} {a b s : List α}

/-- The text before the first separator, and what follows it. -/
def splitOnce (sep : α) : List α → Option (List α × List α)
  | [] => none
  | c :: s => if c = sep then some ([], s) else (splitOnce sep s).map fun e => (c :: e.1, e.2)

/-- A text without the separator is cut off at the first one after it. -/
theorem splitOnce_append (h : sep ∉ a) (b : List α) : splitOnce sep (a ++ sep :: b) = some (a, b) := by
  induction a with
  | nil => simp [splitOnce]
  | cons c a ih =>
    obtain ⟨hc, ha⟩ := List.ne_and_not_mem_of_not_mem_cons h
    simp [splitOnce, hc.symm, ih ha]

theorem splitOnce_eq_some : splitOnce sep s = some (a, b) ↔ s = a ++ sep :: b ∧ sep ∉ a := by
  constructor
  · intro h
    induction s generalizing a with
    | nil => cases h
    | cons c s ih =>
      simp only [splitOnce] at h
      split_ifs at h with hc
      · obtain ⟨rfl, rfl⟩ := Prod.mk.inj (Option.some.inj h)
        simp [hc]
      · obtain ⟨⟨a', b'⟩, hs, he⟩ := Option.map_eq_some_iff.mp h
        obtain ⟨rfl, rfl⟩ := Prod.mk.inj he
        obtain ⟨rfl, hn⟩ := ih hs
        exact ⟨rfl, List.not_mem_cons_of_ne_of_not_mem (Ne.symm hc) hn⟩
  · rintro ⟨rfl, h⟩
    exact splitOnce_append h b

theorem not_mem_of_mem_splitOn {l : List α} (h : l ∈ s.splitOn sep) : sep ∉ l := by
  induction s generalizing l with
  | nil =>
    rw [List.splitOn_nil, List.mem_singleton] at h
    simp [h]
  | cons c s ih =>
    rw [List.splitOn_cons_eq_if_modifyHead] at h
    split_ifs at h with hc
    · rcases List.mem_cons.mp h with rfl | h
      · simp
      · exact ih h
    · obtain ⟨p, ps, hps⟩ := List.exists_cons_of_ne_nil (List.splitOn_ne_nil sep s)
      rw [hps, List.modifyHead_cons] at h
      rcases List.mem_cons.mp h with rfl | h
      · have hp : sep ∉ p := ih (by rw [hps]; exact List.mem_cons_self ..)
        refine List.not_mem_cons_of_ne_of_not_mem (fun he => hc ?_) hp
        simp [he]
      · exact ih (by rw [hps]; exact List.mem_cons_of_mem _ h)

end SplitOnce

section Numerals

/-- The number a non-empty text of decimal digits stands for. -/
def parseDigits (s : List Char) : Option ℕ :=
  if s ≠ [] ∧ s.all Char.isDigit then some (Nat.ofDigitChars 10 s 0) else none

theorem parseDigits_toDigits (n : ℕ) : parseDigits (Nat.toDigits 10 n) = some n := by
  have hall : (Nat.toDigits 10 n).all Char.isDigit = true := by
    rw [List.all_eq_true]
    intro c hc
    exact Nat.isDigit_of_mem_toDigits (by omega) (by omega) hc
  rw [parseDigits, if_pos ⟨Nat.toDigits_ne_nil, hall⟩, Nat.ofDigitChars_ten_toDigits]

theorem isDigit_of_mem_toDigits {n : ℕ} {c : Char} (h : c ∈ Nat.toDigits 10 n) : c.isDigit = true :=
  Nat.isDigit_of_mem_toDigits (by omega) (by omega) h

end Numerals

end SrtBridge.General
