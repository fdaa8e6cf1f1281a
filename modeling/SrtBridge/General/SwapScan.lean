import Mathlib.Data.List.Perm.Basic
import Mathlib.Tactic

/-! An in-place scan of an array that may drop what it looks at. A cursor walks
over a list; each turn looks at the element under it and either moves on or
removes the element by moving the last one into its place, so the elements not
yet looked at are permuted under the cursor, and none of them is lost. -/

namespace SrtBridge.General

variable {α : Type*}

/-- Remove the element at `i` by moving the last one into its place. -/
def swapRemove (xs : List α) (i : ℕ) : List α :=
  match xs.getLast? with
  | none => []
  | some last => (xs.set i last).dropLast

/-- What follows the cursor after a removal: the last element has moved to the front. -/
def lastToFront (ys : List α) : List α :=
  match ys.getLast? with
  | none => []
  | some last => last :: ys.dropLast

theorem lastToFront_perm (ys : List α) : (lastToFront ys).Perm ys := by
  rcases List.eq_nil_or_concat ys with rfl | ⟨zs, z, rfl⟩
  · exact .refl _
  · have hp : ([z] ++ zs).Perm (zs ++ [z]) := List.perm_append_comm
    simpa [lastToFront] using hp

theorem swapRemove_append_cons (seen : List α) (x : α) (unseen : List α) :
    swapRemove (seen ++ x :: unseen) seen.length = seen ++ lastToFront unseen := by
  rcases List.eq_nil_or_concat unseen with rfl | ⟨zs, z, rfl⟩
  · simp [swapRemove, lastToFront]
  · have hl : (seen ++ x :: (zs ++ [z])).getLast? = some z := by
      rw [← List.cons_append, ← List.append_assoc, List.getLast?_append]; simp
    simp only [List.concat_eq_append, swapRemove, hl, lastToFront, List.getLast?_append,
      List.getLast?_singleton, Option.some_or, List.dropLast_concat]
    rw [List.set_append_right _ _ le_rfl, Nat.sub_self, List.set_cons_zero, ← List.cons_append,
      ← List.append_assoc, List.dropLast_concat]

theorem set_append_cons (seen : List α) (x y : α) (unseen : List α) :
    (seen ++ x :: unseen).set seen.length y = seen ++ y :: unseen := by
  rw [List.set_append_right _ _ le_rfl, Nat.sub_self, List.set_cons_zero]

end SrtBridge.General
