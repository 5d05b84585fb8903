import ScanPlanner.Failure

/-!
# Sorting

A stable sort by insertion, and a sort of values that cannot all be compared: it fails exactly if
two of the values cannot.
-/

namespace ScanPlanner.Sorting

variable {α : Type}

/-- Puts a value before the first one that it does not exceed. -/
def insert (le : α → α → Bool) (x : α) : List α → List α
  | [] => [x]
  | y :: ys => if le x y then x :: y :: ys else y :: insert le x ys

/-- The values in ascending order, equal ones in the order given. -/
def sort (le : α → α → Bool) (xs : List α) : List α :=
  xs.foldr (insert le) []

/-- The values in ascending order, if each two of them can be compared. -/
def sort? (comparable le : α → α → Bool) (xs : List α) : Result (List α) :=
  if xs.all fun x => xs.all (comparable x) then .ok (sort le xs) else .error .unlike

/-- Texts in ascending order. -/
def texts (xs : List String) : List String :=
  sort (fun a b => decide (¬ b < a)) xs

/-- Inserting an item keeps the others. -/
theorem perm_insert (le : α → α → Bool) (x : α) (xs : List α) :
    (insert le x xs).Perm (x :: xs) := by
  induction xs with
  | nil => exact List.Perm.refl _
  | cons y ys ih =>
    unfold insert
    split
    · exact List.Perm.refl _
    · exact (List.Perm.cons y ih).trans (List.Perm.swap x y ys)

theorem perm_sort (le : α → α → Bool) (xs : List α) : (sort le xs).Perm xs := by
  induction xs with
  | nil => exact List.Perm.refl _
  | cons x xs ih => exact (perm_insert le x _).trans (List.Perm.cons x ih)

end ScanPlanner.Sorting
