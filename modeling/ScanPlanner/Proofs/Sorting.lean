import Mathlib.Data.List.Sort
import ScanPlanner.Sorting

/-!
# Sorted values

Values are sorted if all of them can be compared, and sorting fails otherwise (`Sorting.sort?`). It
keeps the values (`Sorting.perm_of_sort?`) and, if they are compared by ranks, puts the ranks in
ascending order (`Sorting.pairwise_sort`). Values that are told apart by their ranks have
one such order, so it does not matter in which order they are given (`Sorting.sort_of_perm`). -/

namespace ScanPlanner.Sorting

variable {α β : Type} {comparable le : α → α → Bool} {xs ys : List α}

/-- Sorting only changes the order of the items. -/
theorem perm_of_sort? (h : sort? comparable le xs = .ok ys) : ys.Perm xs := by
  unfold sort? at h
  split at h
  · cases h
    exact perm_sort le xs
  · cases h

/-- Values that are not sorted have no order. -/
theorem eq_unlike_of_sort? {f : Failure} (h : sort? comparable le xs = .error f) : f = .unlike := by
  unfold sort? at h
  split at h <;> cases h
  rfl

/-- What has been sorted could be compared with each other. -/
theorem comparable_of_sort? (h : sort? comparable le xs = .ok ys) :
    ∀ x ∈ xs, ∀ y ∈ xs, comparable x y = true := by
  unfold sort? at h
  split at h
  · next all => exact fun x hx => List.all_eq_true.mp (List.all_eq_true.mp all x hx)
  · cases h

/-- The other way round, items that can be compared are sorted. Each is compared with each, itself
included. -/
theorem sort?_of_comparable (h : ∀ x ∈ xs, ∀ y ∈ xs, comparable x y = true) :
    sort? comparable le xs = .ok (sort le xs) := by
  unfold sort?
  rw [if_pos]
  rw [List.all_eq_true]
  intro x hx
  rw [List.all_eq_true]
  exact h x hx

/-- To sort what is made of the items is to sort the items by it. So it does not matter whether
tablets are sorted or their extents. -/
theorem sort?_map (comparable le : β → β → Bool) (f : α → β) (xs : List α) :
    sort? comparable le (xs.map f) =
      (sort? (fun x y => comparable (f x) (f y)) (fun x y => le (f x) (f y)) xs).map
        (List.map f) := by
  -- the order is only ever asked about the values that the items are sorted by
  have insert_map (x : α) (ys : List α) : insert le (f x) (ys.map f) =
      (insert (fun x y => le (f x) (f y)) x ys).map f := by
    induction ys with
    | nil => rfl
    | cons y ys ih =>
      rw [List.map_cons, insert, insert, ih]
      split <;> rfl
  have sort_map : sort le (xs.map f) = (sort (fun x y => le (f x) (f y)) xs).map f := by
    induction xs with
    | nil => rfl
    | cons x xs ih =>
      show insert le (f x) (sort le (xs.map f)) = _
      rw [ih, insert_map]
      rfl
  unfold sort?
  simp only [List.all_map, sort_map]
  show (if xs.all fun x => xs.all fun y => comparable (f x) (f y) then _ else _) = _
  split <;> rfl

/-- This sort is the insertion sort of the library, so what is known of that one can be used. Both
put an item in front of those that it does not come behind. -/
theorem sort_eq_insertionSort (le : α → α → Bool) (xs : List α) :
    sort le xs = xs.insertionSort fun x y => le x y = true := by
  induction xs with
  | nil => rfl
  | cons x xs ih =>
    have insert_eq (ys : List α) :
        insert le x ys = ys.orderedInsert (fun x y => le x y = true) x := by
      induction ys with
      | nil => rfl
      | cons y ys ih => rw [insert, List.orderedInsert_cons, ih]
    rw [List.insertionSort_cons, ← ih, ← insert_eq]
    rfl

/-- Among values that `le` compares by their ranks, sorting puts the ranks in ascending order. The
ranks need to be right only for the values that are sorted. -/
theorem pairwise_sort [LinearOrder β] (rank : α → β)
    (hle : ∀ x ∈ xs, ∀ y ∈ xs, le x y = true ↔ rank x ≤ rank y) :
    (sort le xs).Pairwise fun x y => rank x ≤ rank y := by
  have total : Std.Total fun x y : α => rank x ≤ rank y := ⟨fun x y => le_total _ _⟩
  have trans : IsTrans α fun x y => rank x ≤ rank y := ⟨fun _ _ _ => le_trans⟩
  -- among the values at hand `le` is the order of the ranks
  have ranked : sort le xs = xs.insertionSort fun x y => rank x ≤ rank y := by
    have same := List.map_insertionSort (fun x y => le x y = true)
      (fun x y : α => rank x ≤ rank y) id xs hle
    rw [sort_eq_insertionSort]
    simpa using same
  rw [ranked]
  exact List.pairwise_insertionSort _ xs

/-- If the items have ranks by which they are compared, they come in the order of their ranks. -/
theorem pairwise_of_sort? [LinearOrder β] (rank : α → β)
    (hle : ∀ x ∈ xs, ∀ y ∈ xs, le x y = true ↔ rank x ≤ rank y)
    (h : sort? comparable le xs = .ok ys) : ys.Pairwise fun x y => rank x ≤ rank y := by
  unfold sort? at h
  split at h
  · cases h
    exact pairwise_sort rank hle
  · cases h

/-- Values that are told apart by their ranks have one ascending order, so sorting them gives the
same in whatever order they come. -/
theorem sort_of_perm [LinearOrder β] (rank : α → β)
    (hle : ∀ x ∈ xs, ∀ y ∈ xs, le x y = true ↔ rank x ≤ rank y)
    (inj : ∀ x ∈ xs, ∀ y ∈ xs, rank x = rank y → x = y) (perm : ys.Perm xs) :
    sort le ys = sort le xs := by
  have ascending := pairwise_sort rank fun x hx y hy =>
    hle x (perm.subset hx) y (perm.subset hy)
  -- two ascending lists of the same values are the same
  have perm' := (perm_sort le ys).trans (perm.trans (perm_sort le xs).symm)
  refine List.Perm.eq_of_pairwise (fun x y hx hy hxy hyx => ?_) ascending
    (pairwise_sort rank hle) perm'
  have hx := ((perm_sort le ys).trans perm).subset hx
  have hy := (perm_sort le xs).subset hy
  exact inj x hx y hy (le_antisymm hxy hyx)

/-- Another order of the items is sorted to the same result, if their sorts are the same. -/
theorem sort?_of_perm (same : sort le ys = sort le xs) (perm : ys.Perm xs) :
    sort? comparable le ys = sort? comparable le xs := by
  have each : (ys.all fun x => ys.all (comparable x)) = xs.all fun x => xs.all (comparable x) := by
    rw [perm.all_eq]
    simp only [perm.all_eq]
  unfold sort?
  rw [each, same]

end ScanPlanner.Sorting
