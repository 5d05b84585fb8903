import Mathlib.Order.MinMax
import Mathlib.Tactic.Order
import Mathlib.Tactic.Tauto
import ScanPlanner.Span

/-!
# The order of cuts

Cuts are totally ordered (`Cut.instLinearOrder`), so every argument on the ends of spans is one
about a linear order. What ties cuts to keys is that no cut lies inside a key: each cut is on one
side of each key (`Cut.le_before_or_after_le`), and there is a key behind every cut but the last
(`RowKey.exists_gt`). -/

namespace ScanPlanner

/-! ## Keys -/

namespace RowKey

theorem le_or_lt (a b : RowKey) : a ≤ b ∨ b < a := by
  by_cases h : b < a
  · exact .inr h
  · exact .inl h

instance : IsTrans RowKey (· < ·) := ⟨fun _ _ _ => lt_trans⟩

/-- The object with a single member that says nothing. Objects come last in the order of keys, so
that behind every key there is one of these. -/
def bare (name : String) : RowKey := ⟨.object [(name, .null)], nofun, rfl⟩

/-- A text comes before the same text with one more character. -/
theorem lt_push (s : String) (c : Char) : s < s.push c := by
  show s.toList < (s.push c).toList
  have h : s.toList ++ [] < s.toList ++ [c] := List.append_left_lt (List.nil_lt_cons c [])
  rwa [List.append_nil, ← String.toList_push] at h

/-- No key is the last one. Objects come last among keys, and behind an object comes one whose first
member has a longer name. -/
theorem exists_gt (a : RowKey) : ∃ b, a < b := by
  obtain ⟨v, given, picked⟩ := a
  -- whatever is no object has a smaller size than objects have, which is 8
  have before (size : Rat) (lt : size < 8) (rest : List Rat) (h : v.label = size :: rest) :
      ∃ b, (⟨v, given, picked⟩ : RowKey) < b := by
    refine ⟨bare "", Json.precedes_iff.mpr (.inl ?_)⟩
    rw [h]
    exact List.cons_lt_cons_iff.mpr (.inl lt)
  cases v with
  | object members =>
    cases members with
    | nil => exact ⟨bare "", rfl⟩
    | cons first rest =>
      refine ⟨bare (first.1.push 'a'), ?_⟩
      show Json.membersPrecede (first :: rest) [(first.1.push 'a', .null)] = true
      rw [Json.membersPrecede, Bool.or_eq_true, decide_eq_true_eq]
      exact .inl (lt_push first.1 'a')
  | real x =>
    rcases x with _ | (_ | _) | _ <;> exact before _ (by decide +kernel) _ rfl
  | _ => exact before _ (by decide +kernel) _ rfl

end RowKey

/-! ## Cuts -/

namespace Cut

/-- Not being behind is transitive. -/
theorem le_trans {a b c : Cut} (h : a ≤ b) (h' : b ≤ c) : a ≤ c := by
  -- `≤` is that the other one is not smaller, so this is about `<`, which is decided in three cases
  intro gt
  rcases lt_or_eq_or_gt a b with lt | rfl | gt'
  · exact lt_irrefl c (lt_trans gt (lt_of_lt_of_le lt h'))
  · exact h' gt
  · exact h gt'

/-- Cuts neither of which is behind the other are the same. -/
theorem le_antisymm {a b : Cut} (h : a ≤ b) (h' : b ≤ a) : a = b := by
  rcases lt_or_eq_or_gt a b with lt | rfl | gt
  · exact absurd lt h'
  · rfl
  · exact absurd gt h

/-- One of two cuts is not behind the other. -/
theorem le_total (a b : Cut) : a ≤ b ∨ b ≤ a := by
  rcases lt_or_eq_or_gt a b with lt | rfl | gt
  · exact .inl (le_of_lt lt)
  · exact .inl (le_refl a)
  · exact .inr (le_of_lt gt)

/-- Cuts are totally ordered; their minimum and maximum are those that spans are cut and joined
with. -/
instance instLinearOrder : LinearOrder Cut where
  toLE := inferInstance
  toLT := inferInstance
  le_refl := le_refl
  le_trans _ _ _ := le_trans
  le_antisymm _ _ := le_antisymm
  le_total := le_total
  lt_iff_le_not_ge a b := by
    constructor
    · intro h
      exact ⟨le_of_lt h, fun h' => h' h⟩
    · intro h
      exact Classical.not_not.mp h.2
  toDecidableLE := inferInstance
  toDecidableLT := inferInstance
  toDecidableEq := inferInstance
  min := Cut.min
  max := Cut.max
  min_def a b := by
    show (if b < a then b else a) = if ¬ b < a then a else b
    rw [ite_not]
  max_def a b := by
    show (if a < b then b else a) = if ¬ b < a then b else a
    rcases lt_or_eq_or_gt a b with lt | rfl | gt
    · exact (if_pos lt).trans (if_pos (le_of_lt lt)).symm
    · rw [ite_self, ite_self]
    · exact (if_neg (le_of_lt gt)).trans (if_neg (not_not.mpr gt)).symm

@[simp] theorem min_eq (a b : Cut) : Cut.min a b = Min.min a b := rfl

@[simp] theorem max_eq (a b : Cut) : Cut.max a b = Max.max a b := rfl

@[simp] theorem bottom_le (c : Cut) : .bottom ≤ c := by
  intro h
  cases c <;> exact h

@[simp] theorem le_top (c : Cut) : c ≤ .top := by
  intro h
  cases c <;> exact h

theorem before_lt_after (k : RowKey) : Cut.before k < .after k := RowKey.lt_irrefl k

@[simp] theorem after_lt_after {k l : RowKey} : Cut.after k < .after l ↔ k < l := Iff.rfl

/-- The cut after one key is not behind the cut before another one just if the first key comes
first: between the two cuts there is at most a gap. -/
@[simp] theorem after_le_before {k l : RowKey} : Cut.after k ≤ .before l ↔ k < l :=
  Classical.not_not

/-- A cut lies on one side of a key: before it or after it. There is no cut between the two cuts
around a key. -/
theorem le_before_or_after_le (c : Cut) (k : RowKey) : c ≤ .before k ∨ .after k ≤ c := by
  cases c with
  | bottom => exact .inl (bottom_le _)
  | top => exact .inr (le_top _)
  -- a cut beside another key is on the side of that key
  | before l =>
    rcases RowKey.le_or_lt l k with h | h
    · exact .inl h
    · exact .inr (after_le_before.mpr h)
  | after l =>
    rcases RowKey.le_or_lt k l with h | h
    · exact .inr h
    · exact .inl (after_le_before.mpr h)

end Cut

end ScanPlanner
