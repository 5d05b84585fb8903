/-!
# Values told apart by a part of them

Some values are the same although they differ in parts that do not count. For such a type a function
picks what tells its values apart, and `==` compares that, so it is an equivalence whatever the
function is.
-/

namespace ScanPlanner.Identity

variable {α β : Type} [DecidableEq β]

/-- The comparison of values by what tells them apart. -/
abbrev beq (identity : α → β) : BEq α := ⟨fun a b => decide (identity a = identity b)⟩

/-- Values that are told apart by the same function are compared by an equivalence, since equality
of what the function gives is one. Keys of ranges, extents and documents all get their `BEq` this
way. -/
theorem equivBEq (identity : α → β) : @EquivBEq α (beq identity) :=
  letI := beq identity
  { rfl := fun {a} => decide_eq_true (rfl : identity a = identity a)
    symm := fun {a b} h =>
      decide_eq_true (Eq.symm (of_decide_eq_true h) : identity b = identity a)
    trans := fun {a _ c} h h' =>
      decide_eq_true ((of_decide_eq_true h).trans (of_decide_eq_true h') :
        identity a = identity c) }

end ScanPlanner.Identity
