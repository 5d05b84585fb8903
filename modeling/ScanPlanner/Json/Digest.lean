import ScanPlanner.Json.Order

/-!
# Digests

What a look-up keeps of a value before it compares values. Values that mean the same have the same
digest (`digest_eq_of_beq`). Others may share one: whole numbers are taken modulo `digestModulus`,
minus one has the digest of minus two, and the empty text that of zero.
-/

namespace ScanPlanner.Json

/-- Whole numbers count modulo this prime. -/
def digestModulus : Int := 2305843009213693951

/-- The digest of a whole number: the remainder, with the sign of the number. Minus one is not a
digest. -/
def digestOfInt (n : Int) : Int :=
  let rest := n.tmod digestModulus
  if rest = -1 then -2 else rest

mutual

/-- The digest of a value picked among those that mean the same. -/
def digestOf : Json → Json
  | .int n => .int (digestOfInt n)
  | .text s => if s = "" then .int 0 else .text s
  | .list items => .list (digestOfItems items)
  | .object members => .object (digestOfMembers members)
  | v => v

/-- The digests of the items of a list. -/
def digestOfItems : List Json → List Json
  | [] => []
  | item :: rest => digestOf item :: digestOfItems rest

/-- The digests of the members of an object. -/
def digestOfMembers : List (String × Json) → List (String × Json)
  | [] => []
  | (name, value) :: rest => (name, digestOf value) :: digestOfMembers rest

end

/-- The digest of a value. -/
def digest (v : Json) : Json := digestOf v.canonical

/-- Values that mean the same have the same digest. -/
theorem digest_eq_of_beq {v w : Json} (h : v == w) : v.digest = w.digest :=
  congrArg digestOf (of_decide_eq_true h)

-- values that differ may have one digest, too
example : digestOfInt (-1) = digestOfInt (-2) := by decide

end ScanPlanner.Json
