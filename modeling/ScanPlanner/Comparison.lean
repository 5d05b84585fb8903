import ScanPlanner.Json.Digest
import ScanPlanner.KeyRange.Record

/-!
# Comparisons

All that can be asked about two values of an order: equality always has an answer, the order only if
the values can be compared. `notAfter` and `notBefore` follow from equality and the strict order.
Values that can be looked up also have digests, which may be the same for different values.
-/

namespace ScanPlanner

/-- Two values compared: whether they are equal, whether the first comes before the second, and
whether they have the same digest. -/
structure Comparison where
  equal : Bool
  before : Result Bool
  sameDigest : Result Bool

namespace Comparison

/-- The first value comes before the second or equals it. -/
def notAfter (c : Comparison) : Result Bool := do return (← c.before) || c.equal

/-- The first value neither comes before the second nor equals it. -/
def after (c : Comparison) : Result Bool := do return !(← c.before) && !c.equal

/-- The first value does not come before the second. -/
def notBefore (c : Comparison) : Result Bool := do return !(← c.before)

/-- A value compared with one of another type, where both can be looked up or not. -/
def unrelated (areKeys : Bool) : Comparison :=
  ⟨false, .error .unlike, if areKeys then .ok false else .error .unlike⟩

end Comparison

/-- The records have the same digest, if the values they stand for can be looked up. -/
def Json.sameDigest? (areKeys : Bool) (v w : Json) : Result Bool :=
  if areKeys then .ok (decide (v.digest = w.digest)) else .error .unlike

/-- Two ranges compared. -/
def KeyRange.compare (a b : KeyRange) : Comparison :=
  ⟨a == b, a.before? b, Json.sameDigest? (a.isKey && b.isKey) a.toJson b.toJson⟩

end ScanPlanner
