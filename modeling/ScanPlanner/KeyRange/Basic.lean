import ScanPlanner.Failure
import ScanPlanner.Span

/-!
# Key ranges

The rows that a scan asks for: from a start key to an end key, each end closed or open, or
unbounded. A range holds something between its ends (`KeyRange.make` refuses one that does not), so
it denotes a span (`KeyRange.span`). Whether an end is closed is told by a value that counts as
something or not; it is kept, and ranges that tell it by values of different meaning differ, even if
they denote the same span.

A range can have any keys whose order can be told (`RowKey.told`). Two ranges can only be compared,
clipped or united if their keys are of one sort (`alikeKeys`).
-/

namespace ScanPlanner

/-- A bounded end of a range. -/
structure Edge where
  key : RowKey
  /-- What is said about the end being closed: null says nothing, and the end is open then. -/
  inclusive : Json
deriving DecidableEq

namespace Edge

/-- The end of a range is closed. -/
def closed (e : Edge) : Bool := e.inclusive.isPresent

/-- What tells ends apart. -/
def identity (e : Edge) : RowKey × Json := (e.key, e.inclusive.canonical)

end Edge

/-- The cut where a range with the given lower end begins. -/
def Cut.ofLower : Option Edge → Cut
  | none => .bottom
  | some e => if e.closed then .before e.key else .after e.key

/-- The cut where a range with the given upper end ends. -/
def Cut.ofUpper : Option Edge → Cut
  | none => .top
  | some e => if e.closed then .after e.key else .before e.key

/-- A range of row keys. -/
structure KeyRange where
  lower : Option Edge
  upper : Option Edge
  nonempty : Cut.ofLower lower < Cut.ofUpper upper
deriving DecidableEq

/-- All keys of both lists are of one sort. -/
def alikeKeys (xs ys : List RowKey) : Bool :=
  xs.all fun x => ys.all x.alike

namespace KeyRange

/-- What tells ranges apart. -/
def identity (r : KeyRange) : Option (RowKey × Json) × Option (RowKey × Json) :=
  (r.lower.map Edge.identity, r.upper.map Edge.identity)

instance : BEq KeyRange := Identity.beq identity

instance : EquivBEq KeyRange := Identity.equivBEq identity

/-- The span that the range denotes. -/
def span (r : KeyRange) : Span := ⟨_, _, r.nonempty⟩

/-- The cut where the range begins. -/
def lo (r : KeyRange) : Cut := Cut.ofLower r.lower

/-- The cut where the range ends. -/
def hi (r : KeyRange) : Cut := Cut.ofUpper r.upper

/-- The key at an end. -/
def edgeKeys (e : Option Edge) : List RowKey := (e.map Edge.key).toList

/-- The keys at the ends of the range. -/
def keys (r : KeyRange) : List RowKey := edgeKeys r.lower ++ edgeKeys r.upper

/-! ## Texts -/

/-- A lower end in a message. -/
def shownLower : Option Edge → String
  | none => "(-inf"
  | some e => (if e.closed then "[" else "(") ++ e.key.shown

/-- An upper end in a message. -/
def shownUpper : Option Edge → String
  | none => "+inf)"
  | some e => e.key.shown ++ (if e.closed then "]" else ")")

/-- Two ends in a message. -/
def shownEnds (lower upper : Option Edge) : String :=
  shownLower lower ++ "," ++ shownUpper upper

/-- A range in a message. -/
def shown (r : KeyRange) : String := shownEnds r.lower r.upper

/-- The key of an end in a message, with its sort. -/
def quotedKey : Option Edge → String
  | none => "None"
  | some e => e.key.quoted

/-- What the range says about an end being closed. An unbounded end is not. -/
def flag : Option Edge → Json
  | none => .bool false
  | some e => e.inclusive

/-- The range can be looked up, which takes values without parts for its keys and for what it says
about its ends. -/
def isKey (r : KeyRange) : Bool :=
  r.keys.all RowKey.isScalar && (flag r.lower).isScalar && (flag r.upper).isScalar

/-- A range in a message, with all that it states. -/
def quoted (r : KeyRange) : String :=
  "Range(" ++ quotedKey r.lower ++ ", " ++ quotedKey r.upper ++ ", start_inclusive=" ++
    (flag r.lower).shown ++ ", end_inclusive=" ++ (flag r.upper).shown ++ ")"

/-! ## Making ranges -/

/-- The range with the given ends, if it can be told which of them comes first and something lies
between them. -/
def make (lower upper : Option Edge) : Result KeyRange :=
  if RowKey.toldEnds (lower.map Edge.key) (upper.map Edge.key) then
    if h : Cut.ofLower lower < Cut.ofUpper upper then .ok ⟨lower, upper, h⟩
    else .error (.invalid (.emptyRange (shownEnds lower upper)))
  else .error .unlike

/-- The range of all keys. -/
def everything : KeyRange := ⟨none, none, trivial⟩

/-- The range of one key, or of all keys if none is given. -/
def exact (row : Option RowKey) : Result KeyRange :=
  make (row.map fun k => ⟨k, .bool true⟩) (row.map fun k => ⟨k, .bool true⟩)

/-- The lower end that begins at a cut. -/
def lowerAt : Cut → Option Edge
  | .before k => some ⟨k, .bool true⟩
  | .after k => some ⟨k, .bool false⟩
  | _ => none

/-- The upper end that ends at a cut. -/
def upperAt : Cut → Option Edge
  | .before k => some ⟨k, .bool false⟩
  | .after k => some ⟨k, .bool true⟩
  | _ => none

theorem ofLower_lowerAt {lo hi : Cut} (h : lo < hi) : Cut.ofLower (lowerAt lo) = lo := by
  cases lo with
  | top => cases hi <;> exact h.elim
  | _ => rfl

theorem ofUpper_upperAt {lo hi : Cut} (h : lo < hi) : Cut.ofUpper (upperAt hi) = hi := by
  cases hi with
  | bottom => cases lo <;> exact h.elim
  | _ => rfl

/-- The range that denotes a span, with both ends stated. -/
def ofSpan (s : Span) : KeyRange where
  lower := lowerAt s.lo
  upper := upperAt s.hi
  nonempty := by rw [ofLower_lowerAt s.lo_lt_hi, ofUpper_upperAt s.lo_lt_hi]; exact s.lo_lt_hi

@[simp] theorem span_ofSpan (s : Span) : (ofSpan s).span = s := by
  obtain ⟨lo, hi, h⟩ := s
  simp only [span, ofSpan, ofLower_lowerAt h, ofUpper_upperAt h]

/-- The range that denotes a union of spans, if it is one span. -/
def ofUnion (ss : List Span) : Result KeyRange :=
  match ss with
  | [s] => .ok (ofSpan s)
  | ss => .error (.invalid (.notOneSpan (Span.shownUnion ss)))

/-! ## Keys and ranges -/

/-- The key lies in the range. Only a range without ends accepts every key, also none at all. -/
def contains? (r : KeyRange) (key : Option RowKey) : Result Bool :=
  match key with
  | none => if r.keys.isEmpty then .ok true else .error .unlike
  | some k => if alikeKeys r.keys [k] then .ok (decide (r.span.Holds k)) else .error .unlike

/-- The ends that face each other, the end of one range and the start of the other, have keys of
one sort. -/
def facing (a b : KeyRange) : Bool :=
  alikeKeys (edgeKeys a.upper) (edgeKeys b.lower) && alikeKeys (edgeKeys a.lower) (edgeKeys b.upper)

/-- The ranges have something in common. To tell this, the ends that face each other are compared,
and the starts; two ranges without a start overlap whatever the keys at their ends are. -/
def overlaps? (a b : KeyRange) : Result Bool :=
  if facing a b && alikeKeys (edgeKeys a.lower) (edgeKeys b.lower) then
    .ok (a.span.meet? b.span).isSome
  else .error .unlike

/-- The first range covers the second one. -/
def covers? (a b : KeyRange) : Result Bool :=
  if alikeKeys a.keys b.keys then .ok (decide (a.span.Covers b.span)) else .error .unlike

/-- The part of the second range that lies in the first one, if there is any. -/
def clip? (a b : KeyRange) : Result (Option KeyRange) :=
  if alikeKeys a.keys b.keys then .ok ((a.span.meet? b.span).map ofSpan) else .error .unlike

/-- The part of the second range that lies in the first one, where there has to be some. -/
def clip (a b : KeyRange) : Result KeyRange := do
  match ← a.clip? b with
  | some r => .ok r
  | none => .error (.invalid (.disjointRanges b.shown a.shown))

/-! ## Order -/

/-- Ranges are ordered by the cut where they begin, then by the one where they end. -/
def Lt (a b : KeyRange) : Prop := a.lo < b.lo ∨ a.lo = b.lo ∧ a.hi < b.hi

instance : LT KeyRange := ⟨Lt⟩

instance (a b : KeyRange) : Decidable (a < b) := inferInstanceAs (Decidable (_ ∨ _))

/-- The order of the ranges can be told: they are equal, or the keys that it depends on are of one
sort. -/
def comparable (a b : KeyRange) : Bool :=
  a == b || match a.lower, b.lower with
    | some x, some y => x.key.alike y.key
    | none, none => alikeKeys (edgeKeys a.upper) (edgeKeys b.upper)
    | _, _ => true

/-- The first range comes before the second one. -/
def before? (a b : KeyRange) : Result Bool :=
  if comparable a b then .ok (decide (a < b)) else .error .unlike

end KeyRange

end ScanPlanner
