import ScanPlanner.RowKey

/-!
# Cuts and spans

The place where a range of keys begins or ends lies between keys: before a key, after it, or beyond
all keys on either side. These cuts are totally ordered, and an interval of keys is a span from one
cut to a later one. Whether an end is closed needs no separate care: a closed upper end at `k` is
the cut after `k`, an open one the cut before it.

A list of spans in ascending order that leave a gap between each two is what any union of intervals
comes down to (`Span.insert`).
-/

namespace ScanPlanner

/-- A place between keys. -/
inductive Cut where
  /-- Below every key. -/
  | bottom
  | before (key : RowKey)
  | after (key : RowKey)
  /-- Above every key. -/
  | top
deriving DecidableEq, Inhabited

namespace Cut

/-- The order of cuts. -/
def Lt : Cut → Cut → Prop
  | .bottom, .bottom => False
  | .bottom, _ => True
  | _, .bottom => False
  | .top, _ => False
  | _, .top => True
  | .before a, .before b => a < b
  | .before a, .after b => ¬ b < a
  | .after a, .before b => a < b
  | .after a, .after b => a < b

instance : LT Cut := ⟨Lt⟩

instance : LE Cut := ⟨fun a b => ¬ b < a⟩

instance decidableLt (a b : Cut) : Decidable (a < b) :=
  match a, b with
  | .bottom, .bottom => inferInstanceAs (Decidable False)
  | .bottom, .before _ => inferInstanceAs (Decidable True)
  | .bottom, .after _ => inferInstanceAs (Decidable True)
  | .bottom, .top => inferInstanceAs (Decidable True)
  | .before _, .bottom => inferInstanceAs (Decidable False)
  | .before a, .before b => inferInstanceAs (Decidable (a < b))
  | .before a, .after b => inferInstanceAs (Decidable (¬ b < a))
  | .before _, .top => inferInstanceAs (Decidable True)
  | .after _, .bottom => inferInstanceAs (Decidable False)
  | .after a, .before b => inferInstanceAs (Decidable (a < b))
  | .after a, .after b => inferInstanceAs (Decidable (a < b))
  | .after _, .top => inferInstanceAs (Decidable True)
  | .top, .bottom => inferInstanceAs (Decidable False)
  | .top, .before _ => inferInstanceAs (Decidable False)
  | .top, .after _ => inferInstanceAs (Decidable False)
  | .top, .top => inferInstanceAs (Decidable False)

instance (a b : Cut) : Decidable (a ≤ b) := inferInstanceAs (Decidable (¬ b < a))

/-- No cut comes before itself. -/
theorem lt_irrefl (a : Cut) : ¬ a < a := by
  cases a with
  | bottom => exact id
  | before k => exact RowKey.lt_irrefl k
  | after k => exact RowKey.lt_irrefl k
  | top => exact id

/-- The order of cuts is transitive: along three cuts beside keys, the keys never go down. Around
one key only the cut before it comes before the one after it. -/
theorem lt_trans {a b c : Cut} (h : a < b) (h' : b < c) : a < c := by
  have step {x y z : RowKey} (hxy : ¬ y < x) (hyz : y < z) : x < z := by
    rcases RowKey.lt_or_eq_or_gt x y with lt | rfl | gt
    · exact RowKey.lt_trans lt hyz
    · exact hyz
    · exact absurd gt hxy
  have step' {x y z : RowKey} (hxy : x < y) (hyz : ¬ z < y) : x < z := by
    rcases RowKey.lt_or_eq_or_gt y z with lt | rfl | gt
    · exact RowKey.lt_trans hxy lt
    · exact hxy
    · exact absurd gt hyz
  -- a cut before a key and one after it have nothing between them, so two cuts beside one key still
  -- leave a step for the third
  match a, b, c, h, h' with
  | .bottom, b, .bottom, _, h' => cases b <;> exact h'
  | .bottom, _, .before _, _, _ => exact trivial
  | .bottom, _, .after _, _, _ => exact trivial
  | .bottom, _, .top, _, _ => exact trivial
  | .before _, _, .top, _, _ => exact trivial
  | .after _, _, .top, _, _ => exact trivial
  | .before _, .before _, .before _, h, h' => exact RowKey.lt_trans h h'
  | .before _, .before _, .after _, h, h' => exact RowKey.lt_asymm (step' h h')
  | .before _, .after _, .before _, h, h' => exact step h h'
  | .before _, .after _, .after _, h, h' => exact RowKey.lt_asymm (step h h')
  | .after _, .before _, .before _, h, h' => exact RowKey.lt_trans h h'
  | .after _, .before _, .after _, h, h' => exact step' h h'
  | .after _, .after _, .before _, h, h' => exact RowKey.lt_trans h h'
  | .after _, .after _, .after _, h, h' => exact RowKey.lt_trans h h'

/-- Two cuts are the same, or one of them comes before the other. This rests on the order of keys
being total, also of keys that a table would never have side by side. -/
theorem lt_or_eq_or_gt (a b : Cut) : a < b ∨ a = b ∨ b < a := by
  match a, b with
  | .bottom, .bottom => exact .inr (.inl rfl)
  | .bottom, .before _ => exact .inl trivial
  | .bottom, .after _ => exact .inl trivial
  | .bottom, .top => exact .inl trivial
  | .before _, .bottom => exact .inr (.inr trivial)
  | .before x, .before y =>
    rcases RowKey.lt_or_eq_or_gt x y with h | rfl | h
    · exact .inl h
    · exact .inr (.inl rfl)
    · exact .inr (.inr h)
  -- around two keys the order of the keys decides, and around one key its lower cut comes first
  | .before x, .after y =>
    by_cases h : y < x
    · exact .inr (.inr h)
    · exact .inl h
  | .before _, .top => exact .inl trivial
  | .after _, .bottom => exact .inr (.inr trivial)
  | .after x, .before y =>
    by_cases h : x < y
    · exact .inl h
    · exact .inr (.inr h)
  | .after x, .after y =>
    rcases RowKey.lt_or_eq_or_gt x y with h | rfl | h
    · exact .inl h
    · exact .inr (.inl rfl)
    · exact .inr (.inr h)
  | .after _, .top => exact .inl trivial
  | .top, .bottom => exact .inr (.inr trivial)
  | .top, .before _ => exact .inr (.inr trivial)
  | .top, .after _ => exact .inr (.inr trivial)
  | .top, .top => exact .inr (.inl rfl)

/-- A cut that is not behind another one is before all that come behind that. -/
theorem lt_of_le_of_lt {a b c : Cut} (h : a ≤ b) (h' : b < c) : a < c := by
  rcases lt_or_eq_or_gt a b with lt | rfl | gt
  · exact lt_trans lt h'
  · exact h'
  · exact absurd gt h

/-- A cut that is before another one is before all that are not before that. -/
theorem lt_of_lt_of_le {a b c : Cut} (h : a < b) (h' : b ≤ c) : a < c := by
  rcases lt_or_eq_or_gt b c with lt | rfl | gt
  · exact lt_trans h lt
  · exact h
  · exact absurd gt h'

theorem le_refl (a : Cut) : a ≤ a := lt_irrefl a

theorem le_of_lt {a b : Cut} (h : a < b) : a ≤ b := fun h' => lt_irrefl a (lt_trans h h')

/-- The earlier of two cuts. -/
def min (a b : Cut) : Cut := if b < a then b else a

/-- The later of two cuts. -/
def max (a b : Cut) : Cut := if a < b then b else a

/-- The earlier of two cuts is at most the first one. -/
theorem min_le_left (a b : Cut) : min a b ≤ a := by
  unfold min
  split
  · exact le_of_lt ‹_›
  · exact le_refl a

/-- The later of two cuts is at least the first one. -/
theorem le_max_left (a b : Cut) : a ≤ max a b := by
  unfold max
  split
  · exact le_of_lt ‹_›
  · exact le_refl a

/-- The key beside the cut, if it lies beside one. -/
def key? : Cut → Option RowKey
  | .before k | .after k => some k
  | .bottom | .top => none

end Cut

/-- An interval of keys. -/
structure Span where
  lo : Cut
  hi : Cut
  lo_lt_hi : lo < hi
deriving DecidableEq

namespace Span

/-- The span holds the key: it begins before the key and ends after it. -/
def Holds (s : Span) (k : RowKey) : Prop := s.lo ≤ .before k ∧ .after k ≤ s.hi

instance (s : Span) (k : RowKey) : Decidable (s.Holds k) :=
  inferInstanceAs (Decidable (_ ∧ _))

/-- The span has every cut of the other one. -/
def Covers (s t : Span) : Prop := s.lo ≤ t.lo ∧ t.hi ≤ s.hi

instance (s t : Span) : Decidable (s.Covers t) := inferInstanceAs (Decidable (_ ∧ _))

/-- The common part of two spans. -/
def meet? (s t : Span) : Option Span :=
  if h : Cut.max s.lo t.lo < Cut.min s.hi t.hi then some ⟨_, _, h⟩ else none

/-- The least span that covers both. -/
def join (s t : Span) : Span where
  lo := Cut.min s.lo t.lo
  hi := Cut.max s.hi t.hi
  lo_lt_hi := Cut.lt_of_lt_of_le (Cut.lt_of_le_of_lt (Cut.min_le_left _ _) s.lo_lt_hi)
    (Cut.le_max_left _ _)

/-- The keys at the ends of the span. -/
def keys (s : Span) : List RowKey := s.lo.key?.toList ++ s.hi.key?.toList

/-- The spans with one more: those it overlaps or touches become one span with it. The list is
ascending with gaps, and stays so. -/
def insert (s : Span) : List Span → List Span
  | [] => [s]
  | t :: ts =>
    if s.hi < t.lo then s :: t :: ts
    else if t.hi < s.lo then t :: insert s ts
    else insert (s.join t) ts

/-- The spans of a list, each two of which leave a gap, in ascending order. -/
def Separated (ss : List Span) : Prop := ss.Pairwise fun s t => s.hi < t.lo

/-- One of the spans covers the given one. -/
def someCovers (ss : List Span) (s : Span) : Bool := ss.any fun t => decide (t.Covers s)

/-- The lower end of a span in a message. -/
def shownLo (c : Cut) : String :=
  match c with
  | .before k => "[" ++ k.quoted
  | .after k => "(" ++ k.quoted
  | _ => "(-inf"

/-- The upper end of a span in a message. -/
def shownHi (c : Cut) : String :=
  match c with
  | .before k => k.quoted ++ ")"
  | .after k => k.quoted ++ "]"
  | _ => "+inf)"

/-- A span in a message; one that holds a single key shows it once. -/
def shown (s : Span) : String :=
  match s.lo, s.hi with
  | .before k, .after l =>
    if k = l then "[" ++ k.quoted ++ "]" else shownLo s.lo ++ "," ++ shownHi s.hi
  | lo, hi => shownLo lo ++ "," ++ shownHi hi

/-- A union of spans in a message. -/
def shownUnion (ss : List Span) : String :=
  match ss with
  | [] => "()"
  | ss => String.intercalate " | " (ss.map shown)

end Span

end ScanPlanner
