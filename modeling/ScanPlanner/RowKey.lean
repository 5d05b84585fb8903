import ScanPlanner.Json.Display
import ScanPlanner.Json.Rank

/-!
# Row keys

The keys of a sorted table: texts, ordered by their characters, or numbers, ordered by their size.
A table uses keys of one sort, and an operation that has to compare a number with a text refuses to
(`alike`).

Any value but null can be given as a key. Values that mean the same are the same key, so `true` and
`1.0` are the key `1`, and are shown as such. A list, an object and what is no number have no sort:
they can stand at an end of a range, and a list also across from another list that it can be
compared with (`told`), but nothing else is asked about their order. For the order of keys to be
total, keys of different sorts have one as well (`Json.precedes`); no answer depends on it.
-/

namespace ScanPlanner

theorem Json.int_ne_null (n : Int) : Json.int n ≠ .null := by
  intro h
  cases h

theorem Json.text_ne_null (s : String) : Json.text s ≠ .null := by
  intro h
  cases h

/-- A row key: a value other than null, the one that is picked among those that mean the same. -/
structure RowKey where
  value : Json
  given : value ≠ .null
  picked : value.canonical = value
deriving DecidableEq

namespace RowKey

/-- A whole number as a key. -/
def number (n : Int) : RowKey := ⟨.int n, Json.int_ne_null n, rfl⟩

/-- A text as a key. -/
def text (s : String) : RowKey := ⟨.text s, Json.text_ne_null s, rfl⟩

/-- What is no number, as a key. -/
def nan : RowKey := ⟨.real .nan, nofun, rfl⟩

instance : Inhabited RowKey := ⟨.number 0⟩

/-- The key that a value stands for. Null stands for none. -/
def ofValue? (v : Json) : Option RowKey :=
  if h : v.canonical = .null then none else some ⟨v.canonical, h, Json.canonical_canonical v⟩

/-- The sorts of keys that have an order. -/
inductive Kind where
  | number
  | text
deriving DecidableEq

/-- The sort of a key, if it has one. -/
def kind? (k : RowKey) : Option Kind :=
  match k.value with
  | .int _ => some .number
  | .real .nan => none
  | .real _ => some .number
  | .text _ => some .text
  | _ => none

/-- Keys of one sort, which can be compared. -/
def alike (a b : RowKey) : Bool := a.kind?.isSome && a.kind? == b.kind?

/-- The first key comes before the second one, if the two have an order. -/
def before? (a b : RowKey) : Option Bool := a.value.before? b.value

/-- Which of two keys comes first can be told: they are of one sort, or they are two lists, the same
ones or one before the other. -/
def told (a b : RowKey) : Bool :=
  a.alike b || match a.value, b.value with
    | .list _, .list _ => decide (a = b) || a.before? b == some true || b.before? a == some true
    | _, _ => false

/-- Which of two keys comes first can be told, as far as both are given. -/
def toldEnds : Option RowKey → Option RowKey → Bool
  | some a, some b => a.told b
  | _, _ => true

/-- The key can be looked up, which takes a value without parts. -/
def isScalar (k : RowKey) : Bool := k.value.isScalar

/-- The order of keys. -/
def Lt (a b : RowKey) : Prop := a.value.precedes b.value = true

instance : LT RowKey := ⟨Lt⟩

instance : LE RowKey := ⟨fun a b => ¬ b < a⟩

instance decidableLt (a b : RowKey) : Decidable (a < b) := inferInstanceAs (Decidable (_ = true))

instance (a b : RowKey) : Decidable (a ≤ b) := inferInstanceAs (Decidable (¬ b < a))

/-- A key as it is shown alone. -/
def shown (k : RowKey) : String := k.value.shown

/-- A key as it is shown with its sort: texts are quoted. -/
def quoted (k : RowKey) : String := k.value.quoted

/-- A key, or the word for none. -/
def quotedOrNone : Option RowKey → String
  | none => "None"
  | some k => k.quoted

/-! ## Keys that can be compared -/

/-- A key is told by its value. -/
theorem eq_of_value_eq {a b : RowKey} (h : a.value = b.value) : a = b := by
  cases a
  cases b
  cases h
  rfl

/-- The key that a key's value stands for is the key itself. -/
@[simp] theorem ofValue?_value (k : RowKey) : ofValue? k.value = some k := by
  have given : ¬ k.value.canonical = .null := by
    rw [k.picked]
    exact k.given
  rw [ofValue?, dif_neg given, Option.some.injEq]
  exact eq_of_value_eq k.picked

/-- Keys are alike if they have a sort and it is the same one; keys without a sort are alike to
none. -/
theorem alike_iff {a b : RowKey} : a.alike b = true ↔ ∃ s, a.kind? = some s ∧ b.kind? = some s := by
  unfold alike
  cases a.kind? with
  | none => simp
  | some s => simpa using eq_comm

theorem alike_comm (a b : RowKey) : alike a b = alike b a := by
  rw [Bool.eq_iff_iff, alike_iff, alike_iff]
  simp only [and_comm]

/-- Keys that are alike to the same key are alike, since they are of its sort. -/
theorem alike_trans {a b c : RowKey} (h : alike a b = true) (h' : alike b c = true) :
    alike a c = true := by
  obtain ⟨s, ha, hb⟩ := alike_iff.mp h
  obtain ⟨t, hb', hc⟩ := alike_iff.mp h'
  cases hb.symm.trans hb'
  exact alike_iff.mpr ⟨s, ha, hc⟩

/-- Of two keys of one sort it can always be told which comes first. -/
theorem told_of_alike {a b : RowKey} (h : a.alike b = true) : a.told b = true := by
  rw [told, h]
  rfl

theorem isScalar_of_kind {k : RowKey} (h : k.kind?.isSome = true) : k.isScalar = true := by
  unfold kind? at h
  unfold isScalar
  cases hv : k.value <;> rw [hv] at h <;> first | rfl | cases h

/-- A key without parts has a sort, unless it is no number: truth values count as numbers and null
is no key, so numbers and texts are all that is left. -/
theorem kind_of_isScalar {k : RowKey} (scalar : k.isScalar = true) (number : k ≠ nan) :
    k.kind?.isSome = true := by
  obtain ⟨v, given, picked⟩ := k
  cases v with
  | null => exact absurd rfl given
  | bool b => cases picked
  | real x =>
    cases x with
    | nan => exact absurd rfl number
    | _ => rfl
  | list items => cases scalar
  | object members => cases scalar
  | _ => rfl

/-- A key without parts has an order with itself, even if it is no number: then it just does not
come first. -/
theorem isSome_before?_self {k : RowKey} (scalar : k.isScalar = true) :
    (k.before? k).isSome = true := by
  obtain ⟨v, given, picked⟩ := k
  cases v with
  | null => exact absurd rfl given
  | list items => cases scalar
  | object members => cases scalar
  | _ => rfl

/-- Keys that each have a sort and that have an order are of one sort. Lists have an order too, but
no sort. -/
theorem alike_of_before? {a b : RowKey} (ha : a.kind?.isSome = true) (hb : b.kind?.isSome = true)
    (h : (a.before? b).isSome = true) : a.alike b = true := by
  unfold alike
  rw [ha, Bool.true_and, beq_iff_eq]
  unfold kind? at ha hb ⊢
  unfold before? at h
  -- values of different sorts have no order, so of the pairs that are left each is of one sort
  split at ha <;> split at hb <;> simp_all [Json.before?, Json.position?]

/-! ## The order is total -/

theorem lt_irrefl (a : RowKey) : ¬ a < a := Bool.eq_false_iff.mp (Json.not_precedes_self a.value)

/-- The order of keys is transitive, since that of their values is. -/
theorem lt_trans {a b c : RowKey} (h : a < b) (h' : b < c) : a < c := Json.precedes_trans _ _ _ h h'

theorem lt_or_eq_or_gt (a b : RowKey) : a < b ∨ a = b ∨ b < a :=
  (Json.precedes_trichotomy a.value b.value).imp_right (Or.imp_left eq_of_value_eq)

theorem lt_asymm {a b : RowKey} (h : a < b) : ¬ b < a :=
  fun h' => lt_irrefl a (lt_trans h h')

end RowKey

end ScanPlanner
