import ScanPlanner.Proofs.Outcome
import ScanPlanner.Settings.Value

/-!
# Converting to a kind

A value that is of the wanted kind already is passed on as it is, and any other one is left to the
converter of the kind. For nearly all values that comes to what the converter alone does with them
(`Value.convert_eq_iff`). The exceptions are values of another kind that count as being of the
wanted one: a choice that is passed on as a text means the same as the text that the converter would
make of it, but a truth value is passed on as a whole number, which the converter refuses.
-/

namespace ScanPlanner.Value

/-! ## Converters -/

/-- The converter of a kind, if the kind has one. A value is converted to a real number or a list
only by being one. -/
def converter? : Kind → Option (Value → Result Value)
  | .flag => some fun v => return .plain (.bool (← v.toFlag))
  | .integer => some fun v => return .plain (.int (← v.toInteger))
  | .text => some fun v => .ok (.plain (.text v.toText))
  | .choice e => some fun v => return .choice (← v.toChoice e)
  | .real => .none
  | .list => .none

/-- The values of another kind that count as being of a kind: truth values count as whole numbers,
and choices as texts. -/
inductive CountsAs : Kind → Value → Prop where
  | flag (b : Bool) : CountsAs .integer (.plain (.bool b))
  | choice (c : Choice) : CountsAs .text (.choice c)

/-- Two conversions end alike: in values that mean the same, or in the same failure. The values need
not be the same ones, since a choice may be given by the name of its value. -/
def Alike : Result Value → Result Value → Prop
  | .ok v, .ok w => v.same w = true
  | .error f, .error g => f = g
  | _, _ => False

variable {v : Value}

theorem same_self (v : Value) : v.same v = true := by
  cases v with
  | plain v => exact BEq.rfl
  | choice c => exact BEq.rfl

theorem alike_self (r : Result Value) : Alike r r := by
  cases r with
  | ok v => exact same_self v
  | error f => rfl

/-! ## Values that are there -/

theorem convert_flag (there : v.isSome = true) :
    v.convert .flag = return .plain (.bool (← v.toFlag)) :=
  if_neg (by simp [there])

theorem convert_choice (there : v.isSome = true) (e : Enumeration) :
    v.convert (.choice e) = return .choice (← v.toChoice e) :=
  if_neg (by simp [there])

/-- A whole number is passed on, and any other value is left to the converter; what counts as a
whole number here includes the truth values. -/
theorem convert_integer (there : v.isSome = true) :
    v.convert .integer =
      if v.isOf .integer then .ok v else return .plain (.int (← v.toInteger)) :=
  if_neg (by simp [there])

/-- A text is passed on, and any other value is written out; what counts as a text here includes the
choices. -/
theorem convert_text (there : v.isSome = true) :
    v.convert .text = if v.isOf .text then .ok v else .ok (.plain (.text v.toText)) :=
  if_neg (by simp [there])

/-- What is passed on as a whole number is one, or else a truth value, as truth values are whole
numbers of a sort. -/
theorem eq_int_of_isOf (whole : v.isOf .integer = true) (own : ¬CountsAs .integer v) :
    ∃ n, v = .plain (.int n) := by
  cases v with
  | choice c => cases whole
  | plain v =>
    cases v with
    | int n => exact ⟨n, rfl⟩
    | bool b => exact absurd (.flag b) own
    | _ => cases whole

/-- What is passed on as a text is one, or else a choice, as the choices that have texts are texts
of a sort. -/
theorem eq_text_of_isOf (text : v.isOf .text = true) (own : ¬CountsAs .text v) :
    ∃ s, v = .plain (.text s) := by
  cases v with
  | choice c => exact absurd (.choice c) own
  | plain v =>
    cases v with
    | text s => exact ⟨s, rfl⟩
    | _ => cases text

/-- A value that does not just count as being of the kind is converted as the converter of the kind
does it. -/
theorem convert_of_not_countsAs {k : Kind} {direct : Value → Result Value}
    (hk : converter? k = some direct) (there : v.isSome = true) (own : ¬CountsAs k v) :
    v.convert k = direct v := by
  -- a value that is passed on is of the kind itself, and the converter does not change it
  cases k with
  | flag =>
    cases hk
    exact convert_flag there
  | choice e =>
    cases hk
    exact convert_choice there e
  | integer =>
    cases hk
    rw [convert_integer there]
    split
    · next whole =>
      obtain ⟨n, rfl⟩ := eq_int_of_isOf whole own
      rfl
    · rfl
  | text =>
    cases hk
    rw [convert_text there]
    split
    · next text =>
      obtain ⟨s, rfl⟩ := eq_text_of_isOf text own
      rfl
    · rfl
  | real => cases hk
  | list => cases hk

theorem convert_of_countsAs {k : Kind} (counts : CountsAs k v) : v.convert k = .ok v := by
  cases counts with
  | flag b => rfl
  | choice c => rfl

/-- A truth value is refused by the converter to whole numbers, though it counts as one. -/
theorem not_alike_of_flag {direct : Value → Result Value} (hk : converter? .integer = some direct)
    (b : Bool) : direct (.plain (.bool b)) = .error (unconverted "bool" "int" .none) ∧
      ¬Alike (convert .integer (.plain (.bool b))) (direct (.plain (.bool b))) := by
  cases hk
  exact ⟨rfl, id⟩

/-- A choice that is passed on as a text is none, but means the same as its text. -/
theorem alike_of_choice {direct : Value → Result Value} (hk : converter? .text = some direct)
    (c : Choice) : convert .text (.choice c) ≠ direct (.choice c) ∧
      Alike (convert .text (.choice c)) (direct (.choice c)) := by
  cases hk
  refine ⟨nofun, ?_⟩
  show (Json.text c.value == Json.text c.value) = true
  exact BEq.rfl

/-- A value that is there is converted to a kind as the kind's own converter does it, unless it only
counts as being of the kind: then it is passed on. The two ways still end alike for a choice as a
text, and they do not for a truth value as a whole number, which the converter refuses. -/
theorem convert_eq_iff {k : Kind} {direct : Value → Result Value}
    (hk : converter? k = some direct) (there : v.isSome = true) :
    (v.convert k = direct v ↔ ¬CountsAs k v) ∧ (CountsAs k v → v.convert k = .ok v) ∧
    (Alike (v.convert k) (direct v) ↔ ¬(k = .integer ∧ ∃ b, v = .plain (.bool b))) ∧
    ∀ b, k = .integer → v = .plain (.bool b) →
      direct v = .error (unconverted "bool" "int" .none) := by
  refine ⟨⟨?_, convert_of_not_countsAs hk there⟩, convert_of_countsAs, ⟨?_, ?_⟩, ?_⟩
  · intro same counts
    cases counts with
    | flag b => exact (not_alike_of_flag hk b).2 (same ▸ alike_self _)
    | choice c => exact (alike_of_choice hk c).1 same
  · rintro alike ⟨rfl, b, rfl⟩
    exact (not_alike_of_flag hk b).2 alike
  · intro other
    -- apart from values that only count as being of the kind, the two ways are the same
    by_cases counts : CountsAs k v
    · cases counts with
      | flag b => exact absurd ⟨rfl, b, rfl⟩ other
      | choice c => exact (alike_of_choice hk c).2
    · rw [convert_of_not_countsAs hk there counts]
      exact alike_self _
  · rintro b rfl rfl
    exact (not_alike_of_flag hk b).1

/-- A choice that is asked for as a text stays a choice, where the converter would have given its
text. The two mean the same, as the choice is its text. -/
theorem convert_node_to_text :
    ∃ direct, converter? .text = some direct ∧
      (Value.choice (.grouping .node)).isSome = true ∧
      (Value.choice (.grouping .node)).convert .text ≠ direct (.choice (.grouping .node)) ∧
      Alike ((Value.choice (.grouping .node)).convert .text)
        (direct (.choice (.grouping .node))) := by
  refine ⟨_, rfl, rfl, ?_⟩
  obtain ⟨same, -, alike, -⟩ :=
    convert_eq_iff (k := .text) rfl (v := .choice (.grouping .node)) rfl
  exact ⟨fun e => same.mp e (.choice _), alike.mpr nofun⟩

/-- A conversion and the converter of the kind do not always end alike: true is passed as a whole
number, and refused as one. -/
theorem not_alike_true :
    ¬∀ (k : Kind) (direct : Value → Result Value) (v : Value), converter? k = some direct →
      v.isSome = true → Alike (v.convert k) (direct v) := by
  intro alike
  exact alike .integer _ (.plain (.bool true)) rfl rfl

end ScanPlanner.Value
