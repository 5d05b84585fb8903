import ScanPlanner.Proofs.Converting
import ScanPlanner.Proofs.Ledger
import ScanPlanner.Proofs.Numeral
import ScanPlanner.Settings.Planner

/-!
# Settings read back

A value that is given to a setting is kept as a text. When the setting is read, the text is
converted to the setting's kind, and the value comes back (`Settings.value_assign`): whatever other
value is preferred, and also when the settings have been merged with those of a job. Other settings
are read as before.
-/

namespace ScanPlanner

/-! ## Values kept as texts -/

namespace Value

/-- The values that an option of a kind may be given without being changed: each kind has values of
its own type. A whole number has no more digits than are read, since a longer one has no text that
could be read back. -/
inductive Fits : Kind → Value → Prop where
  | flag (b : Bool) : Fits .flag (.plain (.bool b))
  | integer (n : Int) (few : (Nat.toDigits 10 n.natAbs).length ≤ maxIntegerDigits) :
    Fits .integer (.plain (.int n))
  | text (s : String) : Fits .text (.plain (.text s))
  | choice (c : Choice) : Fits (.choice c.enumeration) (.choice c)

theorem flagWords_toText (b : Bool) :
    flagWords (Text.strip (toText (.plain (.bool b)))).toLower = some b := by
  cases b <;> decide +kernel

/-- No two choices of an enumeration have the same value, whatever the case of letters. -/
theorem ofText?_value (c : Choice) : c.enumeration.ofText? c.value = some c := by
  rcases c with g | s | k
  · cases g <;> decide +kernel
  · cases s <;> decide +kernel
  · cases k <;> decide +kernel

/-- The text of a value is converted to the value. So what was assigned is read back, although a
value is kept as its text; the values that fit a kind are those for which that is so. -/
theorem convert_toText {k : Kind} {v : Value} (fits : v.Fits k) :
    convert k (.plain (.text v.toText)) = .ok v := by
  -- one case for each kind of value, read back from the text that it has
  cases fits with
  | flag b =>
    have read : toFlag (.plain (.text (toText (.plain (.bool b))))) = .ok b := by
      simp only [toFlag, text?, flagWords_toText]
    rw [convert_flag rfl, read]
    rfl
  | integer n few =>
    have written : toText (.plain (.int n)) = toString n := rfl
    have read : toInteger (.plain (.text (toString n))) = .ok n := by
      show (Json.text (Text.strip (toString n))).toInteger = _
      rw [Integer.strip_toString, Json.toInteger, Integer.read_toString few]
      rfl
    -- the text is no whole number itself, so it is left to the converter
    have other : isOf .integer (.plain (.text (toString n))) = false := rfl
    rw [written, convert_integer rfl, other, if_neg Bool.false_ne_true, read]
    rfl
  | text s => rfl
  | choice c =>
    have written : toText (.choice c) = c.value := rfl
    have read : toChoice c.enumeration (.plain (.text c.value)) = .ok c := by
      simp only [toChoice, toChoice.ofText, ofText?_value]
    rw [written, convert_choice rfl, read]
    rfl

end Value

/-! ## Settings -/

namespace Settings

variable {given : Settings} {s t : Setting} {v : Value}

/-- A setting that has been given the text of a value is read as the value. -/
theorem value_of_text (fits : v.Fits s.kind)
    (found : given.get? s.key = some (.plain (.text v.toText))) (preferred : Value) :
    given.value s preferred = .ok v := by
  unfold value
  rw [found]
  exact Value.convert_toText fits

theorem value_congr {given given' : Settings} (same : given.get? t.key = given'.get? t.key)
    (preferred : Value) : given.value t preferred = given'.value t preferred := by
  unfold value
  rw [same]

theorem get?_assign_self (given : Settings) (s : Setting) (v : Value) :
    (given.assign s v).get? s.key = some (.plain (.text v.toText)) :=
  Ledger.get?_put_self given s.key _

theorem get?_assign_of_ne (given : Settings) (v : Value) (other : t.key ≠ s.key) :
    (given.assign s v).get? t.key = given.get? t.key :=
  Ledger.get?_put_of_ne given _ (beq_eq_false_iff_ne.mpr other.symm)

theorem get?_merge {others : Settings} (distinct : Ledger.Distinct others) (given : Settings)
    (key : String) : (given.merge others).get? key = (others.get? key).or (given.get? key) :=
  Ledger.get?_foldl_put_of_distinct distinct given key

/-- A value that has been given to a setting is read, whatever is preferred to the setting's own,
and other settings are read as before. Neither changes when the settings of a job come beneath. -/
theorem value_assign (distinct : Ledger.Distinct given) (fits : v.Fits s.kind) :
    (∀ preferred, (given.assign s v).value s preferred = .ok v) ∧
    (∀ t : Setting, t.key ≠ s.key →
      (given.assign s v).contains t = given.contains t ∧
      ∀ preferred, (given.assign s v).value t preferred = given.value t preferred) ∧
    ∀ job : Settings,
      (∀ preferred, (job.merge (given.assign s v)).value s preferred = .ok v) ∧
      ∀ t : Setting, t.key ≠ s.key → ∀ preferred,
        (job.merge (given.assign s v)).value t preferred = (job.merge given).value t preferred := by
  have assigned : Ledger.Distinct (given.assign s v) := Ledger.distinct_put distinct s.key _
  refine ⟨value_of_text fits (get?_assign_self given s v), ?_, ?_⟩
  · intro t other
    have same := get?_assign_of_ne given v other
    exact ⟨congrArg Option.isSome same, value_congr same⟩
  · intro job
    constructor
    · refine value_of_text fits ?_
      -- what is merged in comes first, and that is the assigned text
      rw [get?_merge assigned, get?_assign_self, Option.some_or]
    · intro t other
      refine value_congr ?_
      rw [get?_merge assigned, get?_merge distinct, get?_assign_of_ne given v other]

/-- Settings that hold a null, and a text in the place of a number. -/
def doubtful : Settings :=
  [(Setting.adjust.key, .none), (Setting.backoffLeast.key, .plain (.text "soon"))]

/-- A negative number takes the place of a text that is no number, and stays the value when the
settings are merged into others. -/
theorem value_assign_doubtful :
    Ledger.Distinct doubtful ∧ (Value.plain (.int (-250))).Fits Setting.backoffLeast.kind ∧
      (doubtful.assign .backoffLeast (.plain (.int (-250)))).value .backoffLeast (.plain (.int 7)) =
        .ok (.plain (.int (-250))) ∧
      (doubtful.assign .backoffLeast (.plain (.int (-250)))).value .adjust .none =
        doubtful.value .adjust .none ∧
      (merge [(Setting.backoffLeast.key, .plain (.int 500))]
          (doubtful.assign .backoffLeast (.plain (.int (-250))))).value .backoffLeast .none =
        .ok (.plain (.int (-250))) := by
  have distinct : Ledger.Distinct doubtful := by
    simp [doubtful, Setting.adjust, Setting.backoffLeast]
  have few : (Nat.toDigits 10 (-250 : Int).natAbs).length ≤ maxIntegerDigits := by decide
  obtain ⟨own, others, merged⟩ :=
    value_assign (s := .backoffLeast) distinct (.integer (-250) few)
  exact ⟨distinct, .integer _ few, own _, (others .adjust (by decide)).2 _, (merged _).1 _⟩

end Settings

end ScanPlanner
