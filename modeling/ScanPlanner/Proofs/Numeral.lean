import Mathlib.Data.List.TakeWhile
import ScanPlanner.Number.Integer

/-!
# Numerals read back

The numeral of a whole number is read as that number, if it has no more digits than are read
(`Integer.read_toString`), and there are no blanks around it (`Integer.strip_toString`).
-/

namespace ScanPlanner

/-! ## Digits -/

namespace Text

variable {c : Char}

/-- No digit is a blank. -/
theorem isBlank_of_isDigit (h : c.isDigit = true) : isBlank c = false := by
  have bounds : 0x30 ≤ c.toNat ∧ c.toNat ≤ 0x39 := Char.isDigit_iff_toNat.mp h
  simp only [isBlank, blanks, List.any_cons, List.any_nil, Bool.or_false, Bool.or_eq_false_iff,
    Bool.and_eq_false_imp, decide_eq_true_eq, decide_eq_false_iff_not]
  omega

/-- The value of a digit is its distance from zero, since the plain digits are the first of all
digits. -/
theorem digitValue?_of_isDigit (h : c.isDigit = true) :
    digitValue? c = some (c.toNat - '0'.toNat) := by
  have bounds : 0x30 ≤ c.toNat ∧ c.toNat ≤ 0x39 := Char.isDigit_iff_toNat.mp h
  have first : zeros.find? (fun z => z ≤ c.toNat && c.toNat < z + 10) = some 0x30 := by
    unfold zeros
    rw [List.find?_cons_of_pos]
    simp only [Bool.and_eq_true, decide_eq_true_eq]
    omega
  unfold digitValue?
  rw [first]
  rfl

/-- A text without blanks stays as it is when it is stripped. -/
theorem strip_of_not_blank {s : String} (h : ∀ c ∈ s.toList, isBlank c = false) : strip s = s := by
  have kept {cs : List Char} (h : ∀ c ∈ cs, isBlank c = false) : cs.dropWhile isBlank = cs := by
    cases cs with
    | nil => rfl
    | cons c cs => rw [List.dropWhile_cons_of_neg (by simp [h])]
  unfold strip stripChars
  rw [kept h, kept (by simpa using h), List.reverse_reverse, String.ofList_toList]

end Text

/-! ## Numerals -/

namespace Integer

variable {cs : List Char}

/-- Digits alone, with no underscore between them, have their values. There is at least one, as no
digits are no numeral. -/
theorem digitValues?_of_isDigit (ne : cs ≠ []) (h : ∀ c ∈ cs, c.isDigit = true) :
    digitValues? cs = some (cs.map fun c => c.toNat - '0'.toNat) := by
  induction cs using digitValues?.induct with
  | case1 => exact absurd rfl ne
  | case2 c =>
    have first := Text.digitValue?_of_isDigit (h c List.mem_cons_self)
    rw [digitValues?, first]
    rfl
  | case3 c rest _ =>
    -- an underscore is no digit
    exact absurd (h '_' (by simp)) (by decide)
  | case4 c rest more unparted ih =>
    have first := Text.digitValue?_of_isDigit (h c List.mem_cons_self)
    have behind := ih more fun d hd => h d (List.mem_cons_of_mem _ hd)
    rw [digitValues?, first, behind]
    · rfl
    · exact more
    · exact unparted

/-- The number that digits make up is the one that the library reads from them. -/
theorem ofDigits_map (cs : List Char) :
    ofDigits (cs.map fun c => c.toNat - '0'.toNat) = Nat.ofDigitChars 10 cs 0 := by
  unfold ofDigits
  rw [List.foldl_map]
  rfl

theorem isBlank_of_isDigit {c : Char} (h : c.isDigit = true) : isBlank c = false := by
  unfold isBlank
  rw [Text.isBlank_of_isDigit h, Bool.false_and]

/-- A numeral that begins with a digit has no sign, and no blank that would be dropped. -/
theorem splitSign_of_isDigit (ne : cs ≠ []) (h : ∀ c ∈ cs, c.isDigit = true) :
    splitSign (cs.dropWhile isBlank) = (false, cs) := by
  cases cs with
  | nil => exact absurd rfl ne
  | cons c cs =>
    have digit := h c List.mem_cons_self
    rw [List.dropWhile_cons_of_neg (by simp [isBlank_of_isDigit digit])]
    -- a sign is no digit
    unfold splitSign
    split
    · next e =>
      cases e
      exact absurd digit (by decide)
    · next e =>
      cases e
      exact absurd digit (by decide)
    · rfl

/-- Digits behind at most one sign are read, unless they are too many. The value is that of core's
reading of digits. -/
theorem read_of_split {s : String} {negative : Bool}
    (split : splitSign (s.toList.dropWhile isBlank) = (negative, cs)) (ne : cs ≠ [])
    (h : ∀ c ∈ cs, c.isDigit = true) (few : cs.length ≤ maxIntegerDigits) :
    read s = .ok (if negative then -(Nat.ofDigitChars 10 cs 0 : Int)
      else Nat.ofDigitChars 10 cs 0) := by
  have numeral : ∀ c ∈ cs, isNumeralChar c = true := by
    intro c hc
    unfold isNumeralChar
    rw [Text.digitValue?_of_isDigit (h c hc), Option.isSome_some, Bool.or_true]
  have digits := digitValues?_of_isDigit ne h
  unfold read
  rw [split]
  simp only [List.takeWhile_eq_self_iff.mpr numeral, List.dropWhile_eq_nil_iff.mpr numeral, digits,
    ofDigits_map, List.length_map, if_neg (Nat.not_lt.mpr few), List.all_nil, Bool.not_true,
    Bool.false_eq_true, if_false]

/-! ## Numbers -/

theorem isDigit_of_mem {n : Nat} {c : Char} (h : c ∈ Nat.toDigits 10 n) : c.isDigit = true :=
  Nat.isDigit_of_mem_toDigits (by decide) (by decide) h

/-- The numeral of a number has its digits, behind a sign if the number is negative. -/
theorem toList_toString (n : Int) :
    (toString n).toList =
      if n < 0 then '-' :: Nat.toDigits 10 n.natAbs else Nat.toDigits 10 n.natAbs := by
  -- the sign is written only in front of a negative number
  cases n with
  | ofNat m =>
    rw [if_neg (by simp)]
    show (Nat.repr m).toList = _
    rw [Nat.repr_eq_ofList_toDigits, String.toList_ofList]
    rfl
  | negSucc m =>
    rw [if_pos (Int.negSucc_lt_zero m)]
    show ("-" ++ Nat.repr (m + 1)).toList = _
    rw [String.toList_append, Nat.repr_eq_ofList_toDigits]
    show '-' :: (String.ofList (Nat.toDigits 10 (m + 1))).toList = _
    rw [String.toList_ofList]
    rfl

/-- There are no blanks around the numeral of a number, since it begins and ends with a sign or a
digit. -/
theorem strip_toString (n : Int) : Text.strip (toString n) = toString n := by
  apply Text.strip_of_not_blank
  intro c hc
  rw [toList_toString] at hc
  split at hc
  · rcases List.mem_cons.mp hc with rfl | hc
    · decide
    · exact Text.isBlank_of_isDigit (isDigit_of_mem hc)
  · exact Text.isBlank_of_isDigit (isDigit_of_mem hc)

/-- A numeral is read as the number that it was written for, as long as it has no more digits than
are read. -/
theorem read_toString {n : Int} (few : (Nat.toDigits 10 n.natAbs).length ≤ maxIntegerDigits) :
    read (toString n) = .ok n := by
  have ne : Nat.toDigits 10 n.natAbs ≠ [] := Nat.toDigits_ne_nil
  have digit : ∀ c ∈ Nat.toDigits 10 n.natAbs, c.isDigit = true := fun c => isDigit_of_mem
  have value : Nat.ofDigitChars 10 (Nat.toDigits 10 n.natAbs) 0 = n.natAbs :=
    Nat.ofDigitChars_ten_toDigits
  have written := toList_toString n
  by_cases negative : n < 0
  · rw [if_pos negative] at written
    -- no blank stands in front of the sign
    have split : splitSign ((toString n).toList.dropWhile isBlank) =
        (true, Nat.toDigits 10 n.natAbs) := by
      rw [written, List.dropWhile_cons_of_neg (by decide)]
      rfl
    rw [read_of_split split ne digit few, value, if_pos rfl]
    congr
    omega
  · rw [if_neg negative] at written
    have split : splitSign ((toString n).toList.dropWhile isBlank) =
        (false, Nat.toDigits 10 n.natAbs) := by
      rw [written]
      exact splitSign_of_isDigit ne digit
    rw [read_of_split split ne digit few, value, if_neg (by decide)]
    congr
    omega

end Integer

end ScanPlanner
