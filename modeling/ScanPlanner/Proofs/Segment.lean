import ScanPlanner.Text.Percent

/-!
# Segments read back

A segment is taken apart into bytes, the bytes into characters, and these make up a text without
halves of characters. Reading gives back the text that was written (`percentDecode?_percentEncode`),
so different texts are written differently (`percentEncode_inj`). What is written holds unreserved
characters and percent signs only, so nothing in it ends the segment.
-/

namespace ScanPlanner.Text

/-! ## Bytes -/

/-- The value of a hexadecimal digit with a letter of either case. -/
def hexValue? (c : Char) : Option Nat :=
  if '0' ≤ c ∧ c ≤ '9' then some (c.toNat - 0x30)
  else if 'A' ≤ c ∧ c ≤ 'F' then some (c.toNat - 0x37)
  else if 'a' ≤ c ∧ c ≤ 'f' then some (c.toNat - 0x57)
  else none

/-- The byte that is written with two digits. -/
def byteOf? (high low : Char) : Option UInt8 := do
  return UInt8.ofNat (16 * (← hexValue? high) + (← hexValue? low))

/-- The bytes that a segment stands for. A percent sign has to be followed by the two digits of a
byte; any other character stands for its own bytes. -/
def segmentBytes? : List Char → Option (List UInt8)
  | [] => some []
  | c :: rest =>
    if c ≠ '%' then (segmentBytes? rest).map (String.utf8EncodeChar c ++ ·)
    else match rest with
      | high :: low :: rest =>
        (byteOf? high low).bind fun b => (segmentBytes? rest).map (b :: ·)
      | _ => none

theorem hexValue?_hexDigit : ∀ n < 16, hexValue? (hexDigit n) = some n := by decide

/-- The two digits of a byte are read back as that byte. -/
theorem byteOf?_hexDigit (b : UInt8) :
    byteOf? (hexDigit (b.toNat / 16)) (hexDigit (b.toNat % 16)) = some b := by
  have lt := b.toNat_lt
  unfold byteOf?
  rw [hexValue?_hexDigit _ (by omega), hexValue?_hexDigit _ (by omega)]
  show some (UInt8.ofNat (16 * (b.toNat / 16) + b.toNat % 16)) = some b
  rw [Nat.div_add_mod, UInt8.ofNat_toNat]

theorem segmentBytes?_of_ne {c : Char} (h : c ≠ '%') (cs : List Char) :
    segmentBytes? (c :: cs) = (segmentBytes? cs).map (String.utf8EncodeChar c ++ ·) := by
  rw [segmentBytes?.eq_def]
  exact if_pos h

theorem segmentBytes?_percentByte (b : UInt8) (cs : List Char) :
    segmentBytes? (percentByte b ++ cs) = (segmentBytes? cs).map (b :: ·) := by
  show (byteOf? (hexDigit _) (hexDigit _)).bind (fun b => (segmentBytes? cs).map (b :: ·)) = _
  rw [byteOf?_hexDigit, Option.bind_some]

/-- Bytes that are written one after the other are read in their order. -/
theorem segmentBytes?_percentBytes (bs : List UInt8) (cs : List Char) :
    segmentBytes? (bs.flatMap percentByte ++ cs) = (segmentBytes? cs).map (bs ++ ·) := by
  induction bs with
  | nil => simp
  | cons b bs ih =>
    rw [List.flatMap_cons, List.append_assoc, segmentBytes?_percentByte, ih, Option.map_map]
    rfl

/-- However a character is written, its own bytes are read: as itself if it is unreserved, and as
escaped bytes otherwise. -/
theorem segmentBytes?_percentChar (c : Char) (cs : List Char) :
    segmentBytes? (percentChar c ++ cs) =
      (segmentBytes? cs).map (String.utf8EncodeChar c ++ ·) := by
  unfold percentChar
  split
  · next unreserved =>
    -- the percent sign does not stand for itself
    have other : c ≠ '%' := by
      rintro rfl
      revert unreserved
      decide
    exact segmentBytes?_of_ne other cs
  · exact segmentBytes?_percentBytes _ cs

/-- So a written text is read as the bytes of its characters. -/
theorem segmentBytes?_percentChars (cs : List Char) :
    segmentBytes? (cs.flatMap percentChar) = some (cs.flatMap String.utf8EncodeChar) := by
  induction cs with
  | nil => rfl
  | cons c cs ih =>
    rw [List.flatMap_cons, List.flatMap_cons, segmentBytes?_percentChar, ih, Option.map_some]

/-! ## Texts without halves -/

/-- The unit of a character. -/
def unitOf (c : Char) : List Char := if c = halfMark then ofCode markCode else [c]

/-- A unit that is a character is the unit of that character: the mark of halves is written with a
code of its own, so it is not taken for a half. -/
theorem unitOf_of_isCharacter {unit : List Char} (h : isCharacter unit = true) :
    unit.head?.toList.flatMap unitOf = unit := by
  have marked : (ofCode markCode).head?.toList.flatMap unitOf = ofCode markCode := by decide
  unfold isCharacter at h
  split at h
  · next c =>
    have other : c ≠ halfMark := by simpa using h
    show unitOf c ++ [] = [c]
    unfold unitOf
    rw [if_neg other, List.append_nil]
  · rw [of_decide_eq_true h]
    exact marked

/-- A text without halves is made of its characters, so nothing of it is lost when it is written
character by character. -/
theorem flatMap_unitOf_characters {s : String} (h : isWhole s = true) :
    (characters s).flatMap unitOf = s.toList := by
  unfold characters
  unfold isWhole at h
  conv => rhs; rw [← flatten_units s.toList]
  have each := List.all_eq_true.mp h
  -- induction on the units of the text, each of which is a character of its own
  generalize units s.toList = us at each
  induction us with
  | nil => rfl
  | cons u us ih =>
    obtain ⟨first, rest⟩ := List.forall_mem_cons.mp each
    have unit := unitOf_of_isCharacter first
    rw [List.flatten_cons, ← ih rest]
    cases hu : u.head? with
    | none =>
      rw [hu] at unit
      rw [List.filterMap_cons_none hu, ← unit]
      rfl
    | some c =>
      rw [hu] at unit
      rw [List.filterMap_cons_some hu, List.flatMap_cons, ← unit]
      simp

/-! ## Segments -/

/-- The text that bytes stand for, if they are those of characters. -/
def ofBytes? (bytes : List UInt8) : Option String :=
  bytes.toByteArray.utf8Decode?.map fun cs => String.ofList (cs.toList.flatMap unitOf)

/-- The text that a segment stands for, if it stands for one. This undoes the quoting of a text,
from which it follows that two texts are never quoted alike. -/
def percentDecode? (segment : String) : Option String :=
  (segmentBytes? segment.toList).bind ofBytes?

/-- The bytes of the characters of a text without halves make up that text. -/
theorem ofBytes?_characters {s : String} (h : isWhole s = true) :
    ofBytes? ((characters s).flatMap String.utf8EncodeChar) = some s := by
  have decoded : ((characters s).flatMap String.utf8EncodeChar).toByteArray.utf8Decode? =
      some (characters s).toArray := List.utf8Decode?_utf8Encode
  unfold ofBytes?
  rw [decoded, Option.map_some, List.toList_toArray, flatMap_unitOf_characters h,
    String.ofList_toList]

/-- Reading a segment gives back the text that was written, for every text without halves of
characters. -/
theorem percentDecode?_percentEncode {s : String} (h : isWhole s = true) :
    percentDecode? (percentEncode s) = some s := by
  unfold percentDecode? percentEncode
  rw [String.toList_ofList, segmentBytes?_percentChars, Option.bind_some, ofBytes?_characters h]

/-- Different texts without halves are encoded differently. -/
theorem percentEncode_inj {s t : String} (hs : isWhole s = true) (ht : isWhole t = true)
    (h : percentEncode s = percentEncode t) : s = t := by
  have read := percentDecode?_percentEncode hs
  rw [h, percentDecode?_percentEncode ht] at read
  exact (Option.some.inj read).symm

theorem isUnreserved_hexDigit : ∀ n < 16, isUnreserved (hexDigit n) = true := by decide

/-- A written segment holds unreserved characters and percent signs and nothing else, in particular
no slash. -/
theorem isUnreserved_or_percent {s : String} {c : Char} (h : c ∈ (percentEncode s).toList) :
    isUnreserved c = true ∨ c = '%' := by
  unfold percentEncode at h
  rw [String.toList_ofList] at h
  obtain ⟨d, -, h⟩ := List.mem_flatMap.mp h
  unfold percentChar at h
  split at h
  · next unreserved =>
    left
    rwa [List.mem_singleton.mp h]
  · obtain ⟨b, -, h⟩ := List.mem_flatMap.mp h
    have lt := b.toNat_lt
    simp only [percentByte, List.mem_cons, List.not_mem_nil, or_false] at h
    -- an escape is a percent sign and two hexadecimal digits
    rcases h with rfl | rfl | rfl
    · exact .inr rfl
    · exact .inl (isUnreserved_hexDigit _ (by omega))
    · exact .inl (isUnreserved_hexDigit _ (by omega))

/-- A character that would have to be escaped is in no segment. -/
theorem not_mem_percentEncode {c : Char} (reserved : isUnreserved c = false) (ne : c ≠ '%')
    (s : String) : c ∉ (percentEncode s).toList := by
  intro h
  rcases isUnreserved_or_percent h with unreserved | same
  · rw [reserved] at unreserved
    cases unreserved
  · exact ne same

end ScanPlanner.Text
