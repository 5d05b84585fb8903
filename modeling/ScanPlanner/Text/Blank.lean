/-!
# White space

The blanks that surround a value and do not belong to it. `strip` removes them at both ends.
-/

namespace ScanPlanner.Text

/-- The code points of white space, as closed intervals: the control characters that move the
position or separate records, and the space characters of every width. -/
def blanks : List (Nat × Nat) := [
    (0x09, 0x0d), (0x1c, 0x20), (0x85, 0x85), (0xa0, 0xa0), (0x1680, 0x1680), (0x2000, 0x200a),
    (0x2028, 0x2029), (0x202f, 0x202f), (0x205f, 0x205f), (0x3000, 0x3000)]

/-- A white-space character. -/
def isBlank (c : Char) : Bool :=
  blanks.any fun interval => interval.1 ≤ c.toNat && c.toNat ≤ interval.2

/-- The characters without the blanks at both ends. -/
def stripChars (cs : List Char) : List Char :=
  ((cs.dropWhile isBlank).reverse.dropWhile isBlank).reverse

/-- The text without the blanks at both ends. -/
def strip (s : String) : String :=
  String.ofList (stripChars s.toList)

end ScanPlanner.Text
