import ScanPlanner.Number.Shortest

/-!
# Decimals with a given number of places

The text of a floating-point number with a given number of digits: after the point (`fixed`), after
the leading digit, with an exponent (`scientific`), or in all, in the shorter of the two forms
(`general`). Digits are rounded to the nearest, a half to the even neighbour, from the exact value
of the number. The number here is the quotient `num / den`; signs are added elsewhere.
-/

namespace ScanPlanner.Places

/-- The digits of a number, at least `count` of them. -/
def digitsOf (count n : Nat) : List Char :=
  let digits := Nat.toDigits 10 n
  List.replicate (count - digits.length) '0' ++ digits

/-- The point and the digits behind it; without digits the point is left out, unless it is to be
kept. -/
def fraction (keepPoint : Bool) (digits : List Char) : List Char :=
  if digits.isEmpty && !keepPoint then [] else '.' :: digits

/-- The number with some digits after the point. -/
def fixed (keepPoint : Bool) (places num den : Nat) : List Char :=
  let digits := digitsOf (places + 1) (Binary64.roundHalfEven (num * Nat.pow 10 places) den)
  let whole := digits.length - places
  digits.take whole ++ fraction keepPoint (digits.drop whole)

/-- The leading digits of the number, one more than `places` of them, and the exponent of the first
one. -/
def leading (places num den : Nat) : List Char × Int :=
  if num = 0 then (List.replicate (places + 1) '0', 0)
  else
    let exponent := Binary64.leadingExponent num den
    let shift := (places : Int) - exponent
    let rounded := Binary64.roundHalfEven
      (num * Nat.pow 10 shift.toNat) (den * Nat.pow 10 (-shift).toNat)
    if rounded = Nat.pow 10 (places + 1) then
      (digitsOf (places + 1) (Nat.pow 10 places), exponent + 1)
    else (digitsOf (places + 1) rounded, exponent)

/-- The number with some digits after the leading one, and an exponent. -/
def scientific (keepPoint : Bool) (places num den : Nat) : List Char :=
  let (digits, exponent) := leading places num den
  digits.take 1 ++ fraction keepPoint (digits.drop 1) ++ Binary64.exponentText 'e' exponent

/-- The digits without the zeros at their end. -/
def dropZeros (digits : List Char) : List Char := (digits.reverse.dropWhile (· = '0')).reverse

/-- The number with `count` digits in all, but one at least: without an exponent if the leading
digit is at most four places behind the point and the digits reach it. Zeros at the end of the
fraction are dropped, unless they are to be kept. -/
def general (keepZeros : Bool) (count num den : Nat) : List Char :=
  let count := max count 1
  let (digits, exponent) := leading (count - 1) num den
  let trim (ds : List Char) := if keepZeros then ds else dropZeros ds
  if -4 ≤ exponent ∧ exponent < count then
    if exponent < 0 then
      '0' :: fraction keepZeros (trim (List.replicate (-exponent - 1).toNat '0' ++ digits))
    else
      let whole := exponent.toNat + 1
      digits.take whole ++ fraction keepZeros (trim (digits.drop whole))
  else
    digits.take 1 ++ fraction keepZeros (trim (digits.drop 1)) ++ Binary64.exponentText 'e' exponent

end ScanPlanner.Places
