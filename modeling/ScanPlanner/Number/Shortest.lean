import ScanPlanner.Number.Binary64

/-!
# The shortest decimal of a number

The text of a floating-point number has the fewest digits that read back as the number, and of those
decimals the nearest. Numbers from `10 ^ -4` up to `10 ^ 16` are written with a point, the others
with an exponent.
-/

namespace ScanPlanner.Binary64

/-- The exponent of the leading decimal digit of `num / den`, for positive numbers. -/
def leadingExponent (num den : Nat) : Int :=
  if den ≤ num then (digitCount (num / den) : Int) - 1
  else
    let count := digitCount (den / num)
    if den ≤ num * Nat.pow 10 (count - 1) then -((count : Int) - 1) else -(count : Int)

/-- A decimal number `digits * 10 ^ exponent`. -/
structure Decimal where
  digits : Nat
  exponent : Int
deriving DecidableEq, Repr

/-- The numbers that read as a given one lie between two bounds: `low / den` and `high / den`, which
belong to them if `closed`. -/
structure Basin where
  low : Nat
  value : Nat
  high : Nat
  den : Nat
  closed : Bool

/-- The basin of `mantissa * 2 ^ exponent`. Below a power of two the next number is half as far. -/
def basin (mantissa : Nat) (exponent : Int) : Basin :=
  let scale := Nat.pow 2 (exponent - 2).toNat
  let below := if mantissa = leastMantissa ∧ exponent > minExponent then 1 else 2
  { low := (4 * mantissa - below) * scale
    value := 4 * mantissa * scale
    high := (4 * mantissa + 2) * scale
    den := Nat.pow 2 (2 - exponent).toNat
    closed := mantissa % 2 = 0 }

/-- The decimal nearest to the value among its two neighbours on the grid `10 ^ unit`, of those that
lie in the basin; an exact tie goes to the even one. -/
def Basin.neighbour? (b : Basin) (unit : Int) : Option Decimal :=
  let up := Nat.pow 10 (-unit).toNat
  let down := b.den * Nat.pow 10 unit.toNat
  let inside (c : Nat) : Bool :=
    if b.closed then b.low * up ≤ c * down && c * down ≤ b.high * up
    else b.low * up < c * down && c * down < b.high * up
  let floor := b.value * up / down
  match inside floor, inside (floor + 1) with
  | true, true => some ⟨roundHalfEven (b.value * up) down, unit⟩
  | true, false => some ⟨floor, unit⟩
  | false, true => some ⟨floor + 1, unit⟩
  | false, false => none

/-- The first grid, from one digit on, that has a decimal in the basin. Seventeen digits always
suffice. -/
def shortest (mantissa : Nat) (exponent : Int) : Decimal :=
  let b := basin mantissa exponent
  let lead := leadingExponent b.value b.den
  ((List.range 17).findSome? fun (n : Nat) => b.neighbour? (lead - n)).getD ⟨mantissa, exponent⟩

/-- The digits of a decimal without the zeros at their end, with the exponent of the first one. -/
def Decimal.leading (d : Decimal) : List Char × Int :=
  let digits := Nat.toDigits 10 d.digits
  let exponent := d.exponent + digits.length - 1
  let kept := (digits.reverse.dropWhile (· = '0')).reverse
  (if kept.isEmpty then ['0'] else kept, exponent)

/-- The exponent of a number with a sign and two digits at least. -/
def exponentText (mark : Char) (exponent : Int) : List Char :=
  let digits := Nat.toDigits 10 exponent.natAbs
  mark :: (if exponent < 0 then '-' else '+') ::
    (List.replicate (2 - digits.length) '0' ++ digits)

/-- The digits with the point after the one of exponent zero; a whole number gets one zero more. -/
def positional (digits : List Char) (exponent : Int) : List Char :=
  if exponent < 0 then '0' :: '.' :: (List.replicate (-exponent - 1).toNat '0' ++ digits)
  else
    let whole := exponent.toNat + 1
    let fraction := digits.drop whole
    digits.take whole ++ List.replicate (whole - digits.length) '0' ++
      '.' :: (if fraction.isEmpty then ['0'] else fraction)

/-- The digits with the point after the first one, and the exponent. -/
def scientific (digits : List Char) (exponent : Int) : List Char :=
  (match digits with
    | first :: second :: rest => first :: '.' :: second :: rest
    | digits => digits) ++ exponentText 'e' exponent

/-- The text of a number. -/
def text : Binary64 → String
  | .nan => "nan"
  | .infinite negative => if negative then "-inf" else "inf"
  | .finite negative mantissa exponent =>
    let body :=
      if mantissa = 0 then ['0', '.', '0']
      else
        let (digits, lead) := (shortest mantissa exponent).leading
        if -4 ≤ lead ∧ lead < 16 then positional digits lead else scientific digits lead
    String.ofList (if negative then '-' :: body else body)

end ScanPlanner.Binary64
