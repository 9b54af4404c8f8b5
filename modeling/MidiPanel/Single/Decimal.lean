import MidiPanel.Single.Arithmetic

/-!
# Singles as decimal text

Reading: an optional sign, digits with at most one point among them, and an optional exponent. The
number is first rounded to double precision and the double then to single precision, so a text
whose double overflows has no value, while a double past the greatest single is infinite.

Writing: the fewest significant digits that read back as the same single, and among those the
digits nearest to it. The point is placed among the digits as long as the number is neither too
small nor too large, and a whole number ends in `.0`; otherwise an exponent follows.
-/

namespace MidiPanel

open Rounding

/-- The number `± digits * 10 ^ exponent`. -/
structure Decimal where
  negative : Bool
  digits : Nat
  exponent : Int
  deriving DecidableEq

/-- The value of a run of decimal digits. -/
def Decimal.digitsValue (cs : List Char) : Nat :=
  cs.foldl (fun n c => 10 * n + (c.toNat - '0'.toNat)) 0

namespace Decimal

/-- Splits a leading sign off; tells whether it was a minus. -/
def splitSign : List Char → Bool × List Char
  | '-' :: rest => (true, rest)
  | '+' :: rest => (false, rest)
  | rest => (false, rest)

/-- An exponent mark with a signed whole number, or nothing. -/
def readExponent? : List Char → Option Int
  | [] => some 0
  | mark :: rest =>
    let (negative, ds) := splitSign rest
    if (mark = 'e' ∨ mark = 'E') ∧ ds ≠ [] ∧ ds.all Char.isDigit then
      some (if negative then -(digitsValue ds) else digitsValue ds)
    else none

/-- Reads a decimal: sign, digits with an optional point, optional exponent. -/
def read? (text : List Char) : Option Decimal :=
  let (negative, body) := splitSign text
  let (whole, rest) := body.span Char.isDigit
  let (fraction, rest) := match rest with
    | '.' :: rest => rest.span Char.isDigit
    | rest => ([], rest)
  if whole = [] ∧ fraction = [] then none
  else (readExponent? rest).map fun exponent =>
    ⟨negative, digitsValue (whole ++ fraction), exponent - fraction.length⟩

/-- The number of decimal digits of a natural number. -/
def width (n : Nat) : Nat := (Nat.toDigits 10 n).length

/-- The magnitude as a ratio. -/
def ratio (d : Decimal) : Nat × Nat :=
  if 0 ≤ d.exponent then (d.digits * Nat.pow 10 d.exponent.toNat, 1)
  else (d.digits, Nat.pow 10 (-d.exponent).toNat)

/-- The number of units of `2 ^ -1074`, the smallest positive double, in one. -/
def doubleUnitsPerOne : Nat := 1 <<< 1074

/-- The magnitude rounded to double precision, in units of `2 ^ -1074`; `none` if it overflows.
Numbers far out of the range of doubles are settled by their size alone. -/
def doubleUnits? (d : Decimal) : Option Nat :=
  let size := d.exponent + width d.digits
  if d.digits = 0 ∨ size < -330 then some 0
  else if 310 < size then none
  else
    let (num, den) := d.ratio
    let units := toPrecision 53 (num * doubleUnitsPerOne) den
    if units < doubleUnitsPerOne <<< 1024 then some units else none

/-- The single of a decimal, by way of the double nearest to it. -/
def toSingle? (d : Decimal) : Option Single :=
  d.doubleUnits?.map fun units => Single.ofUnits d.negative units (1 <<< (1074 - 149))

end Decimal

namespace Single

/-! ## Shortest digits -/

/-- The real numbers that round to a magnitude, in quarters of a unit; whether the ends belong to
them, which is so for an even last bit. -/
structure Neighbourhood where
  low : Nat
  high : Nat
  closed : Bool

/-- Everything up to half the distance to the magnitudes next to `units`. Below the least magnitude
of a binade that distance is half as long. -/
def neighbourhood (units : Nat) : Neighbourhood :=
  let k := units.log2 - 23
  let step := 1 <<< k
  let stepBelow := if units = step <<< 23 ∧ 0 < k then step / 2 else step
  ⟨4 * units - 2 * stepBelow, 4 * units + 2 * step, units / step % 2 = 0⟩

/-- The decimal lies in the neighbourhood. -/
def Neighbourhood.holds (area : Neighbourhood) (d : Decimal) : Bool :=
  let (num, den) := d.ratio
  let quarters := 4 * num * unitsPerOne
  if area.closed then area.low * den ≤ quarters && quarters ≤ area.high * den
  else area.low * den < quarters && quarters < area.high * den

/-- The exponent `p` for which the magnitude lies from `10 ^ (p - 1)` up to `10 ^ p`. -/
def decimalPoint (units : Nat) : Int :=
  (Decimal.width (units * Nat.pow 10 50 / unitsPerOne) : Int) - 50

/-- The decimal of `count` significant digits next to the magnitude on either side, if it reads
back: the nearer one if both do, the one with the even last digit if they are equally near. -/
def withDigits? (units count : Nat) : Option Decimal :=
  let exponent := decimalPoint units - count
  let (num, den) := if 0 ≤ exponent then (units, unitsPerOne * Nat.pow 10 exponent.toNat)
    else (units * Nat.pow 10 (-exponent).toNat, unitsPerOne)
  let area := neighbourhood units
  let below : Decimal := ⟨false, num / den, exponent⟩
  let above : Decimal := ⟨false, num / den + 1, exponent⟩
  match area.holds below, area.holds above with
  | true, true => some ⟨false, nearest num den, exponent⟩
  | true, false => some below
  | false, true => some above
  | false, false => none

/-- The shortest decimal that reads back; nine digits always do. -/
def shortest (units : Nat) : Decimal :=
  ((List.range' 1 9).findSome? (withDigits? units)).getD ⟨false, 0, 0⟩

/-! ## Layout -/

/-- The digits without the zeros at the end, and the power of ten of the last one kept. -/
def trimZeros (exponent : Int) (digits : List Char) : List Char × Int :=
  let kept := (digits.reverse.dropWhile (· == '0')).reverse
  (kept, exponent + (digits.length - kept.length : Nat))

/-- Digits with the point after the first `point` of them; the point stands among the digits for
`-6 < point ≤ 13`. -/
def layout (digits : List Char) (exponent : Int) : List Char :=
  let point := exponent + digits.length
  let zeros (n : Int) : List Char := List.replicate n.toNat '0'
  if 0 ≤ exponent ∧ point ≤ 13 then digits ++ zeros exponent ++ ['.', '0']
  else if 0 < point ∧ point ≤ 13 then
    digits.take point.toNat ++ '.' :: digits.drop point.toNat
  else if -6 < point ∧ point ≤ 0 then '0' :: '.' :: zeros (-point) ++ digits
  else
    let power := 'e' :: (toString (point - 1)).toList
    match digits with
    | first :: second :: rest => first :: '.' :: second :: rest ++ power
    | short => short ++ power

/-- The text of a finite magnitude. -/
def magnitudeText (units : Nat) : List Char :=
  if units = 0 then ['0', '.', '0']
  else
    let d := shortest units
    let (digits, exponent) := trimZeros d.exponent (Nat.toDigits 10 d.digits)
    layout digits exponent

end Single
end MidiPanel
