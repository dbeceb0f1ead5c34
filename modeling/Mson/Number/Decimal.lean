import Mson.Number.Double

/-!
# Shortest decimals

The decimal text of a binary64 number. `shortest` takes the fewest digits that read back as the same
number and, among those, the decimal nearest to it; whether a candidate reads back is asked of
`Double.ofDecimal` itself. `DecimalLayout` says how the digits are then written.
-/
namespace Mson

/-- The decimal `digits * 10 ^ exponent`. -/
structure Decimal where
  digits : Nat
  exponent : Int
  deriving DecidableEq, Repr

namespace Decimal

/-- Drops zeros at the end of the digits, `limit` of them at most. -/
def trim (limit : Nat) (value : Decimal) : Decimal :=
  match limit with
  | 0 => value
  | limit + 1 =>
      if value.digits ≠ 0 ∧ value.digits % 10 = 0 then
        trim limit ⟨value.digits / 10, value.exponent + 1⟩
      else value

end Decimal

namespace Double

/-- A power of ten as a fraction, numerator first. -/
def powerOfTen (exponent : Int) : Nat × Nat :=
  if 0 ≤ exponent then (powerOf 10 exponent.toNat, 1) else (1, powerOf 10 (-exponent).toNat)

/-- The greatest `p` with `10 ^ p ≤ units / 2 ^ 1074`, found from the binary logarithm, which
misses it by one at most. -/
def decimalExponent (units : Nat) : Int :=
  let estimate : Int := (((units.log2 : Int) - unitExponent) * 30103).fdiv 100000
  let reaches (exponent : Int) : Bool :=
    let power := powerOfTen exponent
    power.1 * powerOf 2 unitExponent ≤ units * power.2
  if reaches (estimate + 1) then estimate + 1
  else if reaches estimate then estimate
  else estimate - 1

/-- The decimals next to a magnitude on the grid `10 ^ exponent`, the nearest first; of two equally
near ones the even comes first. -/
def gridNeighbours (units : Nat) (exponent : Int) : List Decimal :=
  let power := powerOfTen exponent
  let numerator := units * power.2
  let denominator := power.1 * powerOf 2 unitExponent
  let below := numerator / denominator
  let nearest := roundQuotient numerator denominator
  [⟨nearest, exponent⟩, ⟨if nearest = below then below + 1 else below, exponent⟩]

/-- The first decimal that reads back, over grids of one digit more each time. -/
def firstReadingBack (number : Double) (units : Nat) (leading : Int) (grids : Nat) :
    Option Decimal :=
  (List.range grids).findSome? fun (place : Nat) =>
    (gridNeighbours units (leading - place)).find? fun c =>
      ofDecimal number.isNegative c.digits c.exponent = number

/-- The exact magnitude as a decimal; reached only by numbers that no short decimal denotes. -/
def exactDecimal (units : Nat) : Decimal :=
  ⟨units * powerOf 5 unitExponent, -unitExponent⟩

/-- The magnitude of a finite number as the shortest decimal that reads back. Seventeen digits
always do. -/
def shortest? (number : Double) : Option Decimal :=
  match number.units? with
  | none => none
  | some value =>
      let units := value.natAbs
      if units = 0 then some ⟨0, 0⟩
      else
        let found := firstReadingBack number units (decimalExponent units) 17
        let decimal := found.getD (exactDecimal units)
        some (decimal.trim (decimal.digits.log2 + 1))

end Double

/-- How a decimal is written. -/
structure DecimalLayout where
  /-- Leading digits whose power of ten is at least this and below `positionalEnd` are written
  positionally. -/
  positionalStart : Int
  positionalEnd : Int
  /-- Whole numbers end in `.0`. -/
  keepsPoint : Bool
  /-- The least number of digits of an exponent. -/
  exponentWidth : Nat
  /-- The texts of the numbers that have no digits. -/
  nan : String
  infinity : String
  deriving DecidableEq, Repr

namespace DecimalLayout

def padLeft (width : Nat) (digits : List Char) : List Char :=
  List.replicate (width - digits.length) '0' ++ digits

/-- One digit, the point if more follow, and the power of ten of the first digit. -/
def scientific (layout : DecimalLayout) (digits : List Char) (power : Int) : List Char :=
  let mantissa := match digits with
    | first :: second :: rest => first :: '.' :: second :: rest
    | short => short
  let sign := if power < 0 then '-' else '+'
  mantissa ++ 'e' :: sign :: padLeft layout.exponentWidth (toString power.natAbs).toList

def positional (layout : DecimalLayout) (digits : List Char) (power : Int) : List Char :=
  if power < 0 then '0' :: '.' :: List.replicate (power.natAbs - 1) '0' ++ digits
  else
    let whole := power.toNat + 1
    let front := digits.take whole ++ List.replicate (whole - digits.length) '0'
    match digits.drop whole with
    | [] => if layout.keepsPoint then front ++ ['.', '0'] else front
    | fraction => front ++ '.' :: fraction

def magnitude (layout : DecimalLayout) (value : Decimal) : List Char :=
  let digits := (toString value.digits).toList
  let power := value.exponent + digits.length - 1
  if value.digits = 0 then layout.positional ['0'] 0
  else if layout.positionalStart ≤ power ∧ power < layout.positionalEnd then
    layout.positional digits power
  else layout.scientific digits power

end DecimalLayout

/-- The text of a number in a layout. -/
def Double.toText (layout : DecimalLayout) (number : Double) : String :=
  let sign := if number.isNegative then "-" else ""
  match number.shortest? with
  | some value => sign ++ String.ofList (layout.magnitude value)
  | none => if number = .nan then layout.nan else sign ++ layout.infinity

end Mson
