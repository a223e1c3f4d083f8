import BranchSieve.Decimal.Shortest
import BranchSieve.Text.Integer

/-!
# Floating point literals

A literal is written with the fewest digits that read back. The notation is positional, with a
digit on either side of the point, as long as the first digit counts a power of ten from `-4` to
`15`; otherwise it is scientific, without a plus sign. A literal is read in either notation with
any number of digits, and the names of infinity and NaN are read in any case. The value is rounded
once, at the width of the format.
-/

namespace BranchSieve

namespace Decimal

/-- Digits with a point behind the first `point` of them. Zeros fill the gap to the point, and
    there is a digit on either side of it. -/
def positional (digits : List Char) (point : Int) : List Char :=
  if point ≤ 0 then '0' :: '.' :: (List.replicate (-point).toNat '0' ++ digits)
  else
    let whole := digits.take point.toNat ++ List.replicate (point.toNat - digits.length) '0'
    let fraction := digits.drop point.toNat
    whole ++ '.' :: (if fraction = [] then ['0'] else fraction)

/-- Digits with a point behind the first of them, unless it is the only one, and the power of ten
    that the first one counts. -/
def scientific (digits : List Char) (power : Int) : List Char :=
  let fraction := digits.drop 1
  digits.take 1 ++ (if fraction = [] then [] else '.' :: fraction) ++
    'e' :: Text.digitsOfInt power

/-- The text of a decimal number. -/
def write (d : Decimal) : List Char :=
  let digits := Nat.toDigits 10 d.digits
  let power := d.exponent + digits.length - 1
  if -4 ≤ power ∧ power < 16 then positional digits (power + 1) else scientific digits power

/-- Does the character end the mantissa? -/
def isPowerMark (c : Char) : Bool := c == 'e' || c == 'E'

/-- The power of ten behind the mantissa: nothing, or an exponent mark and a number. -/
def readPower? : List Char → Option Int
  | [] => some 0
  | _ :: power => Text.signed? power

/-- A decimal number without a sign. There are digits before or after the point, if not both. -/
def read? (text : List Char) : Option Decimal := do
  let mantissa := text.takeWhile (!isPowerMark ·)
  let whole := mantissa.takeWhile (· != '.')
  let fraction := (mantissa.dropWhile (· != '.')).drop 1
  let digits ← Text.natural? (whole ++ fraction)
  let power ← readPower? (text.dropWhile (!isPowerMark ·))
  return ⟨digits, power - fraction.length⟩

end Decimal

namespace BinaryFormat

/-- The pattern of a literal without a sign. -/
def readPattern? (f : BinaryFormat) (text : List Char) : Option Nat :=
  let name := text.map Char.toLower
  if name = ['n', 'a', 'n'] then some f.nan
  else if name = ['i', 'n', 'f'] ∨ name = ['i', 'n', 'f', 'i', 'n', 'i', 't', 'y'] then
    some f.infinity
  else (Decimal.read? text).map f.ofDecimal

/-- The bits of a literal. -/
def read? (f : BinaryFormat) : List Char → Option Nat
  | '-' :: text => (f.readPattern? text).map (f.withSign true)
  | '+' :: text => f.readPattern? text
  | text => f.readPattern? text

/-- The literal of some bits. -/
def write (f : BinaryFormat) (bits : Nat) : List Char :=
  let pattern := f.pattern bits
  if f.infinity < pattern then ['N', 'a', 'N']
  else
    let magnitude :=
      if pattern = f.infinity then ['I', 'n', 'f', 'i', 'n', 'i', 't', 'y']
      else (f.shortest pattern).write
    if f.isNegative bits then '-' :: magnitude else magnitude

end BinaryFormat

end BranchSieve
