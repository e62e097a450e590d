import TypedClient.Number.Double
import TypedClient.Text.Basic

/-!
The shortest decimal number that reads back as a given magnitude. Between the neighbours of a
magnitude lies the interval of all numbers that round to it; of the decimal numbers with one digit,
then two, and so on, the first that lies in the interval is taken, and of two the nearer.
-/

namespace TypedClient

/-- The number `digits * 10 ^ exponent`. -/
structure Decimal where
  digits : Nat
  exponent : Int
  deriving DecidableEq, Repr

namespace Double

open Text

/-- Compares `x * 2 ^ binary` with `y * 10 ^ decimal`. -/
def compareScaled (x : Nat) (binary : Int) (y : Nat) (decimal : Int) : Ordering :=
  compare ((x <<< binary.toNat) * tenTo (-decimal).toNat)
    ((y * tenTo decimal.toNat) <<< (-binary).toNat)

/-- Whether the lower neighbour is only half as far away as the upper one. -/
def isPowerOfTwo (x : Double) : Bool :=
  x.mantissa == 1 <<< (mantissaBits - 1) && x.exponent != minExponent

/-- Whether a decimal number rounds to the magnitude. The ends of the interval belong to it if the
mantissa is even. -/
def roundsTo (x : Double) (candidate : Decimal) : Bool :=
  let lower := 4 * x.mantissa - (if x.isPowerOfTwo then 1 else 2)
  let upper := 4 * x.mantissa + 2
  let fromLower := compareScaled lower (x.exponent - 2) candidate.digits candidate.exponent
  let fromUpper := compareScaled upper (x.exponent - 2) candidate.digits candidate.exponent
  if x.mantissa % 2 = 0 then fromLower != .gt && fromUpper != .lt
  else fromLower == .lt && fromUpper == .gt

/-- The `k` for which the magnitude is at least `10 ^ (k - 1)` and less than `10 ^ k`. -/
def magnitude (x : Double) : Int :=
  let (n, d) := x.quotient
  if d ≤ n then (Text.ofNat (n / d)).length else 1 - ((Text.ofNat ((d - 1) / n)).length : Int)

/-- The multiples of `10 ^ exponent` next to the magnitude, the nearer one first, at a tie the even
one. -/
def neighbours (x : Double) (exponent : Int) : List Decimal :=
  let (n, d) := x.quotient
  let numerator := n * tenTo (-exponent).toNat
  let denominator := d * tenTo exponent.toNat
  let floor := numerator / denominator
  if Double.roundQuotient numerator denominator = floor then
    [⟨floor, exponent⟩, ⟨floor + 1, exponent⟩]
  else [⟨floor + 1, exponent⟩, ⟨floor, exponent⟩]

/-- Takes one zero off the end. -/
def withoutZero (x : Decimal) : Decimal :=
  if x.digits % 10 = 0 then ⟨x.digits / 10, x.exponent + 1⟩ else x

/-- Enough digits for every magnitude. -/
def maxDigits : Nat := 17

def shortest (x : Double) : Decimal :=
  let candidates := (List.range maxDigits).flatMap fun n =>
    (x.neighbours (x.magnitude - (n + 1 : Nat))).filter x.roundsTo
  withoutZero (candidates.headD ⟨0, 0⟩)

end Double

namespace Decimal

open Text

/-- The exponents of ten, of the first digit, that are written out without an exponent mark. -/
def plainExponents (exponent : Int) : Bool := -5 ≤ exponent && exponent ≤ 15

def zeros (n : Int) : Text := List.replicate n.toNat '0'

def exponentText (exponent : Int) : Text :=
  (if exponent < 0 then "e-".toList else "e+") ++ Text.ofNat exponent.natAbs

/-- A point after the first digit, if more follow. -/
def withPoint : Text → Text
  | [] => []
  | [digit] => [digit]
  | digit :: rest => digit :: '.' :: rest

/-- A number other than zero: `100.0`, `12.5`, `0.001`, `1.5e+30`. -/
def text (x : Decimal) : Text :=
  let digits := Text.ofNat x.digits
  let first := x.exponent + digits.length - 1
  if !plainExponents first then withPoint digits ++ exponentText first
  else if 0 ≤ x.exponent then digits ++ zeros x.exponent ++ ".0"
  else if 0 ≤ first then
    digits.take (first + 1).toNat ++ "." ++ digits.drop (first + 1).toNat
  else "0." ++ zeros (-first - 1) ++ digits

end Decimal

def Double.text (x : Double) : Text := if x.mantissa = 0 then "0.0" else x.shortest.text

end TypedClient
