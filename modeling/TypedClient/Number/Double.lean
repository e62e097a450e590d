/-!
Magnitudes of double precision: numbers `mantissa * 2 ^ exponent` whose mantissa takes 53 bits.
Every operation rounds its exact result once, to the nearest magnitude and at a tie to the even one.
-/

namespace TypedClient

structure Double where
  mantissa : Nat
  exponent : Int
  deriving DecidableEq, Repr

namespace Double

/-- The least exponent. -/
def minExponent : Int := -1074

/-- The greatest exponent. -/
def maxExponent : Int := 971

def mantissaBits : Nat := 53

def zero : Double := ⟨0, minExponent⟩

/-- A quotient of natural numbers rounded to the nearest, at a tie to the even one. -/
def roundQuotient (numerator denominator : Nat) : Nat :=
  let floor := numerator / denominator
  let twice := 2 * (numerator % denominator)
  if twice < denominator ∨ (twice = denominator ∧ floor % 2 = 0) then floor else floor + 1

/-- Numerator and denominator of a quotient divided by a power of two. -/
def scaled (numerator denominator : Nat) (exponent : Int) : Nat × Nat :=
  (numerator <<< (-exponent).toNat, denominator <<< exponent.toNat)

/-- The exponent at which the mantissa of a quotient takes 53 bits, if it is not too small. -/
def exponentFor (numerator denominator : Nat) : Int :=
  let estimate : Int := (numerator.log2 : Int) - denominator.log2 - (mantissaBits - 1 : Nat)
  let (n, d) := scaled numerator denominator estimate
  max minExponent (if n / d < 1 <<< (mantissaBits - 1) then estimate - 1 else estimate)

/-- The magnitude nearest to a quotient. -/
def ofQuotient (numerator denominator : Nat) : Double :=
  if numerator = 0 then zero
  else
    let exponent := exponentFor numerator denominator
    let (n, d) := scaled numerator denominator exponent
    let mantissa := roundQuotient n d
    if mantissa = 1 <<< mantissaBits then ⟨1 <<< (mantissaBits - 1), exponent + 1⟩
    else ⟨mantissa, exponent⟩

def ofNat (n : Nat) : Double := ofQuotient n 1

/-- Numerator and denominator of a magnitude. -/
def quotient (x : Double) : Nat × Nat :=
  (x.mantissa <<< x.exponent.toNat, 1 <<< (-x.exponent).toNat)

def mul (x y : Double) : Double :=
  ofQuotient (x.quotient.1 * y.quotient.1) (x.quotient.2 * y.quotient.2)

def div (x y : Double) : Double :=
  ofQuotient (x.quotient.1 * y.quotient.2) (x.quotient.2 * y.quotient.1)

/-- Whether a result of rounding is within range. -/
def isFinite (x : Double) : Bool := x.exponent ≤ maxExponent

/-- The greatest power of ten that is taken in one step. -/
def maxPower : Nat := 308

def tenTo : Nat → Nat := Nat.pow 10

def powerOfTen (n : Nat) : Double := ofNat (tenTo n)

/-- Divides by ten `n` times, at most 308 powers to a step. -/
def shiftDown (x : Double) (n : Nat) : Double :=
  if n ≤ maxPower then x.div (powerOfTen n)
  else if x.mantissa = 0 then x
  else (x.div (powerOfTen maxPower)).shiftDown (n - maxPower)
termination_by n
decreasing_by
  simp only [maxPower] at *
  omega

/-- Multiplies by a power of ten; nothing if the result is out of range. -/
def shift? (x : Double) (exponent : Int) : Option Double :=
  if exponent < 0 then some (x.shiftDown exponent.natAbs)
  else if exponent.natAbs ≤ maxPower then
    let product := x.mul (powerOfTen exponent.natAbs)
    if product.isFinite then some product else none
  else if x.mantissa = 0 then some x
  else none

end Double

end TypedClient
