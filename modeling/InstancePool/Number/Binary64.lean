/-!
Binary floating-point numbers of 64 bits, as bits. A finite number is an integer multiple of
2^-1074, its `scaled` magnitude, so reading, printing and adding are exact integer arithmetic
followed by one rounding, `ofQuotient`.
-/

namespace InstancePool

-- A power is that of the core library wherever this is imported, also next to other libraries.
attribute [default_instance 100000] instPowNat
attribute [instance (100000)] instPowNat

/-- A 64-bit float, given by its bits: sign, eleven bits of exponent, 52 bits of fraction. -/
structure Binary64 where
  bits : UInt64
  deriving Repr, DecidableEq, Inhabited

namespace Binary64

/-- The bits without the sign. -/
def magnitude (x : Binary64) : Nat := x.bits.toNat % 2 ^ 63

def negative (x : Binary64) : Bool := 2 ^ 63 ≤ x.bits.toNat

def exponentField (x : Binary64) : Nat := x.magnitude / 2 ^ 52

def fraction (x : Binary64) : Nat := x.magnitude % 2 ^ 52

/-- The magnitude of infinity; every NaN lies above it. -/
def infinityMagnitude : Nat := 0x7FF * 2 ^ 52

def isNaN (x : Binary64) : Bool := infinityMagnitude < x.magnitude

def isInfinite (x : Binary64) : Bool := x.magnitude = infinityMagnitude

def isFinite (x : Binary64) : Bool := x.magnitude < infinityMagnitude

def isZero (x : Binary64) : Bool := x.magnitude = 0

def nan : Binary64 := ⟨0x7FF8000000000000⟩

/-- A number with the given sign and magnitude. -/
def ofSign (negative : Bool) (magnitude : Nat) : Binary64 :=
  ⟨UInt64.ofNat (if negative then 2 ^ 63 + magnitude else magnitude)⟩

/-- The magnitude of a finite number in units of 2^-1074. -/
def scaled (x : Binary64) : Nat :=
  if x.exponentField = 0 then x.fraction
  else (2 ^ 52 + x.fraction) * 2 ^ (x.exponentField - 1)

/-- `num / den` rounded to an integer, a tie to the even one. -/
def roundHalfEven (num den : Nat) : Nat :=
  let q := num / den
  let r := num % den
  if 2 * r < den then q else if den < 2 * r then q + 1 else q + q % 2

/-- The number nearest to `num / den` units of 2^-1074, a tie to the even one. What is too large
becomes infinite. -/
def ofQuotient (negative : Bool) (num den : Nat) : Binary64 :=
  let shift := (num / den).log2 - 52
  let magnitude := shift * 2 ^ 52 + roundHalfEven num (den * 2 ^ shift)
  ofSign negative (min magnitude infinityMagnitude)

/-- The number nearest to an integer. -/
def ofInt (i : Int) : Binary64 := ofQuotient (i < 0) (i.natAbs * 2 ^ 1074) 1

/-- The number nearest to `digits * 10 ^ exponent`. A number of more than 310 digits before the
point is infinite and one of more than 330 zeros after it is zero, so no power is computed then. -/
def ofDecimal (negative : Bool) (digits : Nat) (exponent : Int) : Binary64 :=
  let length : Int := (Nat.toDigits 10 digits).length
  if digits = 0 ∨ exponent + length < -330 then ofSign negative 0
  else if 310 < exponent + length then ofSign negative infinityMagnitude
  else ofQuotient negative (digits * 10 ^ exponent.toNat * 2 ^ 1074) (10 ^ (-exponent).toNat)

/-- The signed value of a finite number in units of 2^-1074. -/
def signedScaled (x : Binary64) : Int := if x.negative then -(x.scaled : Int) else x.scaled

/-- A NaN with its quiet bit set. -/
def quiet (x : Binary64) : Binary64 := ⟨x.bits ||| 0x8000000000000⟩

/-- The sum. A NaN operand passes through, the left one first; opposite infinities have no sum; a
sum that is exactly zero is negative only when both operands are. -/
def add (x y : Binary64) : Binary64 :=
  if x.isNaN then x.quiet
  else if y.isNaN then y.quiet
  else if x.isInfinite then
    if y.isInfinite ∧ x.negative ≠ y.negative then ⟨0xFFF8000000000000⟩ else x
  else if y.isInfinite then y
  else
    let sum := x.signedScaled + y.signedScaled
    if sum = 0 then ofSign (x.negative && y.negative) 0
    else ofQuotient (sum < 0) sum.natAbs 1

/-- The product of two finite numbers. -/
def mul (x y : Binary64) : Binary64 :=
  ofQuotient (x.negative != y.negative) (x.scaled * y.scaled) (2 ^ 1074)

/-- The quotient of two finite numbers, the second of which is not zero. -/
def div (x y : Binary64) : Binary64 :=
  ofQuotient (x.negative != y.negative) (x.scaled * 2 ^ 1074) y.scaled

/-- The same magnitude with the opposite sign. -/
def neg (x : Binary64) : Binary64 := ofSign (!x.negative) x.magnitude

/-- Numerical equality: a NaN equals nothing, and the two zeros are equal. -/
def equal (x y : Binary64) : Bool :=
  !x.isNaN && !y.isNaN && (x.bits = y.bits || x.isZero && y.isZero)

end Binary64

end InstancePool
