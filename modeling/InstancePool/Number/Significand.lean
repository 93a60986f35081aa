import InstancePool.Number.DecimalText

/-!
Numbers as a significand of 64 bits and a power of ten. Only as many digits count as 64 bits hold,
and the float of such a number comes from one or two rounded operations, so it can differ from the
float nearest to the number in its last bits.
-/

namespace InstancePool

/-- `value * 10 ^ exponent`. -/
structure Significand where
  value : UInt64
  exponent : Int
  deriving Repr, DecidableEq

namespace Significand

/-- Reads digits from the left onto `value` while the result fits 64 bits, and returns the digits
that are left. -/
def takeFitting : Nat → List Char → Nat × List Char
  | value, [] => (value, [])
  | value, c :: cs =>
    if value * 10 + DecimalText.digitValue c < 2 ^ 64 then
      takeFitting (value * 10 + DecimalText.digitValue c) cs
    else (value, c :: cs)

/-- The number with the given digits before and after the point, times a power of ten. Digits that
do not fit are dropped; before the point each of them stands for a zero, after it for nothing. -/
def ofDigits (whole places : List Char) (scale : Int) : Significand :=
  let (front, dropped) := takeFitting 0 whole
  let (value, ignored) := takeFitting front places
  ⟨UInt64.ofNat value, scale + dropped.length - (places.length - ignored.length : Nat)⟩

/-- The largest power of ten that is a float. -/
def maxPower : Nat := 308

/-- The float nearest to a power of ten. -/
def power (n : Nat) : Binary64 := Binary64.ofDecimal false 1 n

/-- Multiplies a positive float or zero by a power of ten, or divides it by one. An exponent below
the range of floats takes several divisions; a product beyond that range is refused. -/
def scale (x : Binary64) (exponent : Int) : Option Binary64 :=
  if x.isZero then some x
  else if maxPower < exponent then none
  else if 0 ≤ exponent then
    let y := x.mul (power exponent.toNat)
    if y.isInfinite then none else some y
  else if -maxPower ≤ exponent then some (x.div (power (-exponent).toNat))
  else scale (x.div (power maxPower)) (exponent + maxPower)
termination_by (-exponent).toNat
decreasing_by simp only [maxPower] at *; omega

/-- The float of a number, unless it is too large. -/
def toFloat? (s : Significand) : Option Binary64 :=
  scale (Binary64.ofInt s.value.toNat) s.exponent

end Significand

end InstancePool
