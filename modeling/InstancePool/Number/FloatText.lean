import InstancePool.Number.Shortest

/-!
Decimal texts of floats: the shortest digits that read back, laid out positionally for exponents
within bounds and otherwise with one digit before the point and an exponent.
-/

namespace InstancePool

/-- The decisions that distinguish one text of a float from another. -/
structure FloatLayout where
  /-- The least exponent of the leading digit that is written positionally. -/
  plainFrom : Int
  /-- The least exponent of the leading digit that is too large to be written positionally. -/
  plainBelow : Int
  /-- A plus sign stands before an exponent that has no minus sign. -/
  plusSign : Bool
  tie : Tie
  deriving Repr, DecidableEq

namespace FloatLayout

/-- The digits of a decimal written with a point and at least one digit on each side of it. -/
def plain (digits : List Char) (exponent : Int) : List Char :=
  let places := (-exponent).toNat
  if places = 0 then digits ++ List.replicate exponent.toNat '0' ++ ['.', '0']
  else if digits.length ≤ places then
    '0' :: '.' :: List.replicate (places - digits.length) '0' ++ digits
  else digits.take (digits.length - places) ++ '.' :: digits.drop (digits.length - places)

/-- The text of an exponent. -/
def exponentChars (l : FloatLayout) (lead : Int) : List Char :=
  if l.plusSign ∧ 0 ≤ lead then '+' :: (toString lead).toList else (toString lead).toList

/-- The digits of a decimal with a point after the first of several, and its exponent. -/
def scientific (l : FloatLayout) (digits : List Char) (lead : Int) : List Char :=
  (match digits with
    | [] => []
    | [d] => [d]
    | d :: ds => d :: '.' :: ds) ++ 'e' :: l.exponentChars lead

/-- The text of the magnitude of a finite float. -/
def magnitudeChars (l : FloatLayout) (x : Binary64) : List Char :=
  if x.isZero then ['0', '.', '0']
  else
    let d := x.shortest l.tie
    let digits := Nat.toDigits 10 d.digits
    let lead := d.exponent + digits.length - 1
    if l.plainFrom ≤ lead ∧ lead < l.plainBelow then plain digits d.exponent
    else l.scientific digits lead

/-- The text of a finite float. -/
def finiteChars (l : FloatLayout) (x : Binary64) : List Char :=
  if x.negative then '-' :: l.magnitudeChars x else l.magnitudeChars x

end FloatLayout

end InstancePool
