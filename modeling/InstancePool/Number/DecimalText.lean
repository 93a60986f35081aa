import InstancePool.Number.Binary64

/-!
Reading numbers: signed decimal integers of 64 bits, and decimal fractions with an exponent.
-/

namespace InstancePool

/-- Why a text is not an integer. -/
inductive IntTextError where
  | empty
  | invalidDigit
  | tooLarge
  | tooSmall
  deriving Repr, DecidableEq

def IntTextError.message : IntTextError → String
  | .empty => "cannot parse integer from empty string"
  | .invalidDigit => "invalid digit found in string"
  | .tooLarge => "number too large to fit in target type"
  | .tooSmall => "number too small to fit in target type"

/-- Why a text is not a float. -/
inductive FloatTextError where
  | empty
  | invalid
  deriving Repr, DecidableEq

def FloatTextError.message : FloatTextError → String
  | .empty => "cannot parse float from empty string"
  | .invalid => "invalid float literal"

namespace DecimalText

/-- The value of an ASCII digit. -/
def digitValue (c : Char) : Nat := c.toNat - '0'.toNat

/-- Reads digits from the left onto `value`, up to the first character that is no digit or takes
the value beyond `limit`. -/
def readBounded (limit : Nat) (overflow : IntTextError) : Nat → List Char → Except IntTextError Nat
  | value, [] => .ok value
  | value, c :: cs =>
    if !c.isDigit then .error .invalidDigit
    else if limit < value * 10 + digitValue c then .error overflow
    else readBounded limit overflow (value * 10 + digitValue c) cs

/-- A non-empty run of digits, within a limit. -/
def readMagnitude (limit : Nat) (overflow : IntTextError) (cs : List Char) :
    Except IntTextError Nat :=
  if cs = [] then .error .invalidDigit else readBounded limit overflow 0 cs

/-- Reads an optional sign and decimal digits that fit 64 bits. -/
def readInt64 : List Char → Except IntTextError Int64
  | [] => .error .empty
  | '-' :: cs => (readMagnitude (2 ^ 63) .tooSmall cs).map fun n => Int64.ofInt (-(n : Int))
  | '+' :: cs => (readMagnitude (2 ^ 63 - 1) .tooLarge cs).map fun n => Int64.ofInt n
  | cs => (readMagnitude (2 ^ 63 - 1) .tooLarge cs).map fun n => Int64.ofInt n

/-- The number that a run of digits spells. -/
def digitsValue (cs : List Char) : Nat := cs.foldl (fun n c => n * 10 + digitValue c) 0

/-- An optional sign: whether it is a minus, and what follows. -/
def splitSign : List Char → Bool × List Char
  | '-' :: cs => (true, cs)
  | '+' :: cs => (false, cs)
  | cs => (false, cs)

/-- The exponent after a mantissa: nothing, or a mark and a signed run of digits up to the end. -/
def readExponent : List Char → Option Int
  | [] => some 0
  | c :: cs =>
    if c = 'e' ∨ c = 'E' then
      let (negative, digits) := splitSign cs
      if digits ≠ [] ∧ digits.all Char.isDigit then
        some (if negative then -(digitsValue digits : Int) else digitsValue digits)
      else none
    else none

/-- The digits after a point, if there is one, and what follows them. -/
def splitFraction : List Char → List Char × List Char
  | '.' :: cs => (cs.takeWhile Char.isDigit, cs.dropWhile Char.isDigit)
  | cs => ([], cs)

/-- Reads a decimal number with an optional sign, fraction and exponent and at least one digit
before the exponent. The names of infinities and NaN are not read here. -/
def readFloat (text : List Char) : Except FloatTextError Binary64 :=
  if text = [] then .error .empty
  else
    let (negative, body) := splitSign text
    let whole := body.takeWhile Char.isDigit
    let (places, rest) := splitFraction (body.dropWhile Char.isDigit)
    match readExponent rest with
    | some exponent =>
      if whole = [] ∧ places = [] then .error .invalid
      else
        .ok (Binary64.ofDecimal negative (digitsValue (whole ++ places)) (exponent - places.length))
    | none => .error .invalid

end DecimalText

end InstancePool
