/-!
Hexadecimal text: bytes as pairs of lower-case digits, most significant digit first.
-/

namespace InstancePool.Text

/-- The digit for a number below sixteen. -/
def hexDigit (n : Nat) : Char := Nat.digitChar (n % 16)

/-- The last `width` digits of a number. -/
def hexDigits : (width n : Nat) → List Char
  | 0, _ => []
  | width + 1, n => hexDigits width (n / 16) ++ [hexDigit n]

/-- The text of some bytes. -/
def hex (bytes : List UInt8) : String :=
  String.ofList (bytes.flatMap fun b => hexDigits 2 b.toNat)

/-- The number for a digit of either case. -/
def hexValue? (c : Char) : Option Nat :=
  if '0' ≤ c ∧ c ≤ '9' then some (c.toNat - '0'.toNat)
  else if 'a' ≤ c ∧ c ≤ 'f' then some (c.toNat - 'a'.toNat + 10)
  else if 'A' ≤ c ∧ c ≤ 'F' then some (c.toNat - 'A'.toNat + 10)
  else none

/-- The number that some digits write. -/
def ofHexDigits? (digits : List Char) : Option Nat :=
  (digits.mapM hexValue?).map fun ds => ds.foldl (fun n d => 16 * n + d) 0

/-- The bytes of a text of pairs of digits. -/
def unhex? : List Char → Option (List UInt8)
  | [] => some []
  | [_] => none
  | a :: b :: rest => do
    let n ← ofHexDigits? [a, b]
    let bytes ← unhex? rest
    pure (UInt8.ofNat n :: bytes)

end InstancePool.Text
