import InstancePool.Text.Printable
import InstancePool.Text.ExtendingMark

/-!
Quoted text. Between the quotes a character stands for itself when it is printable and does not
join its neighbour; the quote mark, the backslash and a few controls have a letter of their own,
and everything else is written by its code point.
-/

namespace InstancePool.Text

/-- The code point of `c` in lower-case hexadecimal, between braces after a backslash and `u`. -/
def codePointEscape (c : Char) : List Char :=
  ['\\', 'u', '\x7b'] ++ Nat.toDigits 16 c.toNat ++ ['\x7d']

/-- One character as it is written between two `mark`s. -/
def escapeChar (mark c : Char) : List Char :=
  if c = '\x00' then ['\\', '0']
  else if c = '\t' then ['\\', 't']
  else if c = '\r' then ['\\', 'r']
  else if c = '\n' then ['\\', 'n']
  else if c = '\\' ∨ c = mark then ['\\', c]
  else if isExtendingMark c || !isPrintable c then codePointEscape c
  else [c]

/-- A text between double quotes. -/
def quoteChars (s : List Char) : List Char :=
  '"' :: s.flatMap (escapeChar '"') ++ ['"']

def quoted (s : String) : String := String.ofList (quoteChars s.toList)

/-- A character between single quotes. -/
def quotedChar (c : Char) : String := String.ofList ('\'' :: escapeChar '\'' c ++ ['\''])

end InstancePool.Text
