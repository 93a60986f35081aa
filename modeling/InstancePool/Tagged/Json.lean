import InstancePool.Number.FloatText
import InstancePool.Number.Significand
import InstancePool.Text.Hex
import InstancePool.Text.Lines

/-!
JSON texts as trees. An integer literal between -2^63 and 2^64 is kept as an integer, every other
number as a float near it, by a rule that the reader is given; a number too large for a float is
refused. A reader may also have a limit for the arrays and objects that stand in one another. The
writer puts no blanks between tokens.
-/

namespace InstancePool

/-- How a reader makes a float of the digits before and after a point and a power of ten. There is
none for a number that is too large. -/
abbrev FloatRule := List Char → List Char → Int → Option Binary64

/-- Only as many digits count as 64 bits hold. -/
def FloatRule.leading : FloatRule := fun whole places scale =>
  (Significand.ofDigits whole places scale).toFloat?

inductive Json where
  | null
  | bool (b : Bool)
  | int (i : Int)
  | real (x : Binary64)
  | str (s : String)
  | arr (items : List Json)
  | obj (members : List (String × Json))
  deriving Repr, Inhabited

namespace Json

/-- Floats are written with the fewest digits that identify them, positionally from 0.00001 to below
10^16, and of two equally near candidates the even one is taken. -/
def floatLayout : FloatLayout where
  plainFrom := -5
  plainBelow := 16
  plusSign := true
  tie := .toEven

/-- One character inside a JSON text: the quote, the backslash and the controls are escaped. -/
def escapeChar (c : Char) : List Char :=
  if c = '"' then ['\\', '"']
  else if c = '\\' then ['\\', '\\']
  else if c = '\x08' then ['\\', 'b']
  else if c = '\x0c' then ['\\', 'f']
  else if c = '\n' then ['\\', 'n']
  else if c = '\r' then ['\\', 'r']
  else if c = '\t' then ['\\', 't']
  else if c.toNat < 0x20 then '\\' :: 'u' :: Text.hexDigits 4 c.toNat
  else [c]

def stringChars (s : String) : List Char := '"' :: s.toList.flatMap escapeChar ++ ['"']

mutual

/-- The text of a tree. -/
def chars : Json → List Char
  | .null => "null".toList
  | .bool b => (toString b).toList
  | .int i => (toString i).toList
  | .real x => if x.isFinite then floatLayout.finiteChars x else "null".toList
  | .str s => stringChars s
  | .arr items => '[' :: itemChars items ++ [']']
  | .obj members => '\x7b' :: memberChars members ++ ['\x7d']

def itemChars : List Json → List Char
  | [] => []
  | [j] => j.chars
  | j :: js => j.chars ++ ',' :: itemChars js

def memberChars : List (String × Json) → List Char
  | [] => []
  | [m] => stringChars m.1 ++ ':' :: m.2.chars
  | m :: ms => stringChars m.1 ++ ':' :: m.2.chars ++ ',' :: memberChars ms

end

def render (j : Json) : String := String.ofList j.chars

def isSpace (c : Char) : Bool := c = ' ' || c = '\n' || c = '\t' || c = '\r'

def skipSpace (s : List Char) : List Char := s.dropWhile isSpace

/-- The number that four hexadecimal digits spell, and what follows them. -/
def hexUnit? : List Char → Option (Nat × List Char)
  | a :: b :: c :: d :: s => (Text.ofHexDigits? [a, b, c, d]).map (·, s)
  | _ => none

/-- The character of a 16-bit unit, or of it and the second half of a surrogate pair after it. -/
def unitChar? (unit : Nat) (s : List Char) : Option (Char × List Char) :=
  if unit < 0xD800 ∨ 0xE000 ≤ unit then some (Char.ofNat unit, s)
  else if unit < 0xDC00 then
    match s with
    | '\\' :: 'u' :: t => do
      let (low, rest) ← hexUnit? t
      if 0xDC00 ≤ low ∧ low < 0xE000 then
        pure (Char.ofNat (0x10000 + (unit - 0xD800) * 0x400 + (low - 0xDC00)), rest)
      else none
    | _ => none
  else none

/-- The character that an escape stands for, given what follows the backslash. -/
def escape? : List Char → Option (Char × List Char)
  | '"' :: s => some ('"', s)
  | '\\' :: s => some ('\\', s)
  | '/' :: s => some ('/', s)
  | 'b' :: s => some ('\x08', s)
  | 'f' :: s => some ('\x0c', s)
  | 'n' :: s => some ('\n', s)
  | 'r' :: s => some ('\r', s)
  | 't' :: s => some ('\t', s)
  | 'u' :: s => do
    let (unit, rest) ← hexUnit? s
    unitChar? unit rest
  | _ => none

/-- Reads a text up to its closing quote; `fuel` bounds the number of characters. -/
def readString : Nat → List Char → Option (List Char × List Char)
  | 0, _ => none
  | _, [] => none
  | fuel + 1, c :: s =>
    if c = '"' then some ([], s)
    else if c = '\\' then do
      let (d, t) ← escape? s
      let (ds, rest) ← readString fuel t
      pure (d :: ds, rest)
    else if c.toNat < 0x20 then none
    else do
      let (ds, rest) ← readString fuel s
      pure (c :: ds, rest)

/-- Whether a number starts with a minus, and what follows it. -/
def splitMinus : List Char → Bool × List Char
  | '-' :: s => (true, s)
  | s => (false, s)

/-- An integer part: a zero, or digits that do not start with one. -/
def isWholePart (digits : List Char) : Bool :=
  digits = ['0'] || digits ≠ [] && digits.head? ≠ some '0'

/-- Reads the digits after a point; there has to be one. -/
def readPlaces : List Char → Option (List Char × List Char)
  | '.' :: s => if s.takeWhile Char.isDigit = [] then none
      else some (s.takeWhile Char.isDigit, s.dropWhile Char.isDigit)
  | s => some ([], s)

/-- Reads an exponent mark, a sign and digits; there has to be a digit. -/
def readScale : List Char → Option (Option Int × List Char)
  | [] => some (none, [])
  | c :: s =>
    if c = 'e' ∨ c = 'E' then
      let (negative, t) := DecimalText.splitSign s
      let digits := t.takeWhile Char.isDigit
      if digits = [] then none
      else
        let n : Int := DecimalText.digitsValue digits
        some (some (if negative then -n else n), t.dropWhile Char.isDigit)
    else some (none, c :: s)

section Reading

variable (rule : FloatRule)

/-- The number of a sign, the digits before and after a point, and an exponent where there is one. -/
def number? (negative : Bool) (whole places : List Char) (scale : Option Int) : Option Json :=
  let n := DecimalText.digitsValue whole
  if isWholePart whole then
    if places = [] ∧ scale = none ∧ (if negative then 0 < n ∧ n ≤ 2 ^ 63 else n < 2 ^ 64) then
      some (.int (if negative then -(n : Int) else n))
    else (rule whole places (scale.getD 0)).map fun x => .real (if negative then x.neg else x)
  else none

/-- Reads a number. -/
def readNumber (s : List Char) : Option (Json × List Char) := do
  let (negative, body) := splitMinus s
  let (places, t) ← readPlaces (body.dropWhile Char.isDigit)
  let (scale, rest) ← readScale t
  (number? rule negative (body.takeWhile Char.isDigit) places scale).map (·, rest)

/-- Takes a fixed word off the front of a text. -/
def dropWord? : (word s : List Char) → Option (List Char)
  | [], s => some s
  | w :: ws, c :: s => if w = c then dropWord? ws s else none
  | _ :: _, [] => none

/-- What is left of a limit inside one more layer. The limit is counted down, and the layer at which it
comes to zero is refused; a reader without a limit refuses none. -/
def inner? : Option Nat → Option (Option Nat)
  | none => some none
  | some n => if 1 < n then some (some (n - 1)) else none

mutual

/-- Reads a tree within a limit for layers; `fuel` bounds the number of steps. -/
def readJson : Option Nat → Nat → List Char → Option (Json × List Char)
  | _, 0, _ => none
  | limit, fuel + 1, s =>
    match skipSpace s with
    | [] => none
    | 'n' :: t => (dropWord? "ull".toList t).map fun r => (.null, r)
    | 't' :: t => (dropWord? "rue".toList t).map fun r => (.bool true, r)
    | 'f' :: t => (dropWord? "alse".toList t).map fun r => (.bool false, r)
    | '"' :: t => (readString fuel t).map fun r => (.str (String.ofList r.1), r.2)
    | '[' :: t => (inner? limit).bind fun limit =>
      match skipSpace t with
      | ']' :: u => some (.arr [], u)
      | u => (readItems limit fuel u).map fun r => (.arr r.1, r.2)
    | '\x7b' :: t => (inner? limit).bind fun limit =>
      match skipSpace t with
      | '\x7d' :: u => some (.obj [], u)
      | u => (readMembers limit fuel u).map fun r => (.obj r.1, r.2)
    | t => readNumber rule t

/-- Reads one or more items and the bracket after them. -/
def readItems : Option Nat → Nat → List Char → Option (List Json × List Char)
  | _, 0, _ => none
  | limit, fuel + 1, s => do
    let (item, t) ← readJson limit fuel s
    match skipSpace t with
    | ',' :: u =>
      let (items, rest) ← readItems limit fuel u
      pure (item :: items, rest)
    | ']' :: rest => pure ([item], rest)
    | _ => none

/-- Reads one or more members and the brace after them. -/
def readMembers : Option Nat → Nat → List Char → Option (List (String × Json) × List Char)
  | _, 0, _ => none
  | limit, fuel + 1, s =>
    match skipSpace s with
    | '"' :: s => do
      let (name, t) ← readString fuel s
      match skipSpace t with
      | ':' :: u => do
        let (tree, v) ← readJson limit fuel u
        match skipSpace v with
        | ',' :: w =>
          let (members, rest) ← readMembers limit fuel w
          pure ((String.ofList name, tree) :: members, rest)
        | '\x7d' :: rest => pure ([(String.ofList name, tree)], rest)
        | _ => none
      | _ => none
    | _ => none

end

end Reading

/-- Reads a text that is exactly one tree. -/
def parse? (s : String) (rule : FloatRule := FloatRule.leading) (limit : Option Nat := none) :
    Option Json := do
  let (tree, rest) ← readJson rule limit (2 * s.length + 2) s.toList
  if skipSpace rest = [] then pure tree else none

end Json

end InstancePool
