import InstancePool.Value.Basic
import InstancePool.Text.Alphabetic
import InstancePool.Text.Numeric
import InstancePool.Text.Lines
import InstancePool.Text.Quoted
import InstancePool.Number.DecimalText

/-!
Literals: `None`, `True`, `False`, integers, floats, texts in single or double quotes with
backslash escapes, and lists of those in brackets. Every reader takes the remaining characters and
returns what it did not use.
-/

namespace InstancePool.Literal

/-- Why a text is not a literal. -/
inductive Error where
  /-- A character that starts nothing, and the number of bytes before it. -/
  | unexpected (c : Char) (offset : Nat)
  | unknownName (word : String)
  | endOfInput
  | notAnInteger (text : String) (cause : IntTextError)
  | notAFloat (text : String) (cause : FloatTextError)
  | openString
  | badSeparator (c : Char)
  | openList
  deriving Repr, DecidableEq

def Error.message : Error → String
  | .unexpected c offset =>
    "unexpected " ++ Text.quotedChar c ++ " at offset " ++ toString offset
  | .unknownName word => "name " ++ Text.quoted word ++ " is not defined"
  | .endOfInput => "unexpected end of input"
  | .notAnInteger text cause => Text.quoted text ++ ": " ++ cause.message
  | .notAFloat text cause => Text.quoted text ++ ": " ++ cause.message
  | .openString => "unterminated string"
  | .badSeparator c => "expected ',' or ']', found " ++ Text.quotedChar c
  | .openList => "unterminated list"

def isAlphanumeric (c : Char) : Bool := Text.isAlphabetic c || Text.isNumeric c

def isAsciiAlphanumeric (c : Char) : Bool := c.isAlpha || c.isDigit

/-- The characters of which a number may consist. -/
def isNumberChar (c : Char) : Bool := isAsciiAlphanumeric c || c = '-' || c = '+' || c = '.'

def skipBlank (s : List Char) : List Char := s.dropWhile Text.isBlank

/-- The three words that are values. -/
def wordValue (word : List Char) : Except Error Value :=
  if word = "None".toList then .ok .null
  else if word = "True".toList then .ok (.bool true)
  else if word = "False".toList then .ok (.bool false)
  else .error (.unknownName (String.ofList word))

/-- A run of number characters is a float if it has a point or an exponent mark. -/
def numberValue (text : List Char) : Except Error Value :=
  if text.any (fun c => c = '.' || c = 'e' || c = 'E') then
    match DecimalText.readFloat text with
    | .ok x => .ok (.float x)
    | .error e => .error (.notAFloat (String.ofList text) e)
  else
    match DecimalText.readInt64 text with
    | .ok i => .ok (.int i)
    | .error e => .error (.notAnInteger (String.ofList text) e)

/-- The character that a backslash and `c` stand for. -/
def unescape (c : Char) : Char :=
  if c = 'n' then '\n' else if c = 't' then '\t' else c

/-- Reads a text up to the closing `quote`. -/
def readString (quote : Char) : List Char → Except Error (List Char × List Char)
  | [] => .error .openString
  | [c] => if c = quote then .ok ([], []) else .error .openString
  | c :: d :: s =>
    if c = quote then .ok ([], d :: s)
    else if c = '\\' then (readString quote s).map fun r => (unescape d :: r.1, r.2)
    else (readString quote (d :: s)).map fun r => (c :: r.1, r.2)

/-- The bytes of a text of `size` bytes that precede its rest `s`. -/
def offsetOf (size : Nat) (s : List Char) : Nat := size - Text.utf8Size s

mutual

/-- Reads a value from a text of `size` bytes; `fuel` bounds the number of steps. -/
def readValue (size : Nat) : Nat → List Char → Except Error (Value × List Char)
  | 0, _ => .error .endOfInput
  | fuel + 1, s =>
    match skipBlank s with
    | [] => .error .endOfInput
    | c :: t =>
      if c = '[' then (readItems size fuel t).map fun r => (.list r.1, r.2)
      else if c = '"' ∨ c = '\'' then
        (readString c t).map fun r => (.str (String.ofList r.1), r.2)
      else if c = '-' ∨ c.isDigit then
        (numberValue ((c :: t).takeWhile isNumberChar)).map fun v =>
          (v, (c :: t).dropWhile isNumberChar)
      else if Text.isAlphabetic c then
        (wordValue ((c :: t).takeWhile isAlphanumeric)).map fun v =>
          (v, (c :: t).dropWhile isAlphanumeric)
      else .error (.unexpected c (offsetOf size (c :: t)))

/-- Reads the items of a list and its closing bracket. -/
def readItems (size : Nat) : Nat → List Char → Except Error (List Value × List Char)
  | 0, _ => .error .endOfInput
  | fuel + 1, s =>
    match skipBlank s with
    | ']' :: t => .ok ([], t)
    | t =>
      match readValue size fuel t with
      | .error e => .error e
      | .ok (v, u) =>
        match skipBlank u with
        | [] => .error .openList
        | ',' :: w => (readItems size fuel w).map fun r => (v :: r.1, r.2)
        | ']' :: w => .ok ([v], w)
        | c :: _ => .error (.badSeparator c)

end

/-- Reads characters that form exactly one literal. Each step but the first follows a character
used, so the fuel suffices. -/
def parseChars (s : List Char) : Except Error Value :=
  match readValue (Text.utf8Size s) (2 * s.length + 2) s with
  | .error e => .error e
  | .ok (v, t) =>
    match skipBlank t with
    | [] => .ok v
    | c :: u => .error (.unexpected c (offsetOf (Text.utf8Size s) (c :: u)))

/-- Reads a text that is exactly one literal. -/
def parse (s : String) : Except Error Value := parseChars s.toList

end InstancePool.Literal
