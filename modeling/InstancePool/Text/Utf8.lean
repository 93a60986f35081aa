/-!
Texts as bytes. `utf8Bytes` and `ofUtf8?` are the exact encoding and its inverse; `decodeLenient`
reads any bytes and puts U+FFFD wherever they stop being the beginning of a character.
-/

namespace InstancePool.Text

/-- The bytes of a text. -/
def utf8Bytes (s : String) : List UInt8 := s.toUTF8.data.toList

/-- The text with these bytes, if there is one. -/
def ofUtf8? (bytes : List UInt8) : Option String := String.fromUTF8? ⟨bytes.toArray⟩

/-- Where a reader of bytes stands: between characters, or inside one. -/
inductive Utf8State where
  | between
  /-- `code` is what is known of the code point, `left` more bytes are due, and the next one has to
  lie between `lo` and `hi`. -/
  | inside (code left lo hi : Nat)
  deriving Repr, DecidableEq

def replacementChar : Char := '\ufffd'

/-- A byte read between characters: what it completes, and the state after it. -/
def readLead (b : Nat) : List Char × Utf8State :=
  if b < 0x80 then ([Char.ofNat b], .between)
  else if b < 0xC2 then ([replacementChar], .between)
  else if b < 0xE0 then ([], .inside (b - 0xC0) 1 0x80 0xBF)
  else if b = 0xE0 then ([], .inside 0 2 0xA0 0xBF)
  else if b = 0xED then ([], .inside 0xD 2 0x80 0x9F)
  else if b < 0xF0 then ([], .inside (b - 0xE0) 2 0x80 0xBF)
  else if b = 0xF0 then ([], .inside 0 3 0x90 0xBF)
  else if b < 0xF4 then ([], .inside (b - 0xF0) 3 0x80 0xBF)
  else if b = 0xF4 then ([], .inside 4 3 0x80 0x8F)
  else ([replacementChar], .between)

/-- One byte. A byte that cannot go on inside a character ends it and is read afresh. -/
def readByte : Utf8State → Nat → List Char × Utf8State
  | .between, b => readLead b
  | .inside code left lo hi, b =>
    if lo ≤ b ∧ b ≤ hi then
      let code := code * 64 + (b - 0x80)
      if left = 1 then ([Char.ofNat code], .between) else ([], .inside code (left - 1) 0x80 0xBF)
    else
      let (out, state) := readLead b
      (replacementChar :: out, state)

/-- The characters read from a state on. -/
def decodeFrom : Utf8State → List UInt8 → List Char
  | .between, [] => []
  | .inside .., [] => [replacementChar]
  | state, b :: bs =>
    let (out, next) := readByte state b.toNat
    out ++ decodeFrom next bs

/-- The text of any bytes, with U+FFFD for each broken stretch. -/
def decodeLenient (bytes : List UInt8) : String := String.ofList (decodeFrom .between bytes)

end InstancePool.Text
