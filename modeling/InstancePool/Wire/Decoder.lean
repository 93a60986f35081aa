/-!
Readers of bytes. A decoder takes the remaining bytes and returns what it made of the first of them
together with the rest, or the first problem it met.
-/

namespace InstancePool.Wire

/-- Why bytes are not a message. -/
inductive DecodeError where
  | endOfBuffer
  | badVarint
  | badBool
  | badOption
  | badText
  /-- An unknown constructor, or lists nested too deep. -/
  | malformed
  deriving Repr, DecidableEq

def DecodeError.message : DecodeError → String
  | .endOfBuffer => "Hit the end of buffer, expected more data"
  | .badVarint => "Found a varint that didn't terminate. Is the usize too big for this platform?"
  | .badBool => "Found a bool that wasn't 0 or 1"
  | .badOption => "Found an Option discriminant that wasn't 0 or 1"
  | .badText => "Tried to parse invalid utf-8"
  | .malformed => "Serde Deserialization Error"

/-- Why a message has no bytes. -/
inductive EncodeError where
  /-- A value in it has lists nested too deep. -/
  | tooDeep
  deriving Repr, DecidableEq

def EncodeError.message : EncodeError → String
  | .tooDeep => "Serde Serialization Error"

abbrev Decoder := StateT (List UInt8) (Except DecodeError)

namespace Decoder

def fail {α : Type} (e : DecodeError) : Decoder α := fun _ => .error e

/-- The next byte. -/
def byte : Decoder Nat
  | [] => .error .endOfBuffer
  | b :: bs => .ok (b.toNat, bs)

/-- The next `n` bytes. -/
def take (n : Nat) : Decoder (List UInt8) := fun bs =>
  if bs.length < n then .error .endOfBuffer else .ok (bs.take n, bs.drop n)

/-- Runs `item` `n` times. -/
def replicate {α : Type} (item : Decoder α) : Nat → Decoder (List α)
  | 0 => pure []
  | n + 1 => do
    let x ← item
    let xs ← replicate item n
    pure (x :: xs)

/-- Decodes the first item of some bytes; what follows it is ignored. -/
def run {α : Type} (d : Decoder α) (bs : List UInt8) : Except DecodeError α :=
  (d bs).map Prod.fst

end Decoder

end InstancePool.Wire
