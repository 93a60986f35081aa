import InstancePool.Wire.Decoder
import InstancePool.Number.Binary64
import InstancePool.Text.Utf8

/-!
The wire forms of numbers, flags, texts and sequences. Unsigned integers are written in groups of
seven bits, least significant first, each byte but the last with its high bit set; signed ones go
through the zigzag map; a float is its eight bytes, least significant first; a text or a sequence
follows its length. Readers accept a number with superfluous zero groups, up to the most bytes that
its width needs.
-/

namespace InstancePool.Wire

/-- The groups of `n`, at most `more` of them before the last. -/
def varintBytes : Nat → Nat → List UInt8
  | 0, n => [UInt8.ofNat n]
  | more + 1, n =>
    if n < 128 then [UInt8.ofNat n]
    else UInt8.ofNat (n % 128 + 128) :: varintBytes more (n / 128)

/-- Reads groups, at most `more` of them before one that must not exceed `last`. -/
def varint (last : Nat) : Nat → Decoder Nat
  | 0 => do
    let b ← Decoder.byte
    if b ≤ last then pure b else Decoder.fail .badVarint
  | more + 1 => do
    let b ← Decoder.byte
    if b < 128 then pure b
    else do
      let high ← varint last more
      pure (b - 128 + 128 * high)

def bytesOfNat64 (n : Nat) : List UInt8 := varintBytes 9 n

def bytesOfNat32 (n : Nat) : List UInt8 := varintBytes 4 n

/-- A number of 64 bits takes at most ten bytes, the last of which holds one bit. -/
def nat64 : Decoder Nat := varint 1 9

/-- A number of 32 bits takes at most five bytes, the last of which holds four bits. -/
def nat32 : Decoder Nat := varint 15 4

/-- Non-negative integers go to the even numbers, negative ones to the odd. -/
def zigzag (i : Int) : Nat := if 0 ≤ i then 2 * i.toNat else 2 * (-i).toNat - 1

def unzigzag (n : Nat) : Int := if n % 2 = 0 then (n / 2 : Nat) else -((n / 2 : Nat) : Int) - 1

def bytesOfUInt64 (n : UInt64) : List UInt8 := bytesOfNat64 n.toNat

def uint64 : Decoder UInt64 := UInt64.ofNat <$> nat64

def bytesOfUInt32 (n : UInt32) : List UInt8 := bytesOfNat32 n.toNat

def uint32 : Decoder UInt32 := UInt32.ofNat <$> nat32

def bytesOfInt64 (i : Int64) : List UInt8 := bytesOfNat64 (zigzag i.toInt)

def int64 : Decoder Int64 := (fun n => Int64.ofInt (unzigzag n)) <$> nat64

def bytesOfBool (b : Bool) : List UInt8 := [if b then 1 else 0]

def bool : Decoder Bool := do
  match ← Decoder.byte with
  | 0 => pure false
  | 1 => pure true
  | _ => Decoder.fail .badBool

/-- The `count` low bytes of `n`, least significant first. -/
def littleEndian : Nat → Nat → List UInt8
  | 0, _ => []
  | count + 1, n => UInt8.ofNat (n % 256) :: littleEndian count (n / 256)

/-- The number that bytes spell, least significant first. -/
def ofLittleEndian : List UInt8 → Nat
  | [] => 0
  | b :: bs => b.toNat + 256 * ofLittleEndian bs

def bytesOfFloat (x : Binary64) : List UInt8 := littleEndian 8 x.bits.toNat

def float : Decoder Binary64 := (fun bs => ⟨UInt64.ofNat (ofLittleEndian bs)⟩) <$> Decoder.take 8

/-- Bytes after their number. -/
def bytesOfBytes (data : List UInt8) : List UInt8 := bytesOfNat64 data.length ++ data

def bytes : Decoder (List UInt8) := nat64 >>= Decoder.take

def bytesOfText (s : String) : List UInt8 := bytesOfBytes (Text.utf8Bytes s)

def text : Decoder String := do
  let data ← bytes
  match Text.ofUtf8? data with
  | some s => pure s
  | none => Decoder.fail .badText

/-- An optional item after a flag that tells whether it is there. -/
def bytesOfOption {α : Type} (item : α → List UInt8) : Option α → List UInt8
  | none => [0]
  | some a => 1 :: item a

def option {α : Type} (item : Decoder α) : Decoder (Option α) := do
  match ← Decoder.byte with
  | 0 => pure none
  | 1 => some <$> item
  | _ => Decoder.fail .badOption

/-- Items after their number. -/
def bytesOfList {α : Type} (item : α → List UInt8) (items : List α) : List UInt8 :=
  bytesOfNat64 items.length ++ items.flatMap item

def list {α : Type} (item : Decoder α) : Decoder (List α) := nat64 >>= Decoder.replicate item

end InstancePool.Wire
