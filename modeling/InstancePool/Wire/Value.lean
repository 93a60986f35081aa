import InstancePool.Value.Basic
import InstancePool.Wire.Primitive

/-!
The wire form of a value: the number of its constructor, then its content. Writer and reader both
take the number of nested lists that are still allowed, so neither goes deeper than `maxDepth`.
-/

namespace InstancePool.Wire

mutual

/-- Writes a value with at most `depth` nested lists. -/
def valueBytes : Nat → Value → Except EncodeError (List UInt8)
  | _, .null => .ok (bytesOfNat32 0)
  | _, .bool b => .ok (bytesOfNat32 1 ++ bytesOfBool b)
  | _, .int i => .ok (bytesOfNat32 2 ++ bytesOfInt64 i)
  | _, .float x => .ok (bytesOfNat32 3 ++ bytesOfFloat x)
  | _, .str s => .ok (bytesOfNat32 4 ++ bytesOfText s)
  | 0, .list _ => .error .tooDeep
  | depth + 1, .list items =>
    (itemsBytes depth items).map fun content =>
      bytesOfNat32 5 ++ bytesOfNat64 items.length ++ content

/-- Writes values one after the other. -/
def itemsBytes : Nat → List Value → Except EncodeError (List UInt8)
  | _, [] => .ok []
  | depth, v :: vs =>
    match valueBytes depth v with
    | .error e => .error e
    | .ok first => (itemsBytes depth vs).map (first ++ ·)

end

/-- Reads a value with at most `depth` nested lists. -/
def value (depth : Nat) : Decoder Value := do
  match ← nat32 with
  | 0 => pure .null
  | 1 => .bool <$> bool
  | 2 => .int <$> int64
  | 3 => .float <$> float
  | 4 => .str <$> text
  | 5 =>
    match depth with
    | 0 => Decoder.fail .malformed
    | depth + 1 => .list <$> list (value depth)
  | _ => Decoder.fail .malformed

def encodeValue (v : Value) : Except EncodeError (List UInt8) := valueBytes Value.maxDepth v

def decodeValue (bs : List UInt8) : Except DecodeError Value := (value Value.maxDepth).run bs

end InstancePool.Wire
