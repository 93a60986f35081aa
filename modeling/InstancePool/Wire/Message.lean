import InstancePool.Message
import InstancePool.Wire.Value

/-!
The wire forms of requests and replies: the number of the constructor, then its parts in order.
-/

namespace InstancePool.Wire

def bytesOfKey (k : SessionKey) : List UInt8 := bytesOfUInt64 k.number

def key : Decoder SessionKey := SessionKey.mk <$> uint64

def bytesOfId (id : ObjectId) : List UInt8 := bytesOfUInt64 id.number

def objectId : Decoder ObjectId := ObjectId.mk <$> uint64

def bytesOfRef (r : Ref) : List UInt8 := bytesOfKey r.session ++ bytesOfUInt32 r.slot

def ref : Decoder Ref := do
  let session ← key
  let slot ← uint32
  pure ⟨session, slot⟩

/-- The number of an operation among the requests. -/
def opIndex : Op → Nat
  | .global .. => 2
  | .eval _ => 3
  | .ofValue _ => 4
  | .toValue _ => 5
  | .attr .. => 6
  | .setAttr .. => 7
  | .call .. => 8
  | .isOwner _ => 9
  | .serialize .. => 10
  | .restore .. => 11
  | .unload _ => 12

/-- The parts of an operation after the session, with values of at most `depth` nested lists. -/
def opBytes (depth : Nat) : Op → Except EncodeError (List UInt8)
  | .global module name => .ok (bytesOfText module ++ bytesOfText name)
  | .eval source => .ok (bytesOfText source)
  | .ofValue v => valueBytes depth v
  | .toValue target => .ok (bytesOfRef target)
  | .attr target name => .ok (bytesOfRef target ++ bytesOfText name)
  | .setAttr target name v => .ok (bytesOfRef target ++ bytesOfText name ++ bytesOfRef v)
  | .call callee args => .ok (bytesOfRef callee ++ bytesOfList bytesOfRef args)
  | .isOwner target => .ok (bytesOfRef target)
  | .serialize receiver target => .ok (bytesOfOption bytesOfRef receiver ++ bytesOfRef target)
  | .restore id data => .ok (bytesOfId id ++ bytesOfBytes data)
  | .unload id => .ok (bytesOfId id)

def requestBytes (depth : Nat) : Request → Except EncodeError (List UInt8)
  | .openSession => .ok (bytesOfNat32 0)
  | .closeSession session => .ok (bytesOfNat32 1 ++ bytesOfKey session)
  | .act session op =>
    (opBytes depth op).map fun content => bytesOfNat32 (opIndex op) ++ bytesOfKey session ++ content

/-- The operation with the given number among the requests. -/
def op (depth index : Nat) : Decoder Op :=
  match index with
  | 2 => do
    let module ← text
    let name ← text
    pure (.global module name)
  | 3 => .eval <$> text
  | 4 => .ofValue <$> value depth
  | 5 => .toValue <$> ref
  | 6 => do
    let target ← ref
    let name ← text
    pure (.attr target name)
  | 7 => do
    let target ← ref
    let name ← text
    let v ← ref
    pure (.setAttr target name v)
  | 8 => do
    let callee ← ref
    let args ← list ref
    pure (.call callee args)
  | 9 => .isOwner <$> ref
  | 10 => do
    let receiver ← option ref
    let target ← ref
    pure (.serialize receiver target)
  | 11 => do
    let id ← objectId
    let data ← bytes
    pure (.restore id data)
  | 12 => .unload <$> objectId
  | _ => Decoder.fail .malformed

def request (depth : Nat) : Decoder Request := do
  let index ← nat32
  if index = 0 then pure .openSession
  else if index = 1 then .closeSession <$> key
  else if index ≤ 12 then do
    let session ← key
    .act session <$> op depth index
  else Decoder.fail .malformed

def responseBytes (depth : Nat) : Response → Except EncodeError (List UInt8)
  | .unit => .ok (bytesOfNat32 0)
  | .session k => .ok (bytesOfNat32 1 ++ bytesOfKey k)
  | .ref r => .ok (bytesOfNat32 2 ++ bytesOfRef r)
  | .value v => (valueBytes depth v).map (bytesOfNat32 3 ++ ·)
  | .bool b => .ok (bytesOfNat32 4 ++ bytesOfBool b)
  | .bytes data => .ok (bytesOfNat32 5 ++ bytesOfBytes data)

def response (depth : Nat) : Decoder Response := do
  match ← nat32 with
  | 0 => pure .unit
  | 1 => .session <$> key
  | 2 => .ref <$> ref
  | 3 => .value <$> value depth
  | 4 => .bool <$> bool
  | 5 => .bytes <$> bytes
  | _ => Decoder.fail .malformed

def faultKindIndex : FaultKind → Nat
  | .runtime => 0
  | .notFound => 1
  | .ownership => 2
  | .protocol => 3

def faultKind : Decoder FaultKind := do
  match ← nat32 with
  | 0 => pure .runtime
  | 1 => pure .notFound
  | 2 => pure .ownership
  | 3 => pure .protocol
  | _ => Decoder.fail .malformed

def bytesOfFault (f : Fault) : List UInt8 :=
  bytesOfNat32 (faultKindIndex f.kind) ++ bytesOfText f.message

def fault : Decoder Fault := do
  let kind ← faultKind
  let message ← text
  pure ⟨kind, message⟩

def replyBytes (depth : Nat) : Reply → Except EncodeError (List UInt8)
  | .ok r => (responseBytes depth r).map (bytesOfNat32 0 ++ ·)
  | .error f => .ok (bytesOfNat32 1 ++ bytesOfFault f)

def reply (depth : Nat) : Decoder Reply := do
  match ← nat32 with
  | 0 => Except.ok <$> response depth
  | 1 => Except.error <$> fault
  | _ => Decoder.fail .malformed

def encodeRequest (r : Request) : Except EncodeError (List UInt8) := requestBytes Value.maxDepth r

def decodeRequest (bs : List UInt8) : Except DecodeError Request :=
  (request Value.maxDepth).run bs

def encodeReply (r : Reply) : Except EncodeError (List UInt8) := replyBytes Value.maxDepth r

def decodeReply (bs : List UInt8) : Except DecodeError Reply := (reply Value.maxDepth).run bs

end InstancePool.Wire
