import InstancePool.Value.Basic

/-!
What a host and an interpreter say to each other: one request, one reply. All operations but the
opening of a session act in a session and on references that belong to it.
-/

namespace InstancePool

/-- The number of a session, unique in the process. -/
structure SessionKey where
  number : UInt64
  deriving Repr, DecidableEq, Inhabited

def SessionKey.display (k : SessionKey) : String := "session-" ++ toString k.number.toNat

/-- The number of a replicated value, unique in its manager. -/
structure ObjectId where
  number : UInt64
  deriving Repr, DecidableEq, Inhabited

def ObjectId.display (id : ObjectId) : String := "object-" ++ toString id.number.toNat

/-- A reference to an object that a session handed out as its `slot`th. -/
structure Ref where
  session : SessionKey
  slot : UInt32
  deriving Repr, DecidableEq, Inhabited

def Ref.display (r : Ref) : String := r.session.display ++ "#" ++ toString r.slot.toNat

/-- What went wrong inside an interpreter, in broad classes. -/
inductive FaultKind where
  /-- Evaluation, conversion or serialization failed. -/
  | runtime
  /-- A module, an attribute or an object does not exist. -/
  | notFound
  /-- A reference was shown to a session that does not own it. -/
  | ownership
  /-- The request could not be understood. -/
  | protocol
  deriving Repr, DecidableEq

def FaultKind.display : FaultKind → String
  | .runtime => "runtime fault"
  | .notFound => "not found"
  | .ownership => "ownership violation"
  | .protocol => "protocol violation"

/-- A failure raised inside an interpreter. -/
structure Fault where
  kind : FaultKind
  message : String
  deriving Repr, DecidableEq

def Fault.display (f : Fault) : String := f.kind.display ++ ": " ++ f.message

/-- The forms of a response. -/
inductive ResponseKind where
  | unit
  | session
  | ref
  | value
  | bool
  | bytes
  deriving Repr, DecidableEq

def ResponseKind.name : ResponseKind → String
  | .unit => "unit"
  | .session => "session"
  | .ref => "obj"
  | .value => "value"
  | .bool => "bool"
  | .bytes => "bytes"

/-- A successful result. -/
inductive Response where
  | unit
  | session (key : SessionKey)
  | ref (r : Ref)
  | value (v : Value)
  | bool (b : Bool)
  | bytes (data : List UInt8)
  deriving Repr, DecidableEq

def Response.kind : Response → ResponseKind
  | .unit => .unit
  | .session _ => .session
  | .ref _ => .ref
  | .value _ => .value
  | .bool _ => .bool
  | .bytes _ => .bytes

/-- The outcome of one request. -/
abbrev Reply := Except Fault Response

/-- An operation in a session. -/
inductive Op where
  /-- Looks up a name in a module. -/
  | global (module name : String)
  /-- Evaluates a literal. -/
  | eval (source : String)
  /-- Makes an object of a value. -/
  | ofValue (value : Value)
  /-- Copies the value of an object. -/
  | toValue (target : Ref)
  | attr (target : Ref) (name : String)
  | setAttr (target : Ref) (name : String) (value : Ref)
  | call (callee : Ref) (args : List Ref)
  /-- Asks whether the session handed out a reference. -/
  | isOwner (target : Ref)
  /-- Serializes an object, possibly in the context of a receiver. -/
  | serialize (receiver : Option Ref) (target : Ref)
  /-- Loads the object for an identifier from its serialized form, unless it is loaded already. -/
  | restore (id : ObjectId) (data : List UInt8)
  /-- Drops the object loaded for an identifier. -/
  | unload (id : ObjectId)
  deriving Repr, DecidableEq

namespace Op

def name : Op → String
  | .global .. => "global"
  | .eval _ => "eval"
  | .ofValue _ => "from-value"
  | .toValue _ => "to-value"
  | .attr .. => "attr"
  | .setAttr .. => "set-attr"
  | .call .. => "call"
  | .isOwner _ => "is-owner"
  | .serialize .. => "pickle"
  | .restore .. => "unpickle-or-get"
  | .unload _ => "unload"

/-- The form of an operation's response. -/
def answers : Op → ResponseKind
  | .global .. | .eval _ | .ofValue _ | .attr .. | .call .. | .restore .. => .ref
  | .toValue _ => .value
  | .setAttr .. => .unit
  | .isOwner _ | .unload _ => .bool
  | .serialize .. => .bytes

end Op

inductive Request where
  | openSession
  | closeSession (session : SessionKey)
  | act (session : SessionKey) (op : Op)
  deriving Repr, DecidableEq

def Request.name : Request → String
  | .openSession => "open-session"
  | .closeSession _ => "close-session"
  | .act _ op => op.name

/-- The form of a request's response. -/
def Request.answers : Request → ResponseKind
  | .openSession => .session
  | .closeSession _ => .unit
  | .act _ op => op.answers

end InstancePool
