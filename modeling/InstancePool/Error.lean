import InstancePool.Message
import InstancePool.Wire.Decoder

/-!
Errors that a host reports, each with its text.
-/

namespace InstancePool

/-- What breaks between a host and an interpreter: a message that has no bytes, bytes that are no
message, or a response of another form than the request asks for. -/
inductive WireError where
  | encode (cause : Wire.EncodeError)
  | decode (cause : Wire.DecodeError)
  | unexpectedResponse (expected found : ResponseKind)
  deriving Repr, DecidableEq

def WireError.message : WireError → String
  | .encode cause => "Encode error: " ++ cause.message
  | .decode cause => "Decode error: " ++ cause.message
  | .unexpectedResponse expected found =>
    "Unexpected response: expected " ++ expected.name ++ ", found " ++ found.name

/-- A call that the caller could have avoided. -/
inductive UsageError where
  /-- A value was to be replicated by a session that no manager gave out. -/
  | noManager
  /-- A value was to be replicated by a session that does not own it. -/
  | foreignValue
  /-- An instance was shown to a manager that does not own it. -/
  | foreignInstance
  /-- A manager was to start without instances. -/
  | noInstances
  /-- A session was to use its current value and has none. -/
  | noCurrentValue
  deriving Repr, DecidableEq

def UsageError.message : UsageError → String
  | .noManager => "no manager to register replicated object with"
  | .foreignValue => "cannot replicate a value living in a different instance"
  | .foreignInstance => "instance does not belong to this manager"
  | .noInstances => "a manager needs at least one instance"
  | .noCurrentValue => "session has no current value"

inductive Error where
  /-- An image could not be opened. -/
  | load (path message : String)
  /-- An image lacks an entry point or speaks another version of the interface. -/
  | integrity (symbol message : String)
  /-- A payload could not be made into a file. -/
  | extract (payload message : String)
  | usage (cause : UsageError)
  /-- A fault raised inside an interpreter. -/
  | runtime (fault : Fault)
  | protocol (cause : WireError)
  /-- The environment's configuration of an instance failed. -/
  | configure (message : String)
  /-- Finalizing an interpreter or flushing an image failed. -/
  | teardown (message : String)
  /-- The replicated value was unloaded from every instance. -/
  | objectNotFound (id : ObjectId)
  /-- The interpreter is finalized. -/
  | closed
  /-- A handle that names nothing in this host. -/
  | unknownHandle
  deriving Repr, DecidableEq

namespace Error

def message : Error → String
  | .load path message => "Load error: " ++ path ++ ": " ++ message
  | .integrity symbol message => "Integrity fault: " ++ symbol ++ ": " ++ message
  | .extract payload message => "Extract error: " ++ payload ++ ": " ++ message
  | .usage cause => "Usage error: " ++ cause.message
  | .runtime fault => "Runtime fault: " ++ fault.display
  | .protocol cause => "Protocol error: " ++ cause.message
  | .configure message => "Configure error: " ++ message
  | .teardown message => "Teardown error: " ++ message
  | .objectNotFound id => "Object not found: " ++ id.display
  | .closed => "Runtime is closed"
  | .unknownHandle => "Handle is unknown"

/-- An image lacks the entry point `symbol`. -/
def missingSymbol (symbol : String) : Error :=
  .integrity symbol "entry point not exported by image"

/-- The fault that an error becomes where only faults can be reported: a fault is passed on, a
broken message violates the protocol, and everything else fails inside the interpreter. -/
def toFault : Error → Fault
  | .runtime fault => fault
  | .protocol cause => ⟨.protocol, cause.message⟩
  | e => ⟨.runtime, e.message⟩

end Error

namespace Response

/-- The response itself, if it has the expected form. -/
def expect (kind : ResponseKind) (r : Response) : Except WireError Response :=
  if r.kind = kind then .ok r else .error (.unexpectedResponse kind r.kind)

def toSession : Response → Except WireError SessionKey
  | .session key => .ok key
  | r => .error (.unexpectedResponse .session r.kind)

def toRef : Response → Except WireError Ref
  | .ref r => .ok r
  | r => .error (.unexpectedResponse .ref r.kind)

def toValue : Response → Except WireError Value
  | .value v => .ok v
  | r => .error (.unexpectedResponse .value r.kind)

def toBool : Response → Except WireError Bool
  | .bool b => .ok b
  | r => .error (.unexpectedResponse .bool r.kind)

def toBytes : Response → Except WireError (List UInt8)
  | .bytes data => .ok data
  | r => .error (.unexpectedResponse .bytes r.kind)

end Response

end InstancePool
