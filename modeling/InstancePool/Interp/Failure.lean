import InstancePool.Error
import InstancePool.Interp.Object
import InstancePool.Interp.ModuleText

/-!
The ways in which an operation inside an interpreter can fail, and the fault that each is reported
as.
-/

namespace InstancePool

inductive Failure where
  | noModule (name : String)
  /-- A namespace has no member of that name. -/
  | noMember (name : String)
  | noAttribute (typeName name : String)
  /-- A module text is wrong in the given line. -/
  | badModule (name : String) (line : Nat) (problem : ModuleText.Problem)
  | badLiteral (cause : Literal.Error)
  | notAValue (typeName : String)
  /-- A reference of another session. -/
  | notOwned (r : Ref) (session : SessionKey)
  /-- A reference of this session that was never handed out. -/
  | notLive (r : Ref)
  | notCallable (typeName : String)
  | arity (builtin : Builtin) (expected found : Nat)
  | overflow
  | operands (left right : String)
  | noLength (typeName : String)
  /-- The builtin that fails was called. -/
  | raised (message : String)
  | notSerializable (typeName : String)
  | serializing (cause : Wire.EncodeError)
  | restoring (id : ObjectId) (cause : Wire.DecodeError)
  | notSettable (name typeName : String)
  | unknownSession (session : SessionKey)
  deriving Repr, DecidableEq

namespace Failure

def kind : Failure → FaultKind
  | .noModule _ | .noMember _ | .noAttribute .. | .notLive _ => .notFound
  | .notOwned .. => .ownership
  | .unknownSession _ => .protocol
  | _ => .runtime

def message : Failure → String
  | .noModule name => "no module named " ++ Text.quoted name
  | .noMember name => "namespace has no attribute " ++ Text.quoted name
  | .noAttribute typeName name => typeName ++ " object has no attribute " ++ Text.quoted name
  | .badModule name line problem => name ++ ":" ++ toString line ++ ": " ++ problem.message
  | .badLiteral cause => cause.message
  | .notAValue typeName => "expected a value, got " ++ typeName
  | .notOwned r session => r.display ++ " does not belong to " ++ session.display
  | .notLive r => r.display ++ " is not a live object"
  | .notCallable typeName => typeName ++ " object is not callable"
  | .arity builtin expected found =>
    builtin.label ++ " takes " ++ toString expected ++ " arguments, got " ++ toString found
  | .overflow => "integer overflow"
  | .operands left right => "unsupported operand types for +: " ++ left ++ " and " ++ right
  | .noLength typeName => typeName ++ " has no len()"
  | .raised message => message
  | .notSerializable typeName => "cannot pickle " ++ typeName ++ " object"
  | .serializing cause => (WireError.encode cause).message
  | .restoring id cause => "unpickling " ++ id.display ++ ": " ++ (WireError.decode cause).message
  | .notSettable name typeName => "cannot set attribute " ++ Text.quoted name ++ " on " ++ typeName
  | .unknownSession session => "unknown " ++ session.display

def fault (f : Failure) : Fault := ⟨f.kind, f.message⟩

end Failure

end InstancePool
