import InstancePool.Host.Environment
import InstancePool.Message

/-!
What a host keeps about instances, managers, sessions and replicated values.
-/

namespace InstancePool

/-- A loaded image and the interpreter that it made. -/
structure Instance where
  info : InstanceInfo
  loader : LoaderId
  /-- The image, until it is torn down. -/
  image : Option Nat
  /-- The interpreter, until it is finalized. -/
  link : Option Link := none
  deriving Repr, DecidableEq

/-- What to load for each instance and how. -/
structure ImageSpec where
  payload : Payload := .interpreter
  plugins : List Payload := []
  source : SourceId
  loader : LoaderId
  deriving Repr, DecidableEq

structure Manager where
  instances : List InstanceId
  registry : Nat
  balancer : Nat
  environment : EnvironmentId
  /-- The number of the next replicated value. -/
  nextObject : UInt64 := 0
  deriving Repr, DecidableEq

/-- Where a session comes from. -/
inductive Origin where
  /-- Opened on an interpreter that belongs to no instance. -/
  | bare
  /-- Opened on an instance, without a manager. -/
  | alone (home : InstanceId)
  /-- Opened through a manager on the instance that was asked for. -/
  | pinned (manager : ManagerId) (home : InstanceId)
  /-- Opened through a manager on the instance that the balancer chose. -/
  | balanced (manager : ManagerId) (home : InstanceId) (slot : Nat)
  deriving Repr, DecidableEq

namespace Origin

def home? : Origin → Option InstanceId
  | .bare => none
  | .alone home | .pinned _ home | .balanced _ home _ => some home

def manager? : Origin → Option ManagerId
  | .bare | .alone _ => none
  | .pinned manager _ | .balanced manager _ _ => some manager

/-- The slot of the balancer that the session holds. -/
def slot? : Origin → Option Nat
  | .balanced _ _ slot => some slot
  | _ => none

end Origin

structure Session where
  link : Link
  key : SessionKey
  origin : Origin
  /-- The receiver of calls that name none. -/
  current : Option Ref := none
  deriving Repr, DecidableEq

def describeNumber (number : Option Nat) : String :=
  match number with
  | some n => "Some(" ++ toString n ++ ")"
  | none => "None"

def describeRef (r : Option Ref) : String :=
  match r with
  | some r => "Some(Obj \x7b session: SessionKey(" ++ toString r.session.number.toNat ++
      "), slot: " ++ toString r.slot.toNat ++ " \x7d)"
  | none => "None"

/-- The text of a session of the instance with the given number. -/
def Session.describe (s : Session) (number : Nat) : String :=
  "Session \x7b instance: InstanceId(" ++ toString number ++ "), key: SessionKey(" ++
    toString s.key.number.toNat ++ "), slot: " ++ describeNumber s.origin.slot? ++
    ", current: " ++ describeRef s.current ++ " \x7d"

/-- A value that can be materialized in every instance of its manager. -/
structure Replica where
  id : ObjectId
  data : List UInt8
  manager : ManagerId
  /-- Unloaded from every instance. -/
  unloaded : Bool := false
  /-- How many handles share this record. -/
  handles : Nat := 1
  deriving Repr, DecidableEq

def Replica.describe (r : Replica) : String :=
  "ReplicatedValue \x7b id: ObjectId(" ++ toString r.id.number.toNat ++ "), bytes: " ++
    toString r.data.length ++ ", unloaded: " ++ describeBool r.unloaded ++ " \x7d"

end InstancePool
