import InstancePool.Host.Boundary
import InstancePool.Host.Inventory

/-!
A host whose things have names. A name means one live thing of its kind. Whatever borrows from a
manager or an instance goes before it: first the sessions, then the replicated values, each kind in
the order of the names.
-/

namespace InstancePool

/-- Names of things of one kind. -/
abbrev Names (α : Type) := Table String α

/-- An interpreter that belongs to no instance. -/
structure BareInterp where
  link : Link
  /-- The interpreter itself, if it is in this process. -/
  interp : Option Nat := none
  /-- It was finalized, and can only be looked at. -/
  finalized : Bool := false
  deriving Repr, DecidableEq

/-- An interpreter behind the boundary that no channel leads to yet. -/
structure ExportedInterp where
  channel : Nat
  interp : Nat
  /-- It was finalized, and can only be looked at. -/
  finalized : Bool := false
  deriving Repr, DecidableEq

structure Workspace where
  host : Host := {}
  loaders : Names LoaderId := Table.empty
  sources : Names SourceId := Table.empty
  managers : Names ManagerId := Table.empty
  /-- The instances that belong to no manager. -/
  instances : Names InstanceId := Table.empty
  /-- The environments that keep a record, by the manager or instance they were made for. -/
  recorders : Names EnvironmentId := Table.empty
  bare : Names BareInterp := Table.empty
  exported : Names ExportedInterp := Table.empty
  /-- The channels to scripted images. -/
  scripts : Names Nat := Table.empty
  sessions : Names SessionId := Table.empty
  replicas : Names ReplicaId := Table.empty
  refs : Names Ref := Table.empty

/-- A step in a workspace. One that makes no sense there has no outcome and no effect. -/
abbrev WorkM := StateT Workspace Option

namespace Workspace

variable {α : Type}

/-- Runs an action of the host. -/
def attempt (x : HostM α) : WorkM (Except Error α) := fun w =>
  match HostM.runOn w.host x with
  | (.error .unknownHandle, _) => none
  | (r, host) => some (r, { w with host })

/-- Runs an action of the host that has to succeed. -/
def must (x : HostM α) : WorkM α := do
  match ← attempt x with
  | .ok a => pure a
  | .error _ => failure

/-- What a name means. -/
def lookup (names : Workspace → Names α) (name : String) : WorkM α := do
  (names (← get)).get? name

/-- Makes sure that a name means nothing yet. -/
def requireFree (names : Workspace → Names α) (name : String) : WorkM Unit := do
  guard !(names (← get)).contains name

/-- An instance of a manager, by its position. -/
def member (manager : String) (position : Nat) : WorkM InstanceId := do
  let m ← must (Host.getManager (← lookup managers manager))
  m.instances[position]?

/-- A bare interpreter that is not finalized. -/
def liveBare (name : String) : WorkM BareInterp := do
  let b ← lookup bare name
  guard !b.finalized
  pure b

/-- An exported interpreter that is not finalized. -/
def liveExported (name : String) : WorkM ExportedInterp := do
  let x ← lookup exported name
  guard !x.finalized
  pure x

/-- A session that was opened on an instance. -/
def hostedSession (name : String) : WorkM SessionId := do
  let s ← lookup sessions name
  guard (← must (Host.getSession s)).origin.home?.isSome
  pure s

/-- A session that was opened on a bare interpreter. -/
def bareSession (name : String) : WorkM SessionId := do
  let s ← lookup sessions name
  guard (← must (Host.getSession s)).origin.home?.isNone
  pure s

/-- Adds an environment. If it keeps a record, the record is found under the name. -/
def addEnvironment (name : String) (e : Environment) (records : Bool) : WorkM EnvironmentId := do
  let id ← must (Host.addEnvironment e)
  if records then
    modify fun w => { w with recorders := w.recorders.insert name id }
  pure id

/-- Opens a session and, if that works, gives it a name. -/
def openSession (name : String) (x : HostM SessionId) : WorkM (Except Error SessionId) := do
  requireFree sessions name
  let r ← attempt x
  if let .ok s := r then
    modify fun w => { w with sessions := w.sessions.insert name s }
  pure r

/-- Makes a replicated value and, if that works, gives its handle a name. -/
def addReplica (name : String) (x : HostM ReplicaId) : WorkM (Except Error ReplicaId) := do
  requireFree replicas name
  let r ← attempt x
  if let .ok n := r then
    modify fun w => { w with replicas := w.replicas.insert name n }
  pure r

/-- Gets a reference and, if that works and a name is asked for, makes the name mean it. -/
def addRef (name : Option String) (x : HostM Ref) : WorkM (Except Error Ref) := do
  let result ← attempt x
  match result, name with
  | .ok r, some name => modify fun w => { w with refs := w.refs.insert name r }
  | _, _ => pure ()
  pure result

/-- Closes a session; its name is free again. -/
def closeSession (name : String) : WorkM Unit := do
  must (Host.closeSession (← lookup sessions name))
  modify fun w => { w with sessions := w.sessions.erase name }

/-- Gives a handle of a replicated value up; its name is free again. -/
def dropReplica (name : String) : WorkM Unit := do
  must (Host.dropReplica (← lookup replicas name))
  modify fun w => { w with replicas := w.replicas.erase name }

/-- The names of some things, in order. -/
def namesOf (names : Names Nat) (things : List Nat) : List String :=
  ((names.entries.filter fun e => things.contains e.2).map Prod.fst).mergeSort
    fun a b => decide (a ≤ b)

/-- Ends a manager in the given way, after all that borrows from it. -/
def endManager (name : String) (way : ManagerId → HostM Unit) : WorkM (Except Error Unit) := do
  let m ← lookup managers name
  let w ← get
  (namesOf w.sessions (w.host.sessionsOf m)).forM closeSession
  (namesOf w.replicas (w.host.replicasOf m)).forM dropReplica
  let r ← attempt (way m)
  modify fun w => { w with managers := w.managers.erase name }
  pure r

/-- Ends an instance that belongs to no manager in the given way, after all that borrows from it. -/
def endInstance (name : String) (way : InstanceId → HostM Unit) : WorkM (Except Error Unit) := do
  let n ← lookup instances name
  let w ← get
  (namesOf w.sessions (w.host.sessionsOn n)).forM closeSession
  let r ← attempt (way n)
  modify fun w => { w with instances := w.instances.erase name }
  pure r

/-- Makes a bare interpreter, reached directly or through a channel. -/
def addBare (name : String) (channelled : Bool) : WorkM Unit := do
  requireFree bare name
  let n ← must Host.addInterp
  let link ← if channelled then .channel <$> must (Host.exportInterp n) else pure (.direct n)
  modify fun w => { w with bare := w.bare.insert name { link, interp := some n } }

/-- Gives a name to the interpreter of a loader's image, if there is one at that position. -/
def observe (name : String) (loader : LoaderId) (position : Nat) : WorkM Bool := do
  requireFree bare name
  match ((← get).host.interpsOf loader)[position]? with
  | none => pure false
  | some n =>
    modify fun w => { w with bare := w.bare.insert name { link := .direct n, interp := some n } }
    pure true

/-- Makes a scripted image and connects to it. If that works, the name means the bare interpreter
behind it, too. -/
def connect (name : String) (result : FactoryResult) (script : Script) :
    WorkM (Except Error Unit) := do
  requireFree scripts name
  requireFree bare name
  let index ← must (Host.addScript script)
  modify fun w => { w with scripts := w.scripts.insert name index }
  match ← attempt (Host.connect index result) with
  | .error e => pure (.error e)
  | .ok link =>
    modify fun w => { w with bare := w.bare.insert name { link } }
    pure (.ok ())

/-- Finalizes a bare interpreter. -/
def finalizeBare (name : String) : WorkM (Except Error Unit) := do
  let b ← liveBare name
  let r ← attempt b.link.finalize
  modify fun w => { w with bare := w.bare.insert name { b with finalized := true } }
  pure r

/-- The script of an image. -/
def scriptOf (name : String) : WorkM Script := do
  let index ← lookup scripts name
  (← get).host.script? index

/-- Makes an exported interpreter. -/
def addExported (name : String) : WorkM Unit := do
  requireFree exported name
  let interp ← must Host.addInterp
  let channel ← must (Host.exportInterp interp)
  modify fun w => { w with exported := w.exported.insert name { channel, interp } }

/-- Finalizes an exported interpreter. -/
def finalizeExported (name : String) : WorkM Status := do
  let x ← liveExported name
  let status ← must (Host.finalizeImage x.channel)
  modify fun w => { w with exported := w.exported.insert name { x with finalized := true } }
  pure status

end Workspace

end InstancePool
