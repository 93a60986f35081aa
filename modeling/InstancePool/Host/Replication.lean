import InstancePool.Host.Session

/-!
Replicated values. A value is serialized once, gets a number in its manager, and can be materialized
in every instance of that manager. It is unloaded from all of them at the latest when its last
handle goes.
-/

namespace InstancePool

open HostM

namespace Host

def addReplica (r : Replica) : HostM ReplicaId :=
  of fun h => (.ok h.nextReplica,
    { h with replicas := h.replicas.insert h.nextReplica r, nextReplica := h.nextReplica + 1 })

def getReplica (r : ReplicaId) : HostM Replica := find fun h => h.replicas.get? r

def setReplica (n : ReplicaId) (r : Replica) : HostM Unit :=
  modify fun h => { h with replicas := h.replicas.insert n r }

/-- Takes the number of the next replicated value of a manager. -/
def takeObjectId (m : ManagerId) : HostM ObjectId := do
  let manager ← getManager m
  modify fun h =>
    { h with managers := h.managers.set m { manager with nextObject := manager.nextObject + 1 } }
  pure ⟨manager.nextObject⟩

/-- Makes a value of a session replicable. -/
def createReplica (s : SessionId) (r : Ref) : HostM ReplicaId := do
  let session ← getSession s
  match session.origin.manager? with
  | none => throw (.usage .noManager)
  | some manager =>
    if ¬ (← performBool s (.isOwner r)) then throw (.usage .foreignValue)
    let data ← performBytes s (.serialize session.current r)
    let id ← takeObjectId manager
    addReplica { id, data, manager }

/-- Fails if a value was unloaded from every instance. -/
def requireLoaded (r : Replica) : HostM Unit := do
  if r.unloaded then throw (.objectNotFound r.id)

/-- Materializes a value in the instance of a session. -/
def materialize (s : SessionId) (n : ReplicaId) : HostM Ref := do
  let r ← getReplica n
  requireLoaded r
  let session ← getSession s
  let home ← find fun _ => session.origin.home?
  requireOwned r.manager home
  performRef s (.restore r.id r.data)

/-- Opens a session with a value materialized as its current value, on the given instance or on the
one that the balancer chooses. -/
def openReplica (n : ReplicaId) (on : Option InstanceId) (t : Thread) : HostM SessionId := do
  let r ← getReplica n
  requireLoaded r
  let s ← match on with
    | some home => openPinned r.manager home
    | none => openBalanced r.manager t
  onFailure (do setCurrent s (← materialize s n)) (closeSession s)
  pure s

/-- Drops the object for a value from one instance. -/
def unloadFrom (r : Replica) (n : InstanceId) : HostM Unit := do
  requireOwned r.manager n
  let i ← getInstance n
  i.withSession fun link key => do
    let _ ← link.perform key (.unload r.id)

/-- Drops the object for a value from instances, all of them in order, and reports the first
failure. -/
def unloadFromEach (r : Replica) : List InstanceId → HostM Unit
  | [] => pure ()
  | n :: ns => do
    let first ← outcome (unloadFrom r n)
    let rest ← outcome (unloadFromEach r ns)
    settle first
    settle rest

/-- Unloads a value from every instance of its manager. If none fails, it cannot be materialized
any more. -/
def unloadAll (n : ReplicaId) : HostM Unit := do
  let r ← getReplica n
  let manager ← getManager r.manager
  unloadFromEach r manager.instances
  setReplica n { r with unloaded := true }

/-- Unloads a value from one instance or from all. -/
def unload (n : ReplicaId) (on : Option InstanceId) : HostM Unit := do
  match on with
  | some home => unloadFrom (← getReplica n) home
  | none => unloadAll n

/-- Makes another handle of a value, which has the same number. -/
def cloneReplica (n : ReplicaId) : HostM ReplicaId := do
  let r ← getReplica n
  setReplica n { r with handles := r.handles + 1 }
  pure n

/-- Gives a handle up. With the last one the value is unloaded and forgotten. -/
def dropReplica (n : ReplicaId) : HostM Unit := do
  let r ← getReplica n
  if r.handles > 1 then setReplica n { r with handles := r.handles - 1 }
  else
    if ¬ r.unloaded then ignoring (unloadAll n)
    modify fun h => { h with replicas := h.replicas.erase n }

end Host

end InstancePool
