import InstancePool.Host.Loading
import InstancePool.Registry

/-!
Managers. A manager owns the instances that it loaded, the registry of module texts that they share,
and the balancer that spreads its sessions over them. Either all instances load or none stays.
-/

namespace InstancePool

open HostM

/-- What a manager is made of. -/
structure ManagerSpec where
  count : Nat
  image : ImageSpec
  environment : EnvironmentId
  modules : List (String × String) := []
  deriving Repr, DecidableEq

namespace Instance

/-- Sets the member `instance` of the version namespace to the number of the instance. -/
def tag (i : Instance) : HostM Unit :=
  i.withSession fun link key => do
    let version ← link.performRef key (.global "runtime" "version")
    let number ← link.performRef key (.ofValue (.int (Int64.ofNat i.info.number)))
    let _ ← link.perform key (.setAttr version "instance" number)

/-- Makes an instance ready for its manager. -/
def adopt (registry : Nat) (i : Instance) : HostM Unit := do
  i.tag
  i.setResolver (.registry registry)

end Instance

namespace Host

/-- Adds a registry and returns its number. -/
def addRegistry (sources : Sources) : HostM Nat :=
  of fun h => (.ok h.registries.length, { h with registries := h.registries ++ [sources] })

/-- Adds an idle balancer and returns its number. -/
def addBalancer (n : Nat) : HostM Nat :=
  of fun h =>
    match h.fleet.add n with
    | .error _ => (.error (.usage .noInstances), h)
    | .ok (k, fleet) => (.ok k, { h with fleet })

def addManager (m : Manager) : HostM ManagerId :=
  of fun h => (.ok h.managers.length, { h with managers := h.managers ++ [m] })

def getManager (n : ManagerId) : HostM Manager := find fun h => h.managers[n]?

/-- Loads one instance of a manager. -/
def loadMember (spec : ManagerSpec) (registry number : Nat) : HostM InstanceId := do
  let i ← Instance.load number spec.image spec.environment
  onFailure (i.adopt registry) (ignoring i.close)
  addInstance i

/-- Loads `count` instances with the numbers from `number` on. If one fails, those loaded before,
`loaded` among them, are torn down in order. -/
def loadMembers (spec : ManagerSpec) (registry : Nat) (loaded : List InstanceId) :
    (number count : Nat) → HostM (List InstanceId)
  | _, 0 => pure loaded
  | number, count + 1 => do
    let n ← onFailure (loadMember spec registry number) (dropInstances loaded)
    loadMembers spec registry (loaded ++ [n]) (number + 1) count

/-- Starts a manager. -/
def buildManager (spec : ManagerSpec) : HostM ManagerId := do
  if spec.count = 0 then throw (.usage .noInstances)
  let registry ← addRegistry (Registry.create spec.modules)
  let instances ← loadMembers spec registry [] 0 spec.count
  let balancer ← addBalancer spec.count
  addManager { instances, registry, balancer, environment := spec.environment }

/-- Tears all instances of a manager down and reports the first failure. -/
def shutdown (m : ManagerId) : HostM Unit := do
  let manager ← getManager m
  closeInstances manager.instances

/-- Tears all instances of a manager down; failures are lost. -/
def dropManager (m : ManagerId) : HostM Unit := do
  let manager ← getManager m
  dropInstances manager.instances

/-- Whether a manager loaded an instance. -/
def owns (m : ManagerId) (n : InstanceId) : HostM Bool := do
  let manager ← getManager m
  pure (manager.instances.contains n)

/-- The manager that loaded an instance, if there is one. -/
def ownerOf (h : Host) (n : InstanceId) : Option ManagerId :=
  h.managers.findIdx? fun m => m.instances.contains n

/-- Fails unless a manager loaded the instance. -/
def requireOwned (m : ManagerId) (n : InstanceId) : HostM Unit := do
  if ¬ (← owns m n) then throw (.usage .foreignInstance)

/-- The number of sessions that hold each slot of a manager's balancer. -/
def loads (m : ManagerId) : HostM (List UInt64) := do
  let manager ← getManager m
  find fun h => h.fleet.loads manager.balancer

def getRegistry (m : ManagerId) : HostM Sources := do
  let manager ← getManager m
  find fun h => h.registries[manager.registry]?

/-- Registers the text of a module, in place of an earlier one. -/
def register (m : ManagerId) (name source : String) : HostM Unit := do
  let manager ← getManager m
  let sources ← getRegistry m
  modify fun h =>
    { h with registries := h.registries.set manager.registry (sources.insert name source) }

/-- Takes a slot of a balancer. -/
def acquireSlot (balancer : Nat) (t : Thread) : HostM Nat :=
  of fun h =>
    match h.fleet.acquire balancer t with
    | none => (.error .unknownHandle, h)
    | some (slot, fleet) => (.ok slot, { h with fleet })

/-- Gives a slot of a balancer back. -/
def freeSlot (balancer slot : Nat) : HostM Unit :=
  of fun h =>
    match h.fleet.free balancer slot with
    | none => (.error .unknownHandle, h)
    | some (_, fleet) => (.ok (), { h with fleet })

end Host

end InstancePool
