import InstancePool.Host.Manager

/-!
Sessions of a host. A session that the balancer placed holds a slot from its opening to its closing.
-/

namespace InstancePool

open HostM

namespace Host

/-- Keeps a session and returns its number. -/
def addSession (s : Session) : HostM SessionId :=
  of fun h => (.ok h.nextSession,
    { h with sessions := h.sessions.insert h.nextSession s, nextSession := h.nextSession + 1 })

def getSession (s : SessionId) : HostM Session := find fun h => h.sessions.get? s

/-- Opens a session on an interpreter that belongs to no instance. -/
def openBare (link : Link) : HostM SessionId := do
  let key ← link.openSession
  addSession { link, key, origin := .bare }

/-- Opens a session on an instance, outside any manager. -/
def openAlone (n : InstanceId) : HostM SessionId := do
  let i ← getInstance n
  let (link, key) ← i.openSession
  addSession { link, key, origin := .alone n }

/-- Opens a session on an instance of a manager. -/
def openPinned (m : ManagerId) (n : InstanceId) : HostM SessionId := do
  requireOwned m n
  let i ← getInstance n
  let (link, key) ← i.openSession
  addSession { link, key, origin := .pinned m n }

/-- Opens a session on the instance that the balancer chooses. A failure gives the slot back. -/
def openBalanced (m : ManagerId) (t : Thread) : HostM SessionId := do
  let manager ← getManager m
  let slot ← acquireSlot manager.balancer t
  onFailure (do
    let n ← find fun _ => manager.instances[slot]?
    let i ← getInstance n
    let (link, key) ← i.openSession
    addSession { link, key, origin := .balanced m n slot })
    (freeSlot manager.balancer slot)

/-- Closes a session and gives its slot back. -/
def closeSession (s : SessionId) : HostM Unit := do
  let session ← getSession s
  modify fun h => { h with sessions := h.sessions.erase s }
  match session.origin with
  | .balanced m _ slot =>
    let manager ← getManager m
    freeSlot manager.balancer slot
  | _ => pure ()
  session.link.closeSession session.key

/-- Performs an operation in a session. -/
def perform (s : SessionId) (op : Op) : HostM Response := do
  let session ← getSession s
  session.link.perform session.key op

def performRef (s : SessionId) (op : Op) : HostM Ref := do
  settle ((← perform s op).toRef.mapError .protocol)

def performValue (s : SessionId) (op : Op) : HostM Value := do
  settle ((← perform s op).toValue.mapError .protocol)

def performBool (s : SessionId) (op : Op) : HostM Bool := do
  settle ((← perform s op).toBool.mapError .protocol)

def performBytes (s : SessionId) (op : Op) : HostM (List UInt8) := do
  settle ((← perform s op).toBytes.mapError .protocol)

/-- The identity of an object, as the builtin for it tells. -/
def identity (s : SessionId) (r : Ref) : HostM Value := do
  let builtin ← performRef s (.global "builtins" "id")
  let result ← performRef s (.call builtin [r])
  performValue s (.toValue result)

/-- Makes a reference the current value of a session. -/
def setCurrent (s : SessionId) (r : Ref) : HostM Unit := do
  let session ← getSession s
  modify fun h => { h with sessions := h.sessions.insert s { session with current := some r } }

/-- The current value of a session, which must have one. -/
def requireCurrent (s : SessionId) : HostM Ref := do
  match (← getSession s).current with
  | some r => pure r
  | none => throw (.usage .noCurrentValue)

/-- Copies the current value. -/
def currentValue (s : SessionId) : HostM Value := do
  let r ← requireCurrent s
  performValue s (.toValue r)

/-- Calls the current value. -/
def callCurrent (s : SessionId) (args : List Ref) : HostM Ref := do
  let r ← requireCurrent s
  performRef s (.call r args)

/-- Calls an attribute of the current value. -/
def callMethod (s : SessionId) (name : String) (args : List Ref) : HostM Ref := do
  let r ← requireCurrent s
  let method ← performRef s (.attr r name)
  performRef s (.call method args)

end Host

end InstancePool
