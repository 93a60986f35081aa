import InstancePool.Balancer
import InstancePool.Channel.Endpoint
import InstancePool.Channel.Script
import InstancePool.Host.Loader
import InstancePool.Host.Record
import InstancePool.Host.Source

/-!
The state of a host, and how it reaches interpreters. An action that fails keeps what it changed
before.
-/

namespace InstancePool

/-- What a channel of the host leads to. -/
inductive Peer where
  /-- An interpreter of this process. -/
  | exported (endpoint : Endpoint)
  | scripted (script : Script)
  deriving Repr

structure Host where
  machine : Machine := {}
  channels : List (Channel Peer) := []
  registries : List Sources := []
  loaders : List Loader := []
  sources : List Source := []
  environments : List Environment := []
  instances : List Instance := []
  managers : List Manager := []
  fleet : Fleet := {}
  /-- The open sessions. -/
  sessions : Table SessionId Session := Table.empty
  /-- The number of the next session. -/
  nextSession : SessionId := 0
  /-- The replicated values with a handle. -/
  replicas : Table ReplicaId Replica := Table.empty
  /-- The number of the next replicated value. -/
  nextReplica : ReplicaId := 0

/-- An action of a host. -/
abbrev HostM := ExceptT Error (StateM Host)

namespace HostM

variable {α : Type}

/-- An action given by its outcome and the state that it leaves. -/
def of (f : Host → Except Error α × Host) : HostM α := f

/-- Runs an action on a host. -/
def runOn (h : Host) (x : HostM α) : Except Error α × Host := x h

/-- The outcome of an action, as a value. -/
def outcome (x : HostM α) : HostM (Except Error α) :=
  of fun h => (.ok (x h).1, (x h).2)

/-- Runs an action whose failure does not count. -/
def ignoring (x : HostM Unit) : HostM Unit := of fun h => (.ok (), (x h).2)

/-- Passes an outcome on. -/
def settle (r : Except Error α) : HostM α := of fun h => (r, h)

/-- Runs `cleanup` if `x` fails, and fails with `x`. -/
def onFailure (x : HostM α) (cleanup : HostM Unit) : HostM α := do
  match ← outcome x with
  | .ok a => pure a
  | .error e =>
    cleanup
    throw e

/-- Runs `cleanup` after `x`, whatever it came to. -/
def ensuring (x : HostM α) (cleanup : HostM Unit) : HostM α := do
  let r ← outcome x
  cleanup
  settle r

/-- Something that a handle names. -/
def find (get : Host → Option α) : HostM α :=
  of fun h => ((get h).elim (.error .unknownHandle) .ok, h)

/-- A step of the interpreters. -/
def ofMachine (f : Machine → Except Error α × Machine) : HostM α :=
  of fun h => ((f h.machine).1, { h with machine := (f h.machine).2 })

end HostM

namespace Host

/-- The module texts that a resolver finds in this host. -/
def texts (h : Host) : TextSource := fun r name =>
  r.bind fun r => r.lookup (fun k => (h.registries[k]?).getD Table.empty) name

def record (entry : JournalEntry) : HostM Unit :=
  modify fun h => { h with machine := h.machine.record entry }

/-- Adds an interpreter that no image made. -/
def addInterp : HostM Nat :=
  HostM.of fun h =>
    let (n, machine) := h.machine.create [] false none
    (.ok n, { h with machine })

/-- Adds a channel to an interpreter or a script and returns its number. -/
def addChannel (peer : Peer) : HostM Nat :=
  HostM.of fun h =>
    (.ok h.channels.length, { h with channels := h.channels ++ [⟨true, peer⟩] })

/-- Puts an interpreter behind the boundary and returns the number of the channel to it. -/
def exportInterp (interp : Nat) : HostM Nat := addChannel (.exported { interp })

/-- A step of a channel, the same for every kind of image. -/
abbrev ChannelStep (α : Type) :=
  {σ β : Type} → Image σ β → Channel σ → Except Error α × Channel σ

def onChannel {α : Type} (index : Nat) (f : ChannelStep α) : HostM α :=
  HostM.of fun h =>
    match h.channels[index]? with
    | none => (.error .unknownHandle, h)
    | some ⟨live, .exported e⟩ =>
      let (r, c) := f (Endpoint.image h.texts) ⟨live, (h.machine, e)⟩
      (r, { h with
        machine := c.peer.1
        channels := h.channels.set index ⟨c.live, .exported c.peer.2⟩ })
    | some ⟨live, .scripted s⟩ =>
      let (r, c) := f Script.image ⟨live, s⟩
      (r, { h with channels := h.channels.set index ⟨c.live, .scripted c.peer⟩ })

end Host

namespace Link

open HostM Host

/-- Opens a session. -/
def openSession : Link → HostM SessionKey
  | .direct n => ofMachine (Machine.openSession n)
  | .channel c => onChannel c fun image ch => ch.openSession image

/-- Performs an operation in a session. -/
def perform (key : SessionKey) (op : Op) : Link → HostM Response
  | .direct n => of fun h =>
    ((h.machine.perform h.texts n key op).1,
      { h with machine := (h.machine.perform h.texts n key op).2 })
  | .channel c => onChannel c fun image ch => ch.perform image key op

/-- Closes a session. -/
def closeSession (key : SessionKey) : Link → HostM Unit
  | .direct n => ofMachine fun m => (.ok (), m.closeSession n key)
  | .channel c => onChannel c fun image ch => (.ok (), ch.closeSession image key)

/-- Replaces the resolver. -/
def setResolver (r : Resolver) : Link → HostM Unit
  | .direct n => ofMachine fun m => (.ok (), m.setResolver n r)
  | .channel c => onChannel c fun image ch => (.ok (), ch.setResolver image r)

def finalize : Link → HostM Unit
  | .direct n => ofMachine (Machine.finalize n)
  | .channel c => onChannel c fun image ch => ch.finalize image

/-- Performs an operation that answers with a reference. -/
def performRef (key : SessionKey) (op : Op) (l : Link) : HostM Ref := do
  let r ← l.perform key op
  settle (r.toRef.mapError .protocol)

/-- Runs an action in a session of its own. -/
def withSession {α : Type} (l : Link) (f : SessionKey → HostM α) : HostM α := do
  let key ← l.openSession
  ensuring (f key) (l.closeSession key)

end Link

end InstancePool
