import InstancePool.Host.Replication

/-!
Adding things to a host, and looking at what it holds.
-/

namespace InstancePool

open HostM

namespace Host

def addLoader (l : Loader) : HostM LoaderId :=
  of fun h => (.ok h.loaders.length, { h with loaders := h.loaders ++ [l] })

def addSource (s : Source) : HostM SourceId :=
  of fun h => (.ok h.sources.length, { h with sources := h.sources ++ [s] })

def addEnvironment (e : Environment) : HostM EnvironmentId :=
  of fun h => (.ok h.environments.length, { h with environments := h.environments ++ [e] })

/-- The interpreters that the images of a loader made, in order. -/
def interpsOf (h : Host) (l : LoaderId) : List Nat :=
  (List.range h.machine.interps.length).filter fun n =>
    ((h.machine.interps[n]?).bind fun i => i.observer.map Observer.loader) = some l

/-- What happened to the images of a loader, in order. That an image stays open shows in nothing. -/
def imageEvents (h : Host) (l : LoaderId) : List (Nat × ImageEvent) :=
  h.machine.journal.filterMap fun
    | .image loader image event =>
      if loader = l ∧ event ≠ .abandoned then some (image, event) else none
    | .released _ => none

/-- The numbers of the sessions on an instance. -/
def sessionsOn (h : Host) (n : InstanceId) : List SessionId :=
  (h.sessions.entries.filter fun e => e.2.origin.home? = some n).map Prod.fst

/-- The numbers of the sessions on the instances of a manager. -/
def sessionsOf (h : Host) (m : ManagerId) : List SessionId :=
  (h.sessions.entries.filter fun e => (e.2.origin.home?.bind h.ownerOf) = some m).map Prod.fst

/-- The numbers of the replicated values of a manager. -/
def replicasOf (h : Host) (m : ManagerId) : List ReplicaId :=
  (h.replicas.entries.filter fun e => e.2.manager = m).map Prod.fst

/-- An interpreter with the heap that it lives in. -/
def engine? (h : Host) (n : Nat) : Option Engine :=
  (h.machine.interps[n]?).map (⟨h.machine.heap, ·⟩)

end Host

end InstancePool
