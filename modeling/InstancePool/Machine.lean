import InstancePool.Interp.Perform
import InstancePool.LoadFlags

/-!
All interpreters of a process. They share the heap of objects, so that no two objects have the same
number, and the counter of session keys; the journal tells what happened to images and files.
-/

namespace InstancePool

/-- What can happen to an image. -/
inductive ImageEvent where
  | opened (path : String) (flags : LoadFlags)
  /-- The image was told its own handle. -/
  | bound
  /-- Its factory made an interpreter. -/
  | created (searchPaths plugins : List String)
  /-- Its interpreter was finalized. -/
  | finalized
  /-- Its extensions were unloaded. -/
  | flushed
  | closed
  /-- The image stays open for good. -/
  | abandoned
  deriving Repr, DecidableEq

inductive JournalEntry where
  /-- An event of the `image`th image of a loader. -/
  | image (loader image : Nat) (event : ImageEvent)
  /-- A guarded file went away. -/
  | released (path : String)
  deriving Repr, DecidableEq

/-- Where the texts of modules come from. -/
abbrev TextSource := Option Resolver → String → Option String

structure Machine where
  heap : Heap := {}
  /-- The next session key. -/
  nextKey : UInt64 := 1
  interps : List Interp := []
  journal : List JournalEntry := []
  deriving Repr

namespace Machine

/-- Adds an interpreter and returns its number. -/
def create (m : Machine) (searchPaths : List String) (failFinalize : Bool)
    (observer : Option Observer) : Nat × Machine :=
  let e := Interp.create m.heap searchPaths failFinalize observer
  (m.interps.length, { m with heap := e.heap, interps := m.interps ++ [e.interp] })

def record (m : Machine) (entry : JournalEntry) : Machine :=
  { m with journal := m.journal ++ [entry] }

/-- Replaces an interpreter. -/
def setInterp (m : Machine) (n : Nat) (i : Interp) : Machine :=
  { m with interps := m.interps.set n i }

/-- Opens a session of an interpreter. -/
def openSession (n : Nat) (m : Machine) : Except Error SessionKey × Machine :=
  match m.interps[n]? with
  | none => (.error .unknownHandle, m)
  | some i =>
    if i.finalized then (.error .closed, m)
    else
      let key : SessionKey := ⟨m.nextKey⟩
      (.ok key, { m.setInterp n { i with sessions := i.sessions.insert key [] } with
        nextKey := m.nextKey + 1 })

/-- Performs an operation in a session of an interpreter. -/
def perform (source : TextSource) (n : Nat) (key : SessionKey) (op : Op) (m : Machine) :
    Except Error Response × Machine :=
  match m.interps[n]? with
  | none => (.error .unknownHandle, m)
  | some i =>
    let (result, e) := Engine.perform source key op ⟨m.heap, i⟩
    (result.mapError fun f => .runtime f.fault, { m.setInterp n e.interp with heap := e.heap })

/-- Closes a session of an interpreter. -/
def closeSession (n : Nat) (key : SessionKey) (m : Machine) : Machine :=
  match m.interps[n]? with
  | none => m
  | some i => m.setInterp n { i with sessions := i.sessions.erase key }

def setResolver (n : Nat) (r : Resolver) (m : Machine) : Machine :=
  match m.interps[n]? with
  | none => m
  | some i => m.setInterp n { i with resolver := some r }

/-- Finalizes an interpreter: it opens no further sessions. Its observer is told even if the
finalizer fails. -/
def finalize (n : Nat) (m : Machine) : Except Error Unit × Machine :=
  match m.interps[n]? with
  | none => (.error .unknownHandle, m)
  | some i =>
    let m := m.setInterp n { i with finalized := true }
    let m := match i.observer with
      | some o => m.record (.image o.loader o.image .finalized)
      | none => m
    (if i.failFinalize then .error (.runtime ⟨.runtime, "finalizer raised during shutdown"⟩)
      else .ok (), m)

end Machine

end InstancePool
