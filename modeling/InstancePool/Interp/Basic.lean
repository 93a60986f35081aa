import InstancePool.Interp.Failure
import InstancePool.Resolver

/-!
The state of one interpreter. Its objects live in the heap of the process; it knows them by index,
through its modules, the objects loaded for identifiers, and the slots of its sessions.
-/

namespace InstancePool

/-- Who is told that an interpreter was finalized: the `image`th image of a loader. -/
structure Observer where
  loader : Nat
  image : Nat
  deriving Repr, DecidableEq

structure Interp where
  /-- The namespace that instances are tagged through. -/
  version : ObjectIndex
  modules : Table String ObjectIndex
  resolver : Option Resolver
  /-- The objects loaded for identifiers. -/
  loaded : Table ObjectId ObjectIndex
  /-- How many objects were read from their serialized form. -/
  restores : Nat
  /-- The objects that each open session handed out, in order. -/
  sessions : Table SessionKey (List ObjectIndex)
  finalized : Bool
  failFinalize : Bool
  searchPaths : List String
  observer : Option Observer
  deriving Repr

/-- An interpreter together with the heap of the process. -/
structure Engine where
  heap : Heap
  interp : Interp
  deriving Repr

namespace Interp

/-- A fresh interpreter. Its first module holds the version namespace, its second the builtins. -/
def create (heap : Heap) (searchPaths : List String) (failFinalize : Bool)
    (observer : Option Observer) : Engine :=
  let (version, heap) := heap.alloc (.space Table.empty)
  let (runtime, heap) := heap.alloc (.space (Table.empty.insert "version" version))
  let (members, heap) := heap.allocBuiltins Builtin.all
  let (builtins, heap) := heap.alloc (.space members)
  { heap
    interp :=
      { version
        modules := (Table.empty.insert "runtime" runtime).insert "builtins" builtins
        resolver := none
        loaded := Table.empty
        restores := 0
        sessions := Table.empty
        finalized := false
        failFinalize
        searchPaths
        observer } }

/-- Whether an object is loaded for `id`. -/
def holds (i : Interp) (id : ObjectId) : Bool := i.loaded.contains id

/-- The number of open sessions. -/
def openSessions (i : Interp) : Nat := i.sessions.size

end Interp

/-- The value that the `instance` member of the version namespace holds. -/
def Engine.tag? (e : Engine) : Option Value :=
  match e.heap.get e.interp.version with
  | .space members =>
    match (members.get? "instance").map e.heap.get with
    | some (.value v) => some v
    | _ => none
  | _ => none

end InstancePool
