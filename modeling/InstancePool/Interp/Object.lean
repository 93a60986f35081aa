import InstancePool.Table
import InstancePool.Value.Basic

/-!
Objects of the interpreters, and the heap that numbers them. The heap only grows: an object keeps
its number, and all that ever changes is the members of a namespace.
-/

namespace InstancePool

/-- The functions that every interpreter provides. -/
inductive Builtin where
  | add
  | len
  | echo
  | fail
  | id
  | list
  deriving Repr, DecidableEq

namespace Builtin

/-- All builtins, in the order in which an interpreter makes them. -/
def all : List Builtin := [.add, .len, .echo, .fail, .id, .list]

def name : Builtin → String
  | .add => "add"
  | .len => "len"
  | .echo => "echo"
  | .fail => "fail"
  | .id => "id"
  | .list => "list"

/-- The name of a builtin in complaints about its arguments. -/
def label : Builtin → String
  | .add => "Add"
  | .len => "Len"
  | .echo => "Echo"
  | .fail => "Fail"
  | .id => "Id"
  | .list => "List"

end Builtin

/-- The position of an object in the heap. -/
abbrev ObjectIndex := Nat

inductive Object where
  | value (v : Value)
  | builtin (b : Builtin)
  /-- A namespace; its members are objects of the same heap. -/
  | space (members : Table String ObjectIndex)
  deriving Repr, DecidableEq

def Object.typeName : Object → String
  | .value v => v.typeName
  | .builtin _ => "builtin"
  | .space _ => "namespace"

/-- All objects made so far, oldest first. -/
structure Heap where
  objects : List Object := []
  deriving Repr, DecidableEq

namespace Heap

/-- The object at an index that was handed out before. -/
def get (h : Heap) (n : ObjectIndex) : Object := (h.objects[n]?).getD (.value .null)

/-- Makes a new object. -/
def alloc (h : Heap) (o : Object) : ObjectIndex × Heap := (h.objects.length, ⟨h.objects ++ [o]⟩)

/-- Replaces an object. -/
def set (h : Heap) (n : ObjectIndex) (o : Object) : Heap := ⟨h.objects.set n o⟩

/-- Makes an object of each value and binds the names to them; the last one for a name stays. -/
def allocBindings (h : Heap) : List (String × Value) → Table String ObjectIndex × Heap :=
  go Table.empty h
where
  /-- Goes on with the members bound so far. -/
  go (members : Table String ObjectIndex) (h : Heap) :
      List (String × Value) → Table String ObjectIndex × Heap
    | [] => (members, h)
    | (name, v) :: rest =>
      let (n, h) := h.alloc (.value v)
      go (members.insert name n) h rest

/-- Makes an object of each builtin and binds their names. -/
def allocBuiltins (h : Heap) : List Builtin → Table String ObjectIndex × Heap :=
  go Table.empty h
where
  /-- Goes on with the members bound so far. -/
  go (members : Table String ObjectIndex) (h : Heap) :
      List Builtin → Table String ObjectIndex × Heap
    | [] => (members, h)
    | b :: rest =>
      let (n, h) := h.alloc (.builtin b)
      go (members.insert b.name n) h rest

end Heap

/-- The number by which an object is known: the first object of the process has number one. -/
def identity (n : ObjectIndex) : Nat := n + 1

end InstancePool
