import InstancePool.Tagged.Json
import InstancePool.Value.Basic

/-!
The tagged form of a value: an object whose only member is named for the constructor, or the bare
name where there is no content. Both directions allow at most `maxDepth` nested lists.
-/

namespace InstancePool.Tagged

/-- What a text that is no tagged value, or a value too deep for one, comes to. -/
inductive Error where
  | tooDeep
  | malformed
  deriving Repr, DecidableEq

def Error.message : Error → String
  | .tooDeep => "recursion limit exceeded"
  | .malformed => "not a tagged value"

mutual

/-- The tagged form with at most `depth` nested lists. -/
def tree : Nat → Value → Except Error Json
  | _, .null => .ok (.str "None")
  | _, .bool b => .ok (.obj [("Bool", .bool b)])
  | _, .int i => .ok (.obj [("Int", .int i.toInt)])
  | _, .float x => .ok (.obj [("Float", .real x)])
  | _, .str s => .ok (.obj [("Str", .str s)])
  | 0, .list _ => .error .tooDeep
  | depth + 1, .list items => (trees depth items).map fun js => .obj [("List", .arr js)]

def trees : Nat → List Value → Except Error (List Json)
  | _, [] => .ok []
  | depth, v :: vs => do
    let j ← tree depth v
    let js ← trees depth vs
    pure (j :: js)

end

/-- The integer of 64 bits that a tree holds. -/
def int64? : Json → Option Int64
  | .int i => if -2 ^ 63 ≤ i ∧ i < 2 ^ 63 then some (Int64.ofInt i) else none
  | _ => none

/-- The float that a tree holds; an integer is rounded to one. -/
def float? : Json → Option Binary64
  | .int i => some (Binary64.ofInt i)
  | .real x => some x
  | _ => none

mutual

/-- Reads the tagged form with at most `depth` nested lists. -/
def ofTree : Nat → Json → Except Error Value
  | _, .str "None" => .ok .null
  | _, .obj [("None", .null)] => .ok .null
  | _, .obj [("Bool", .bool b)] => .ok (.bool b)
  | _, .obj [("Int", j)] => ((int64? j).map Value.int).elim (.error .malformed) .ok
  | _, .obj [("Float", j)] => ((float? j).map Value.float).elim (.error .malformed) .ok
  | _, .obj [("Str", .str s)] => .ok (.str s)
  | 0, .obj [("List", _)] => .error .tooDeep
  | depth + 1, .obj [("List", .arr js)] => (ofTrees depth js).map Value.list
  | _, _ => .error .malformed

def ofTrees : Nat → List Json → Except Error (List Value)
  | _, [] => .ok []
  | depth, j :: js => do
    let v ← ofTree depth j
    let vs ← ofTrees depth js
    pure (v :: vs)

end

/-- The text of a value. -/
def write (v : Value) : Except Error String := (tree Value.maxDepth v).map Json.render

/-- The value of a text. If nothing else is said the reader is told to have no limit for layers: texts of 64 lists,
which take 129 layers, are read, and the usual limit would refuse them. The limit for lists stands in for it. -/
def read (s : String) (rule : FloatRule := FloatRule.leading) (limit : Option Nat := none) :
    Except Error Value :=
  match Json.parse? s rule limit with
  | some j => ofTree Value.maxDepth j
  | none => .error .malformed

end InstancePool.Tagged
