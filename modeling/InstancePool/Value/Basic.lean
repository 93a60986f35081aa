import InstancePool.Number.Binary64

/-!
The values that can be copied from one interpreter to another: primitives, texts, and sequences of
those. `Value.depth` counts how far lists are nested; only values of depth at most `maxDepth` can be
written to the wire or to tagged text.
-/

namespace InstancePool

inductive Value where
  | null
  | bool (b : Bool)
  | int (i : Int64)
  | float (x : Binary64)
  | str (s : String)
  | list (items : List Value)
  deriving Repr, Inhabited

namespace Value

/-- The largest number of nested lists that a written value may have. -/
def maxDepth : Nat := 64

mutual

/-- How many lists are nested in a value. -/
def depth : Value → Nat
  | .list items => depthList items + 1
  | _ => 0

/-- The largest depth among some values. -/
def depthList : List Value → Nat
  | [] => 0
  | v :: vs => max v.depth (depthList vs)

end

/-- The name of a value's type. -/
def typeName : Value → String
  | .null => "none"
  | .bool _ => "bool"
  | .int _ => "int"
  | .float _ => "float"
  | .str _ => "str"
  | .list _ => "list"

def isNull : Value → Bool
  | .null => true
  | _ => false

def int? : Value → Option Int64
  | .int i => some i
  | _ => none

def str? : Value → Option String
  | .str s => some s
  | _ => none

def list? : Value → Option (List Value)
  | .list items => some items
  | _ => none

mutual

/-- Equality as the interpreters see it: floats compare as numbers. -/
def equal : Value → Value → Bool
  | .null, .null => true
  | .bool a, .bool b => a = b
  | .int a, .int b => a = b
  | .float x, .float y => x.equal y
  | .str s, .str t => s = t
  | .list xs, .list ys => equalList xs ys
  | _, _ => false

/-- Equality of sequences, item by item. -/
def equalList : List Value → List Value → Bool
  | [], [] => true
  | x :: xs, y :: ys => x.equal y && equalList xs ys
  | _, _ => false

end

mutual

/-- Whether two values are the same in every bit. -/
def decEq : (a b : Value) → Decidable (a = b)
  | .null, .null => .isTrue rfl
  | .bool a, .bool b => decidable_of_iff (a = b) (by simp)
  | .int a, .int b => decidable_of_iff (a = b) (by simp)
  | .float a, .float b => decidable_of_iff (a = b) (by simp)
  | .str a, .str b => decidable_of_iff (a = b) (by simp)
  | .list xs, .list ys =>
    match decEqList xs ys with
    | .isTrue h => .isTrue (by rw [h])
    | .isFalse h => .isFalse (by simp [h])
  | .null, .bool _ | .null, .int _ | .null, .float _ | .null, .str _ | .null, .list _
  | .bool _, .null | .bool _, .int _ | .bool _, .float _ | .bool _, .str _ | .bool _, .list _
  | .int _, .null | .int _, .bool _ | .int _, .float _ | .int _, .str _ | .int _, .list _
  | .float _, .null | .float _, .bool _ | .float _, .int _ | .float _, .str _ | .float _, .list _
  | .str _, .null | .str _, .bool _ | .str _, .int _ | .str _, .float _ | .str _, .list _
  | .list _, .null | .list _, .bool _ | .list _, .int _ | .list _, .float _ | .list _, .str _ =>
    .isFalse (by simp)

/-- Whether two sequences are the same in every bit. -/
def decEqList : (xs ys : List Value) → Decidable (xs = ys)
  | [], [] => .isTrue rfl
  | [], _ :: _ | _ :: _, [] => .isFalse (by simp)
  | x :: xs, y :: ys =>
    match decEq x y, decEqList xs ys with
    | .isTrue h, .isTrue hs => .isTrue (by rw [h, hs])
    | .isFalse h, _ => .isFalse (by simp [h])
    | _, .isFalse hs => .isFalse (by simp [hs])

end

instance : DecidableEq Value := decEq

end Value

end InstancePool
