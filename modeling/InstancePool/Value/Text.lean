import InstancePool.Value.Basic
import InstancePool.Text.Quoted
import InstancePool.Number.FloatText

/-!
The two texts of a value: `display`, which the literal reader understands, and `describe`, which
names the constructor of every part.
-/

namespace InstancePool.Value

/-- Floats are written with the fewest digits that read back, positionally from 0.0001 to below
10^16, and a tie between two candidates goes up. -/
def floatLayout : FloatLayout where
  plainFrom := -4
  plainBelow := 16
  plusSign := false
  tie := .up

def floatChars (x : Binary64) : List Char :=
  if x.isNaN then "NaN".toList
  else if x.isInfinite then (if x.negative then "-inf" else "inf").toList
  else floatLayout.finiteChars x

def intChars (i : Int64) : List Char := (toString i.toInt).toList

mutual

/-- The text of a value. -/
def displayChars : Value → List Char
  | .null => "None".toList
  | .bool true => "True".toList
  | .bool false => "False".toList
  | .int i => intChars i
  | .float x => floatChars x
  | .str s => Text.quoteChars s.toList
  | .list items => '[' :: displayItems items ++ [']']

/-- The texts of some values, with a comma and a space between them. -/
def displayItems : List Value → List Char
  | [] => []
  | [v] => displayChars v
  | v :: vs => displayChars v ++ ',' :: ' ' :: displayItems vs

end

def display (v : Value) : String := String.ofList v.displayChars

mutual

/-- The text of a value with the constructor of every part. -/
def describe : Value → String
  | .null => "None"
  | .bool b => "Bool(" ++ toString b ++ ")"
  | .int i => "Int(" ++ String.ofList (intChars i) ++ ")"
  | .float x => "Float(" ++ String.ofList (floatChars x) ++ ")"
  | .str s => "Str(" ++ Text.quoted s ++ ")"
  | .list items => "List([" ++ describeItems items ++ "])"

def describeItems : List Value → String
  | [] => ""
  | [v] => describe v
  | v :: vs => describe v ++ ", " ++ describeItems vs

end

end InstancePool.Value
