import InstancePool.Value.Literal

/-!
Module texts: one binding `name = literal` a line. Blank lines and lines that start with `#` say
nothing.
-/

namespace InstancePool.ModuleText

/-- Why a line is not a binding. -/
inductive Problem where
  | notABinding
  | badLiteral (cause : Literal.Error)
  deriving Repr, DecidableEq

def Problem.message : Problem → String
  | .notABinding => "invalid syntax"
  | .badLiteral cause => cause.message

def isNameChar (c : Char) : Bool := Literal.isAlphanumeric c || c = '_'

def isName (s : List Char) : Bool := s ≠ [] && s.all isNameChar

/-- A trimmed line that says something: the name and the literal on the two sides of its first
equals sign. -/
def readBinding (line : List Char) : Except Problem (String × Value) :=
  match Text.splitAt? '=' line with
  | none => .error .notABinding
  | some (left, right) =>
    if isName (Text.trim left) then
      match Literal.parseChars right with
      | .ok v => .ok (String.ofList (Text.trim left), v)
      | .error cause => .error (.badLiteral cause)
    else .error .notABinding

/-- Whether a trimmed line says something. -/
def isRelevant (line : List Char) : Bool := line ≠ [] && line.head? ≠ some '#'

/-- Reads lines, the first of which has the given number, up to the first that is wrong: the
bindings before it, and its number and problem. -/
def readLines : Nat → List (List Char) → List (String × Value) × Option (Nat × Problem)
  | _, [] => ([], none)
  | number, line :: rest =>
    if isRelevant (Text.trim line) then
      match readBinding (Text.trim line) with
      | .error problem => ([], some (number, problem))
      | .ok binding =>
        let (bindings, problem) := readLines (number + 1) rest
        (binding :: bindings, problem)
    else readLines (number + 1) rest

/-- Reads a module text. -/
def read (source : String) : List (String × Value) × Option (Nat × Problem) :=
  readLines 1 (Text.lines source.toList)

end InstancePool.ModuleText
