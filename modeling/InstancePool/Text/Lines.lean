import InstancePool.Text.Blank

/-!
Lines of a text, and the trimming and splitting that lines and paths need.
-/

namespace InstancePool.Text

/-- Drops white space at both ends. -/
def trim (s : List Char) : List Char :=
  ((s.dropWhile isBlank).reverse.dropWhile isBlank).reverse

/-- A carriage return before the end of a line belongs to the line break. -/
def dropReturn (s : List Char) : List Char :=
  if s.getLast? = some '\r' then s.dropLast else s

/-- Splits a text after every line feed; `line` holds the current line, last character first. The
text after the last line feed is a line only if it is not empty, and it keeps a carriage return. -/
def linesFrom (line : List Char) : List Char → List (List Char)
  | [] => if line = [] then [] else [line.reverse]
  | c :: s =>
    if c = '\n' then dropReturn line.reverse :: linesFrom [] s else linesFrom (c :: line) s

/-- The lines of a text, without their line breaks. -/
def lines (s : List Char) : List (List Char) := linesFrom [] s

/-- The text before and after the first `mark`. -/
def splitAt? (mark : Char) (s : List Char) : Option (List Char × List Char) :=
  match s.dropWhile (· ≠ mark) with
  | [] => none
  | _ :: after => some (s.takeWhile (· ≠ mark), after)

/-- Cuts a text at every `mark`. -/
def split (mark : Char) : List Char → List (List Char)
  | [] => [[]]
  | c :: cs =>
    if c = mark then [] :: split mark cs
    else
      match split mark cs with
      | piece :: pieces => (c :: piece) :: pieces
      | [] => [[c]]

-- An empty sum is the literal, whatever other zeros are in scope.
attribute [local instance (100000)] Zero.ofOfNat0

/-- The number of bytes of a text in UTF-8. -/
def utf8Size (s : List Char) : Nat := (s.map Char.utf8Size).sum

end InstancePool.Text
