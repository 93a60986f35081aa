import InstancePool.Table
import InstancePool.Text.Lines

/-!
Files and directories, and where paths lead. A path is followed name by name, and only a directory
leads further.
-/

namespace InstancePool

/-- What a path can stand for. -/
inductive FileEntry where
  | file (content : List UInt8)
  | directory
  deriving Repr, DecidableEq

/-- Files and directories by the names on the way to them. The top is the directory without names,
and what has something below it is a directory too. -/
structure FileTree where
  entries : Table (List String) FileEntry := Table.empty
  /-- The directory at which a path starts that does not start at the top. -/
  current : List String := []
  deriving Repr, DecidableEq

/-- The names on a path. -/
def pathNames (path : String) : List String := (Text.split '/' path.toList).map String.ofList

/-- Whether a path starts at the top. -/
def startsAtTop (path : String) : Bool := path.toList.head? = some '/'

/-- The path that goes on from a directory by another path. -/
def joinPath (directory path : String) : String :=
  if startsAtTop path then path
  else if directory = "" || directory.toList.getLast? = some '/' then directory ++ path
  else directory ++ "/" ++ path

namespace FileTree

/-- Whether a name stands for the directory in which it is used. -/
def isHere (name : String) : Bool := name = "" || name = "."

/-- The name of the directory above. The top is above itself. -/
def upward : String := ".."

def isDirectory (t : FileTree) (names : List String) : Bool :=
  names = [] || t.entries.get? names = some .directory ||
    t.entries.keys.any fun k => names.length < k.length && names.isPrefixOf k

/-- The content of a file. -/
def file? (t : FileTree) (names : List String) : Option (List UInt8) :=
  match t.entries.get? names with
  | some (.file content) => some content
  | _ => none

/-- Stores an entry. -/
def insert (t : FileTree) (names : List String) (e : FileEntry) : FileTree :=
  { t with entries := t.entries.insert names e }

/-- Stores an entry that is reached by some names from `here`, after a directory for every name on
the way that has no entry. Nothing is to be stored where the last name leads back. -/
def store (t : FileTree) (here : List String) (e : FileEntry) : List String → FileTree
  | [] => t
  | name :: names =>
    if isHere name then t.store here e names
    else if name = upward then t.store here.dropLast e names
    else if names = [] then t.insert (here ++ [name]) e
    else if t.entries.contains (here ++ [name]) then t.store (here ++ [name]) e names
    else (t.insert (here ++ [name]) .directory).store (here ++ [name]) e names

/-- The directory at which a path starts. -/
def startOf (t : FileTree) (path : String) : List String :=
  if startsAtTop path then [] else t.current

/-- The tree with the given entries, stored in turn. -/
def ofEntries (entries : List (String × FileEntry)) : FileTree :=
  entries.foldl (fun t e => t.store (t.startOf e.1) e.2 (pathNames e.1)) {}

/-- Follows one name from a directory; what it leads to need not exist. -/
def step (t : FileTree) (here : List String) (name : String) : Option (List String) :=
  if !t.isDirectory here then none
  else if isHere name then some here
  else if name = upward then some here.dropLast
  else some (here ++ [name])

/-- The longest path that can be followed, in bytes. -/
def maxPathSize : Nat := 4095

/-- The longest name that a file may have, in bytes. -/
def maxNameSize : Nat := 255

/-- Whether a path can be followed at all. -/
def isValidPath (path : String) : Bool :=
  path ≠ "" && path.utf8ByteSize ≤ maxPathSize && !path.toList.contains '\x00'

/-- Follows a path to its end, which need not exist. -/
def walk (t : FileTree) (path : String) : Option (List String) :=
  if isValidPath path then (pathNames path).foldlM t.step (t.startOf path) else none

/-- Whether a path can become that of a new file. -/
def canCreate (t : FileTree) (path : String) : Bool :=
  match t.walk path with
  | some names => ((names.getLast?).getD "").utf8ByteSize ≤ maxNameSize
  | none => false

end FileTree

end InstancePool
