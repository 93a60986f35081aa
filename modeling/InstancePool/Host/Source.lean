import InstancePool.Error
import InstancePool.Host.FileTree
import InstancePool.Payload

/-!
Sources of payloads. A stock follows a rule, and the simulated one invents a new path for each
extraction; a directory copies the first section that it holds into a new file, which is there until
the image is released.
-/

namespace InstancePool

/-- A source that follows a rule. -/
structure Stock where
  /-- What a payload comes to after so many were extracted. -/
  rule : Nat → Payload → Except Error ExtractedImage
  /-- How many payloads were extracted. -/
  extracted : Nat := 0

namespace Stock

/-- The image of a section after `n` others, under a path of its own. -/
def image (n : Nat) (c : Section) : ExtractedImage where
  path := "/mock/" ++ toString n ++ "/" ++ c.fileName
  customLoader := c.customLoader

/-- A source that has everything but the payload named `missing`. It takes the section number
`preferred` of a payload, and the first of one that has none there. -/
def simulated (preferred : Nat) (missing : Option String) : Stock where
  rule n p :=
    match (p.sections[preferred]?).or p.sections.head? with
    | some c =>
      if missing = some p.name then .error (.extract p.name "not embedded in this build")
      else .ok (image n c)
    | none => .error (.extract p.name "not embedded in this build")

def extract (s : Stock) (p : Payload) : Except Error ExtractedImage × Stock :=
  match s.rule s.extracted p with
  | .ok image => (.ok image, { s with extracted := s.extracted + 1 })
  | .error e => (.error e, s)

end Stock

/-- A directory of images, and where the copies go. -/
structure Directory where
  path : String
  tree : FileTree
  /-- The path of the directory that takes the copies, by default the one for temporary files. -/
  scratch : String := "/tmp"
  /-- The copies that exist, by path. -/
  copies : Table String (List UInt8) := Table.empty
  /-- How many copies were made. -/
  made : Nat := 0
  deriving Repr, DecidableEq

namespace Directory

/-- The path of the image of a section. -/
def imagePath (d : Directory) (c : Section) : String := joinPath d.path c.fileName

/-- The content of the image of a section, if there is such a file. -/
def image? (d : Directory) (c : Section) : Option (List UInt8) :=
  (d.tree.walk (d.imagePath c)).bind d.tree.file?

/-- The first section that is there, with its content. -/
def find? (d : Directory) : List Section → Option (Section × List UInt8)
  | [] => none
  | c :: cs =>
    match d.image? c with
    | some content => some (c, content)
    | none => d.find? cs

/-- The digits that make the name of a copy unique, at least six. -/
def serial (n : Nat) : String :=
  let digits := Nat.toDigits 10 n
  String.ofList (List.replicate (6 - digits.length) '0' ++ digits)

/-- The name of the next copy. One that holds a slash leads into a directory further down. -/
def nextName (d : Directory) (p : Payload) : String :=
  "manyrun-" ++ p.name ++ "-" ++ serial d.made ++ ".so"

/-- The path of the next copy. -/
def nextPath (d : Directory) (p : Payload) : String := joinPath d.scratch (d.nextName p)

def extract (d : Directory) (p : Payload) : Except Error ExtractedImage × Directory :=
  match d.find? p.sections with
  | none => (.error (.extract p.name ("no image for any section in " ++ d.path)), d)
  | some (c, content) =>
    if d.tree.canCreate (d.nextPath p) then
      (.ok ⟨d.nextPath p, c.customLoader, true⟩,
        { d with copies := d.copies.insert (d.nextPath p) content, made := d.made + 1 })
    else (.error (.extract p.name ("copying " ++ d.imagePath c)), d)

/-- The path of the directory that a setting names; without one it is the current directory. -/
def pathOfSetting (value : Option String) : String := value.getD "."

/-- The setting that names the directory. -/
def setting : String := "MANYRUN_PAYLOAD_DIR"

end Directory

inductive Source where
  | stock (s : Stock)
  | directory (d : Directory)

namespace Source

def extract (p : Payload) : Source → Except Error ExtractedImage × Source
  | .stock s => ((s.extract p).1, .stock (s.extract p).2)
  | .directory d => ((d.extract p).1, .directory (d.extract p).2)

/-- The source after a guarded file went away. -/
def forget (path : String) : Source → Source
  | .stock s => .stock s
  | .directory d => .directory { d with copies := d.copies.erase path }

end Source

end InstancePool
