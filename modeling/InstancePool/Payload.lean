import InstancePool.Text.Quoted

/-!
Payloads: the images that a host carries, and the files that they become. A payload names the
sections that may hold it; the first one present wins and decides whether the image is isolated.
-/

namespace InstancePool

/-- A section that may hold an image. -/
structure Section where
  name : String
  /-- The image has its own loader. -/
  customLoader : Bool
  deriving Repr, DecidableEq

namespace Section

/-- A text without the dots at its start. -/
def dropDots : List Char → List Char
  | '.' :: cs => dropDots cs
  | cs => cs

/-- The name of the file that holds the image of a section. -/
def fileName (s : Section) : String := String.ofList (dropDots s.name.toList) ++ ".so"

end Section

/-- The symbols between which a linked image lies. -/
structure LinkedImage where
  first : String
  last : String
  customLoader : Bool
  deriving Repr, DecidableEq

structure Payload where
  name : String
  sections : List Section
  symbols : List LinkedImage := []
  deriving Repr, DecidableEq

namespace Payload

/-- The builds of the interpreter; only the full one has its own loader. -/
def builds : List (String × Bool) :=
  [("all", true), ("cuda", false), ("cpu", false), ("hip", false)]

/-- The interpreter. -/
def interpreter : Payload where
  name := "interpreter"
  sections := builds.map fun b => ⟨".manyrun_payload.interpreter_" ++ b.1, b.2⟩
  symbols := builds.map fun b =>
    ⟨"_binary_libmanyrun_interpreter_" ++ b.1 ++ "_so_start",
      "_binary_libmanyrun_interpreter_" ++ b.1 ++ "_so_end", b.2⟩

/-- An extension that is loaded into every instance. -/
def plugin (name : String) : Payload where
  name := name
  sections := [⟨".manyrun_payload." ++ name, false⟩]

end Payload

/-- A file made of a payload. -/
structure ExtractedImage where
  path : String
  customLoader : Bool
  /-- The file goes away with this record. -/
  guarded : Bool := false
  deriving Repr, DecidableEq

def describeBool (b : Bool) : String := if b then "true" else "false"

def ExtractedImage.describe (i : ExtractedImage) : String :=
  "ExtractedImage \x7b path: " ++ Text.quoted i.path ++ ", custom_loader: " ++
    describeBool i.customLoader ++ ", guarded: " ++ describeBool i.guarded ++ " \x7d"

end InstancePool
