import InstancePool.Host.Handle
import InstancePool.LoadFlags
import InstancePool.Payload
import InstancePool.Text.Lines

/-!
What instances show to their environment, and what the environment tells them. It can refuse any of
them.
-/

namespace InstancePool

/-- What an instance shows. -/
structure InstanceInfo where
  /-- The position in its manager. -/
  number : Nat
  path : String
  customLoader : Bool
  /-- The files kept for the instance: the image, then its plugins. -/
  images : List ExtractedImage
  deriving Repr, DecidableEq

namespace InstanceInfo

def displayNumber (number : Nat) : String := "instance-" ++ toString number

def flags (i : InstanceInfo) : LoadFlags := .forImage i.customLoader

def describe (i : InstanceInfo) : String :=
  "Instance \x7b id: InstanceId(" ++ toString i.number ++ "), path: " ++ Text.quoted i.path ++
    ", flags: " ++ i.flags.describe ++ " \x7d"

end InstanceInfo

/-- What instances are told on start, and whether they are accepted. -/
structure Environment where
  searchPaths : List String := []
  /-- Why an instance is refused, outermost reason first. -/
  refusal : InstanceInfo → Option (List String) := fun _ => none
  /-- The instances that were shown, in order. -/
  configured : List InstanceInfo := []

namespace Environment

/-- The setting that lists search paths. -/
def setting : String := "MANYRUN_SEARCH_PATH"

/-- The search paths that a setting lists between colons; empty ones do not count. -/
def pathsOfSetting (value : Option String) : List String :=
  ((Text.split ':' (value.getD "").toList).filter (· ≠ [])).map String.ofList

/-- The rule that refuses the instances with a given number. -/
def refusing (number : Nat) (reasons : List String) (i : InstanceInfo) : Option (List String) :=
  if i.number = number then some reasons else none

/-- Adds a search path. -/
def withSearchPath (e : Environment) (path : String) : Environment :=
  { e with searchPaths := e.searchPaths ++ [path] }

end Environment

end InstancePool
