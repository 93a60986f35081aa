import InstancePool.Resolver

/-!
Registries of module texts. Every manager starts with one module of its own, which a registered
module of the same name replaces.
-/

namespace InstancePool

namespace Registry

/-- The module for the names of arguments, which every manager registers. -/
def argumentModule : String := "GetArgumentNamesModule"

/-- The function in that module. -/
def argumentFunction : String := "getArgumentNames"

/-- The text of that module. -/
def argumentSource : String :=
  "\n".intercalate [
    "from inspect import signature",
    "from typing import Callable, Optional",
    "",
    "",
    "def getArgumentNames(function: Callable) -> Optional[list]:",
    "    names = list(signature(function).parameters.keys())",
    "    if len(names) == 0:",
    "        return None",
    "    return names",
    ""]

/-- A registry with the given modules, of which the last one for a name counts. -/
def create (modules : List (String × String)) : Sources :=
  Table.ofList ((argumentModule, argumentSource) :: modules)

end Registry

end InstancePool
