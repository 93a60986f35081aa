/-!
How an image is opened.
-/

namespace InstancePool

/-- Each flag is one bit of the loader's mode. -/
structure LoadFlags where
  /-- The symbols stay hidden from images opened later. -/
  hidden : Bool
  /-- Functions are resolved when first called. -/
  deferred : Bool
  /-- The image prefers its own symbols. -/
  isolated : Bool
  deriving Repr, DecidableEq

namespace LoadFlags

/-- The flags for an image; one with its own loader is isolated. -/
def forImage (customLoader : Bool) : LoadFlags := ⟨true, true, customLoader⟩

def bits (f : LoadFlags) : Nat :=
  (if f.hidden then 1 else 0) + (if f.deferred then 2 else 0) + (if f.isolated then 4 else 0)

/-- The names of the flags that are set. -/
def names (f : LoadFlags) : List String :=
  (if f.hidden then ["LOCAL"] else []) ++ (if f.deferred then ["LAZY"] else []) ++
    (if f.isolated then ["DEEPBIND"] else [])

def describe (f : LoadFlags) : String :=
  "LoadFlags(" ++ (if f.names = [] then "0x0" else " | ".intercalate f.names) ++ ")"

end LoadFlags

end InstancePool
