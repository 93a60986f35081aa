import InstancePool.LoadFlags
import InstancePool.Channel.Image

/-!
Loaders of images. A loader is a rule that says how each image behaves: whether it opens, which of
its entry points can be used, and how it ends. A simulated loader can be told which steps fail; the
loader of the system finds nothing that it can open.
-/

namespace InstancePool

/-- The entry points of an image that a loader uses. -/
inductive EntryPoint where
  /-- Tells the image its own handle. -/
  | bind
  /-- Makes an interpreter. -/
  | factory
  /-- Unloads the extensions of the image. -/
  | flush
  deriving Repr, DecidableEq

/-- The name under which an image has an entry point. -/
def EntryPoint.symbol : EntryPoint → String
  | .bind => bindSymbol
  | .factory => factorySymbol
  | .flush => flushSymbol

/-- How one image behaves. -/
structure ImageBehaviour where
  /-- Why the image cannot be opened from a path. -/
  refusal : String → Option Error := fun _ => none
  /-- Why an entry point cannot be used. -/
  trouble : EntryPoint → Option Error := fun _ => none
  /-- The interpreter is reached through a channel. -/
  throughChannel : Bool := false
  failFinalize : Bool := false
  /-- What the unloading of the extensions comes to, if it fails. -/
  flushFailure : Option Error := none

structure Loader where
  /-- How the image of each attempt to open one behaves, counted from zero. -/
  behaviour : Nat → ImageBehaviour
  /-- How many attempts there were to open an image. -/
  attempts : Nat := 0

/-- Which steps of the images of a simulated loader fail. -/
structure LoaderOptions where
  throughChannel : Bool := false
  /-- The entry point that the images lack. -/
  missingSymbol : Option String := none
  /-- Which attempt to open an image is refused, counted from zero. -/
  refusedOpen : Option Nat := none
  failFinalize : Bool := false
  failFlush : Bool := false
  deriving Repr, DecidableEq

def LoaderOptions.behaviour (o : LoaderOptions) (attempt : Nat) : ImageBehaviour where
  refusal path :=
    if o.refusedOpen = some attempt then some (.load path "mock image refused to open") else none
  trouble point :=
    if o.missingSymbol = some point.symbol then some (.missingSymbol point.symbol) else none
  throughChannel := o.throughChannel
  failFinalize := o.failFinalize
  flushFailure := if o.failFlush then some (.teardown "mock flush failed") else none

namespace Loader

/-- A simulated loader. -/
def simulated (o : LoaderOptions) : Loader where
  behaviour := o.behaviour

/-- The loader of the system. -/
def system : Loader where
  behaviour _ := { refusal := fun path => some (.load path "not an image") }

end Loader

end InstancePool
