import InstancePool.Host.Basic

/-!
Loading and tearing down an instance. Loading extracts the image, opens it, tells an isolated image
its handle, extracts the plugins, makes the interpreter and shows the instance to the environment.
Teardown finalizes the interpreter, unloads the extensions of an isolated image and closes it; an
image whose teardown fails midway stays open for good.
-/

namespace InstancePool

open HostM

namespace Host

/-- Makes a file of a payload. -/
def extract (source : SourceId) (p : Payload) : HostM ExtractedImage :=
  of fun h =>
    match h.sources[source]? with
    | none => (.error .unknownHandle, h)
    | some s => ((s.extract p).1, { h with sources := h.sources.set source (s.extract p).2 })

/-- Makes files of payloads, up to the first that fails. -/
def extractEach (source : SourceId) : List Payload → HostM (List ExtractedImage × Option Error)
  | [] => pure ([], none)
  | p :: ps => do
    match ← outcome (extract source p) with
    | .error e => pure ([], some e)
    | .ok image =>
      let (images, failure) ← extractEach source ps
      pure (image :: images, failure)

/-- Lets go of extracted files; the guarded ones go away. -/
def release : List ExtractedImage → HostM Unit
  | [] => pure ()
  | image :: images => do
    if image.guarded then
      modify fun h => { h with sources := h.sources.map (Source.forget image.path) }
      record (.released image.path)
    release images

def getLoader (l : LoaderId) : HostM Loader := find fun h => h.loaders[l]?

/-- Opens an image and returns its number. -/
def openImage (l : LoaderId) (path : String) (flags : LoadFlags) : HostM Nat := do
  let loader ← getLoader l
  modify fun h =>
    { h with loaders := h.loaders.set l { loader with attempts := loader.attempts + 1 } }
  match (loader.behaviour loader.attempts).refusal path with
  | some e => throw e
  | none =>
    record (.image l loader.attempts (.opened path flags))
    pure loader.attempts

/-- Uses an entry point of an image, and returns how the image behaves. -/
def useEntryPoint (l : LoaderId) (image : Nat) (point : EntryPoint) (event : ImageEvent) :
    HostM ImageBehaviour := do
  let loader ← getLoader l
  match (loader.behaviour image).trouble point with
  | some e => throw e
  | none =>
    record (.image l image event)
    pure (loader.behaviour image)

/-- Tells an image its own handle. -/
def bindSelf (l : LoaderId) (image : Nat) : HostM Unit := do
  let _ ← useEntryPoint l image .bind .bound

/-- Makes the interpreter of an image. -/
def newInterp (l : LoaderId) (image : Nat) (searchPaths plugins : List String) : HostM Link := do
  let behaviour ← useEntryPoint l image .factory (.created searchPaths plugins)
  let n ← ofMachine fun m =>
    let (n, m) := m.create searchPaths behaviour.failFinalize (some ⟨l, image⟩)
    (.ok n, m)
  if behaviour.throughChannel then .channel <$> exportInterp n else pure (.direct n)

/-- Unloads the extensions of an image. -/
def flush (l : LoaderId) (image : Nat) : HostM Unit := do
  let behaviour ← useEntryPoint l image .flush .flushed
  match behaviour.flushFailure with
  | some e => throw e
  | none => pure ()

/-- Shows an instance to an environment. -/
def configure (env : EnvironmentId) (info : InstanceInfo) : HostM Unit := do
  let e ← find fun h => h.environments[env]?
  modify fun h =>
    { h with
      environments := h.environments.set env { e with configured := e.configured ++ [info] } }
  match e.refusal info with
  | some reasons =>
    throw (.configure
      (InstanceInfo.displayNumber info.number ++ ": " ++ ": ".intercalate reasons))
  | none => pure ()

end Host

namespace Instance

open Host

/-- Does a step of the teardown; if it fails, the image stays open for good. -/
def teardownStep (l : LoaderId) (image : Nat) (what : String) (x : HostM Unit) : HostM Unit := do
  match ← outcome x with
  | .ok () => pure ()
  | .error e =>
    record (.image l image .abandoned)
    throw (.teardown (what ++ ": " ++ e.message))

/-- Tears an instance down; one without an image is torn down already. -/
def teardown (i : Instance) : HostM Unit := do
  match i.image with
  | none => pure ()
  | some image =>
    match i.link with
    | none => pure ()
    | some link =>
      teardownStep i.loader image "finalizing runtime" link.finalize
      if i.info.customLoader then
        teardownStep i.loader image "flushing native libraries" (flush i.loader image)
    record (.image i.loader image .closed)

/-- The instance after its teardown. -/
def spent (i : Instance) : Instance := { i with image := none, link := none }

/-- Tears an instance down and lets go of its files. -/
def close (i : Instance) : HostM Unit := ensuring i.teardown (release i.info.images)

/-- Opens a session of the interpreter. -/
def openSession (i : Instance) : HostM (Link × SessionKey) := do
  match i.link with
  | none => throw .closed
  | some link => do
    let key ← link.openSession
    pure (link, key)

def setResolver (r : Resolver) (i : Instance) : HostM Unit := do
  match i.link with
  | none => throw .closed
  | some link => link.setResolver r

/-- Runs an action in a session of its own. -/
def withSession {α : Type} (i : Instance) (f : Link → SessionKey → HostM α) : HostM α := do
  match i.link with
  | none => throw .closed
  | some link => link.withSession (f link)

/-- Loads an instance. When a step fails after the image was opened, the files go first and the
image after them; only a refusal by the environment tears the instance down before. -/
def load (number : Nat) (spec : ImageSpec) (env : EnvironmentId) : HostM Instance := do
  let main ← extract spec.source spec.payload
  let image ← onFailure
    (openImage spec.loader main.path (.forImage main.customLoader)) (release [main])
  let opened : Instance :=
    { info := ⟨number, main.path, main.customLoader, [main]⟩
      loader := spec.loader
      image := some image }
  let giveUp (images : List ExtractedImage) : HostM Unit := do
    release images
    ignoring opened.teardown
  if main.customLoader then
    onFailure (bindSelf spec.loader image) (giveUp [main])
  let (plugins, failure) ← extractEach spec.source spec.plugins
  let images := main :: plugins
  if let some e := failure then
    giveUp images
    throw e
  let environment ← find fun h => h.environments[env]?
  let link ← onFailure
    (newInterp spec.loader image environment.searchPaths (plugins.map (·.path))) (giveUp images)
  let loaded : Instance :=
    { opened with info := { opened.info with images }, link := some link }
  onFailure (configure env loaded.info) (ignoring loaded.close)
  pure loaded

end Instance

namespace Host

/-- Keeps an instance and returns its number. -/
def addInstance (i : Instance) : HostM InstanceId :=
  of fun h => (.ok h.instances.length, { h with instances := h.instances ++ [i] })

def getInstance (n : InstanceId) : HostM Instance := find fun h => h.instances[n]?

/-- Loads an instance that belongs to no manager. -/
def loadInstance (number : Nat) (spec : ImageSpec) (env : EnvironmentId) : HostM InstanceId := do
  let i ← Instance.load number spec env
  addInstance i

/-- Tears an instance down and reports a failure. -/
def closeInstance (n : InstanceId) : HostM Unit := do
  let i ← getInstance n
  modify fun h => { h with instances := h.instances.set n i.spent }
  i.close

/-- Tears an instance down; a failure is lost. -/
def dropInstance (n : InstanceId) : HostM Unit := ignoring (closeInstance n)

/-- Tears instances down in order; failures are lost. -/
def dropInstances : List InstanceId → HostM Unit
  | [] => pure ()
  | n :: ns => do
    dropInstance n
    dropInstances ns

/-- Tears instances down in order and reports the first failure. -/
def closeInstances : List InstanceId → HostM Unit
  | [] => pure ()
  | n :: ns => do
    let first ← outcome (closeInstance n)
    let rest ← outcome (closeInstances ns)
    settle first
    settle rest

end Host

end InstancePool
