import InstancePool.Proofs.Host.ActionSteps

/-!
What loading instances comes to, told from the source, the loader and the environment alone: no
interpreter is made, and nothing is cleaned up. A rehearsal ends at the first step that fails.
-/

namespace InstancePool

open HostM

/-- What instances are loaded with, and what has happened to images on the way. -/
structure Supplies where
  source : Source
  loader : Loader
  environment : Environment
  journal : List JournalEntry := []

/-- Steps of loading, up to the first that fails. -/
abbrev Rehearsal (α : Type) := ExceptT Error (StateM Supplies) α

namespace Rehearsal

variable {α β : Type}

/-- A step given by its outcome and the supplies that it leaves. -/
def of (f : Supplies → Except Error α × Supplies) : Rehearsal α := f

/-- What a rehearsal comes to with some supplies. -/
def on (w : Supplies) (x : Rehearsal α) : Except Error α × Supplies := x w

def extract (p : Payload) : Rehearsal ExtractedImage :=
  of fun w => ((w.source.extract p).1, { w with source := (w.source.extract p).2 })

/-- Opens the next image of the loader and returns its number. -/
def openImage (l : LoaderId) (path : String) (flags : LoadFlags) : Rehearsal Nat :=
  of fun w =>
    let image := w.loader.attempts
    let tried := { w with loader := { w.loader with attempts := image + 1 } }
    match (w.loader.behaviour image).refusal path with
    | some e => (.error e, tried)
    | none =>
      (.ok image, { tried with journal := w.journal ++ [.image l image (.opened path flags)] })

def useEntryPoint (l : LoaderId) (image : Nat) (point : EntryPoint) (event : ImageEvent) :
    Rehearsal Unit :=
  of fun w =>
    match (w.loader.behaviour image).trouble point with
    | some e => (.error e, w)
    | none => (.ok (), { w with journal := w.journal ++ [.image l image event] })

def searchPaths : Rehearsal (List String) := of fun w => (.ok w.environment.searchPaths, w)

def configure (info : InstanceInfo) : Rehearsal Unit :=
  of fun w =>
    let asked := { w with environment :=
      { w.environment with configured := w.environment.configured ++ [info] } }
    match w.environment.refusal info with
    | some reasons =>
      (.error (.configure
        (InstanceInfo.displayNumber info.number ++ ": " ++ ": ".intercalate reasons)), asked)
    | none => (.ok (), asked)

/-- The steps of loading the instance with the given number. -/
def member (c : ImageSpec) (number : Nat) : Rehearsal InstanceInfo := do
  let main ← extract c.payload
  let image ← openImage c.loader main.path (.forImage main.customLoader)
  if main.customLoader then useEntryPoint c.loader image .bind .bound
  let plugins ← c.plugins.mapM extract
  useEntryPoint c.loader image .factory (.created (← searchPaths) (plugins.map (·.path)))
  let info : InstanceInfo := ⟨number, main.path, main.customLoader, main :: plugins⟩
  configure info
  pure info

/-- The steps of loading `count` instances with the numbers from `number` on. -/
def members (c : ImageSpec) : (number count : Nat) → Rehearsal (List InstanceInfo)
  | _, 0 => pure []
  | number, count + 1 => do
    let info ← member c number
    let infos ← members c (number + 1) count
    pure (info :: infos)

theorem on_bind (w : Supplies) (x : Rehearsal α) (f : α → Rehearsal β) :
    on w (x >>= f) =
      match on w x with
      | (.ok a, w') => on w' (f a)
      | (.error e, w') => (.error e, w') := by
  change (ExceptT.bindCont f (x w).1) (x w).2 = _
  unfold on
  generalize x w = r
  rcases r with ⟨a | e, w'⟩ <;> rfl

theorem on_bind_ok {w w' : Supplies} {x : Rehearsal α} {a : α} (hx : on w x = (.ok a, w'))
    (f : α → Rehearsal β) : on w (x >>= f) = on w' (f a) := by
  rw [on_bind, hx]

theorem on_bind_error {w w' : Supplies} {x : Rehearsal α} {e : Error}
    (hx : on w x = (.error e, w')) (f : α → Rehearsal β) : on w (x >>= f) = (.error e, w') := by
  rw [on_bind, hx]

theorem on_bind_inv {w w'' : Supplies} {x : Rehearsal α} {f : α → Rehearsal β} {b : β}
    (h : on w (x >>= f) = (.ok b, w'')) :
    ∃ a w', on w x = (.ok a, w') ∧ on w' (f a) = (.ok b, w'') := by
  rw [on_bind] at h
  rcases hx : on w x with ⟨e | a, w'⟩
  · rw [hx] at h
    cases h
  · rw [hx] at h
    exact ⟨a, w', rfl, h⟩

theorem openImage_cases (l : LoaderId) (path : String) (flags : LoadFlags) (w : Supplies) :
    (∃ e, on w (openImage l path flags) =
        (.error e, { w with loader := { w.loader with attempts := w.loader.attempts + 1 } })) ∨
      on w (openImage l path flags) = (.ok w.loader.attempts, { w with
        loader := { w.loader with attempts := w.loader.attempts + 1 }
        journal := w.journal ++ [.image l w.loader.attempts (.opened path flags)] }) := by
  simp only [on, openImage, of]
  cases (w.loader.behaviour w.loader.attempts).refusal path with
  | some e => exact .inl ⟨e, rfl⟩
  | none => exact .inr rfl

theorem useEntryPoint_some (l : LoaderId) (event : ImageEvent) {image : Nat} {point : EntryPoint}
    {w : Supplies} {e : Error} (ht : (w.loader.behaviour image).trouble point = some e) :
    on w (useEntryPoint l image point event) = (.error e, w) := by
  simp only [on, useEntryPoint, of, ht]

theorem useEntryPoint_none (l : LoaderId) (event : ImageEvent) {image : Nat} {point : EntryPoint}
    {w : Supplies} (ht : (w.loader.behaviour image).trouble point = none) :
    on w (useEntryPoint l image point event) =
      (.ok (), { w with journal := w.journal ++ [.image l image event] }) := by
  simp only [on, useEntryPoint, of, ht]

theorem configure_cases (info : InstanceInfo) (w : Supplies) :
    ∃ r environment, on w (configure info) = (r, { w with environment }) := by
  simp only [on, configure, of]
  cases w.environment.refusal info <;> exact ⟨_, _, rfl⟩

end Rehearsal

/-- A host has the supplies for some images, and its journal goes on from `base` as they tell. -/
structure Host.Provides (base : List JournalEntry) (c : ImageSpec) (env : EnvironmentId)
    (w : Supplies) (h : Host) : Prop where
  source : h.sources[c.source]? = some w.source
  loader : h.loaders[c.loader]? = some w.loader
  environment : h.environments[env]? = some w.environment
  journal : h.machine.journal = base ++ w.journal

/-- The host with other supplies for some images. -/
def Host.supply (h : Host) (base : List JournalEntry) (c : ImageSpec) (env : EnvironmentId)
    (w : Supplies) : Host :=
  { h with
    sources := h.sources.set c.source w.source
    loaders := h.loaders.set c.loader w.loader
    environments := h.environments.set env w.environment
    machine := { h.machine with journal := base ++ w.journal } }

namespace Host

variable {α β : Type} {base : List JournalEntry} {c : ImageSpec} {env : EnvironmentId}
  {w w' : Supplies} {h : Host}

theorem set_of_getElem? {xs : List α} {n : Nat} {a : α} (ha : xs[n]? = some a) :
    xs.set n a = xs := by
  obtain ⟨hlt, rfl⟩ := List.getElem?_eq_some_iff.1 ha
  exact List.set_getElem_self hlt

theorem Provides.supply_self (hw : Provides base c env w h) : h.supply base c env w = h := by
  simp only [supply, set_of_getElem? hw.source, set_of_getElem? hw.loader,
    set_of_getElem? hw.environment, ← hw.journal]

theorem Provides.supply (hw : Provides base c env w h) (w' : Supplies) :
    Provides base c env w' (h.supply base c env w') where
  source := List.getElem?_set_self (List.getElem?_eq_some_iff.1 hw.source).1
  loader := List.getElem?_set_self (List.getElem?_eq_some_iff.1 hw.loader).1
  environment := List.getElem?_set_self (List.getElem?_eq_some_iff.1 hw.environment).1
  journal := rfl

theorem supply_supply (h : Host) (w w' : Supplies) :
    (h.supply base c env w).supply base c env w' = h.supply base c env w' := by
  simp only [Host.supply, List.set_set]

/-- An action of a host goes as it was rehearsed, and touches nothing but the supplies. -/
def Rehearsed (base : List JournalEntry) (c : ImageSpec) (env : EnvironmentId) (x : HostM α)
    (y : Rehearsal α) : Prop :=
  ∀ h w, Provides base c env w h → runOn h x = ((y.on w).1, h.supply base c env (y.on w).2)

theorem rehearsed_extract (p : Payload) :
    Rehearsed base c env (extract c.source p) (Rehearsal.extract p) := by
  intro h w hw
  simp only [extract, runOn_of, hw.source, Rehearsal.on, Rehearsal.extract, Rehearsal.of, supply,
    set_of_getElem? hw.loader, set_of_getElem? hw.environment, ← hw.journal]

theorem getLoader_ok {l : LoaderId} {loader : Loader} (hl : h.loaders[l]? = some loader) :
    runOn h (getLoader l) = (.ok loader, h) := by
  simp only [getLoader, runOn_find, hl, Option.elim]

/-- An entry point is used, unless the image does not let it. -/
theorem useEntryPoint_cases {l : LoaderId} {loader : Loader} (image : Nat) (point : EntryPoint)
    (event : ImageEvent) (hl : h.loaders[l]? = some loader) :
    (∃ e, (loader.behaviour image).trouble point = some e ∧
        runOn h (useEntryPoint l image point event) = (.error e, h)) ∨
      (loader.behaviour image).trouble point = none ∧
        runOn h (useEntryPoint l image point event) = (.ok (loader.behaviour image),
          { h with machine := h.machine.record (.image l image event) }) := by
  rw [useEntryPoint, runOn_bind_ok (getLoader_ok hl)]
  cases (loader.behaviour image).trouble point with
  | some e => exact .inl ⟨e, rfl, rfl⟩
  | none => exact .inr ⟨rfl, rfl⟩

theorem rehearsed_openImage (path : String) (flags : LoadFlags) :
    Rehearsed base c env (openImage c.loader path flags)
      (Rehearsal.openImage c.loader path flags) := by
  intro h w hw
  rw [openImage, runOn_bind_ok (getLoader_ok hw.loader)]
  -- Refused or not, the attempt counts.
  cases hr : (w.loader.behaviour w.loader.attempts).refusal path <;>
  · simp only [runOn_bind, runOn_modify, Rehearsal.on, Rehearsal.openImage, Rehearsal.of, hr, supply,
      set_of_getElem? hw.source, set_of_getElem? hw.environment, ← List.append_assoc, ← hw.journal]
    rfl

theorem rehearsed_bindSelf (image : Nat) :
    Rehearsed base c env (bindSelf c.loader image)
      (Rehearsal.useEntryPoint c.loader image .bind .bound) := by
  intro h w hw
  rw [bindSelf, useEntryPoint, bind_assoc, runOn_bind_ok (getLoader_ok hw.loader)]
  cases ht : (w.loader.behaviour image).trouble .bind <;>
  · simp only [runOn_bind, Rehearsal.on, Rehearsal.useEntryPoint, Rehearsal.of, ht,
      supply, set_of_getElem? hw.source, set_of_getElem? hw.loader,
      set_of_getElem? hw.environment, ← List.append_assoc, ← hw.journal]
    rfl

theorem rehearsed_configure (info : InstanceInfo) :
    Rehearsed base c env (configure env info) (Rehearsal.configure info) := by
  intro h w hw
  have hget : runOn h (find fun h => h.environments[env]?) = (.ok w.environment, h) := by
    simp only [runOn_find, hw.environment, Option.elim]
  rw [configure, runOn_bind_ok hget]
  -- Even an environment that refuses the instance has seen it.
  cases hr : w.environment.refusal info <;>
  · simp only [runOn_bind, runOn_modify, Rehearsal.on, Rehearsal.configure, Rehearsal.of, hr,
      supply, set_of_getElem? hw.source, set_of_getElem? hw.loader, ← hw.journal]
    rfl

/-- The files of plugins are made in turn, up to the first that fails, and only the source changes. -/
theorem rehearsed_extractEach (ps : List Payload) (hw : Provides base c env w h) :
    ∃ images failure source,
      runOn h (extractEach c.source ps) =
        (.ok (images, failure), h.supply base c env { w with source }) ∧
      Rehearsal.on w (ps.mapM Rehearsal.extract) =
        (failure.elim (.ok images) .error, { w with source }) := by
  induction ps generalizing h w with
  | nil => exact ⟨[], none, w.source, congrArg _ hw.supply_self.symm, by rw [List.mapM_nil]; rfl⟩
  | cons p ps ih =>
    have hx := rehearsed_extract p h w hw
    let w₁ : Supplies := { w with source := (w.source.extract p).2 }
    rw [List.mapM_cons]
    cases hp : (w.source.extract p).1 with
    | error e =>
      have hy : Rehearsal.on w (Rehearsal.extract p) = (.error e, w₁) := Prod.ext hp rfl
      rw [hy] at hx
      refine ⟨[], some e, w₁.source, ?_, Rehearsal.on_bind_error hy _⟩
      simp only [extractEach, runOn_bind, runOn_outcome, hx, runOn_pure]
      rfl
    | ok image =>
      have hy : Rehearsal.on w (Rehearsal.extract p) = (.ok image, w₁) := Prod.ext hp rfl
      rw [hy] at hx
      -- The other files are made from what the first one left of the source.
      obtain ⟨images, failure, source, hxs, hys⟩ := ih (hw.supply w₁)
      refine ⟨image :: images, failure, source, ?_, ?_⟩
      · simp only [extractEach, runOn_bind, runOn_outcome, hx, hxs, runOn_pure, supply_supply]
        rfl
      · rw [Rehearsal.on_bind_ok hy, Rehearsal.on_bind, hys]
        cases failure <;> rfl

end Host

end InstancePool
