import InstancePool.Proofs.Instance.Tag

/-!
Loading one instance goes as it was rehearsed. If a step fails, its failure is reported, whatever comes of
the cleanup, and the image and the interpreter of the instance are ended.
-/

namespace InstancePool

open HostM

namespace HostM

theorem onFailure_error {α : Type} {h h' h'' : Host} {x : HostM α} {cleanup : HostM Unit} {e : Error}
    (hx : runOn h x = (.error e, h')) (hc : runOn h' cleanup = (.ok (), h'')) :
    runOn h (onFailure x cleanup) = (.error e, h'') := by
  rw [runOn_onFailure, hx]
  simp only [hc]

end HostM

/-- The info of a member, once its files are there. -/
def memberInfo (number : Nat) (main : ExtractedImage) (plugins : List ExtractedImage) :
    InstanceInfo :=
  ⟨number, main.path, main.customLoader, main :: plugins⟩

namespace Instance

open Host

/-- An instance whose image was just opened. -/
def opened (number : Nat) (c : ImageSpec) (main : ExtractedImage) (image : Nat) : Instance where
  info := memberInfo number main []
  loader := c.loader
  image := some image

/-- Lets go of files, and then of the image. -/
def giveUp (images : List ExtractedImage) (i : Instance) : HostM Unit := do
  release images
  ignoring i.teardown

/-- What is left to do once the image is open and knows its handle. -/
def equip (number : Nat) (c : ImageSpec) (env : EnvironmentId) (main : ExtractedImage)
    (image : Nat) : HostM Instance := do
  let (plugins, failure) ← extractEach c.source c.plugins
  let images := main :: plugins
  if let some e := failure then
    (opened number c main image).giveUp images
    throw e
  let environment ← find fun h => h.environments[env]?
  let link ← onFailure
    (newInterp c.loader image environment.searchPaths (plugins.map (·.path)))
    ((opened number c main image).giveUp images)
  let loaded : Instance := ⟨memberInfo number main plugins, c.loader, some image, some link⟩
  onFailure (configure env loaded.info) (ignoring loaded.close)
  pure loaded

theorem load_eq (number : Nat) (c : ImageSpec) (env : EnvironmentId) :
    load number c env = (do
      let main ← extract c.source c.payload
      let image ← onFailure (openImage c.loader main.path (.forImage main.customLoader))
        (release [main])
      if main.customLoader then
        onFailure (bindSelf c.loader image) ((opened number c main image).giveUp [main])
      equip number c env main image) := rfl

end Instance

namespace Rehearsal

/-- The steps that are left once the image is open and knows its handle. -/
def equip (c : ImageSpec) (number : Nat) (main : ExtractedImage) (image : Nat) :
    Rehearsal InstanceInfo := do
  let plugins ← c.plugins.mapM extract
  useEntryPoint c.loader image .factory (.created (← searchPaths) (plugins.map (·.path)))
  configure (memberInfo number main plugins)
  pure (memberInfo number main plugins)

theorem member_eq (c : ImageSpec) (number : Nat) :
    member c number = (do
      let main ← extract c.payload
      let image ← openImage c.loader main.path (.forImage main.customLoader)
      if main.customLoader then useEntryPoint c.loader image .bind .bound
      equip c number main image) := rfl

end Rehearsal

namespace Host

variable {base : List JournalEntry} {c : ImageSpec} {env : EnvironmentId} {w w' : Supplies}
  {h h' : Host}

/-- The interpreter of an image is made, unless the entry point for that cannot be used. -/
theorem newInterp_cases {l : LoaderId} {loader : Loader} (image : Nat)
    (searchPaths plugins : List String) (hl : h.loaders[l]? = some loader) :
    (∃ e, (loader.behaviour image).trouble .factory = some e ∧
        runOn h (newInterp l image searchPaths plugins) = (.error e, h)) ∨
      (loader.behaviour image).trouble .factory = none ∧
        ∃ link channels, runOn h (newInterp l image searchPaths plugins) = (.ok link, { h with
          channels
          machine := ((h.machine.record (.image l image (.created searchPaths plugins))).create
            searchPaths (loader.behaviour image).failFinalize (some ⟨l, image⟩)).2 }) ∧
          h.channels <+: channels ∧
          ∀ h' : Host, h'.channels = channels → h'.Unused h.machine.interps.length link := by
  rcases useEntryPoint_cases image .factory (.created searchPaths plugins) hl with
    ⟨e, ht, huse⟩ | ⟨ht, huse⟩
  · exact .inl ⟨e, ht, runOn_bind_error huse _⟩
  · let h₁ : Host :=
      { h with machine := h.machine.record (.image l image (.created searchPaths plugins)) }
    let h₂ : Host := { h₁ with machine := (h₁.machine.create searchPaths
      (loader.behaviour image).failFinalize (some ⟨l, image⟩)).2 }
    let create (m : Machine) := m.create searchPaths (loader.behaviour image).failFinalize
      (some ⟨l, image⟩)
    have hcreate : runOn h₁ (ofMachine fun m => (.ok (create m).1, (create m).2)) =
        (.ok h.machine.interps.length, h₂) := rfl
    have hnew : runOn h (newInterp l image searchPaths plugins) =
        runOn h₂ (if (loader.behaviour image).throughChannel then
          .channel <$> exportInterp h.machine.interps.length
          else pure (.direct h.machine.interps.length)) := by
      rw [newInterp, runOn_bind_ok huse]
      exact runOn_bind_ok hcreate _
    refine .inr ⟨ht, ?_⟩
    rw [hnew]
    cases (loader.behaviour image).throughChannel with
    | false =>
      exact ⟨.direct h.machine.interps.length, h.channels, rfl, List.prefix_refl _, fun _ _ => rfl⟩
    | true =>
      refine ⟨.channel h.channels.length,
        h.channels ++ [⟨true, .exported { interp := h.machine.interps.length }⟩], rfl,
        List.prefix_append _ _, ?_⟩
      -- The new channel is the last one, and nobody else has used it.
      intro h' hc
      rw [Unused, hc]
      exact List.getElem?_concat_length

end Host

/-- What an image makes is new, and its version namespace is empty. -/
theorem Machine.fresh_create (m : Machine) (searchPaths : List String) (failFinalize : Bool)
    (observer : Option Observer) :
    ∃ j, (m.create searchPaths failFinalize observer).2.Fresh m.interps.length j ∧
      j.observer = observer ∧ j.failFinalize = failFinalize ∧
      j.version = m.heap.objects.length ∧
      (m.create searchPaths failFinalize observer).2.heap.get j.version = .space Table.empty ∧
      ∃ added, (m.create searchPaths failFinalize observer).2.heap.objects =
        m.heap.objects ++ added := by
  obtain ⟨added, hobjects, hlen, htake, -⟩ :=
    Interp.create_objects m.heap searchPaths failFinalize observer
  obtain ⟨more, rfl⟩ : ∃ more, added = [.space Table.empty,
      .space (Table.empty.insert "version" m.heap.objects.length)] ++ more :=
    ⟨added.drop 2, by rw [← htake, List.take_append_drop]⟩
  have hget (n : Nat) : (m.create searchPaths failFinalize observer).2.heap.get
      (m.heap.objects.length + n) = (([.space Table.empty,
        .space (Table.empty.insert "version" m.heap.objects.length)] ++ more)[n]?).getD
          (.value .null) := by
    simp only [Machine.create, Heap.get, hobjects]
    rw [List.getElem?_append_right (Nat.le_add_right _ _), Nat.add_sub_cancel_left]
  refine ⟨(Interp.create m.heap searchPaths failFinalize observer).interp,
    ⟨List.getElem?_concat_length, rfl, rfl, m.heap.objects.length + 1,
      Table.empty.insert "version" m.heap.objects.length, ?_, hget 1, ?_⟩, rfl, rfl, rfl,
    hget 0, _, hobjects⟩
  · have hname : ¬ "runtime" = "builtins" := by decide
    simp only [Interp.create, Table.get?_insert_of_ne hname, Table.get?_insert_self, Heap.alloc,
      List.length_append, List.length_singleton]
  · rw [Table.get?_insert_self]
    rfl

/-- The next image of the loader was opened, and no interpreter has been made of it. -/
structure Host.Underway (c : ImageSpec) (events : List ImageEvent) (w w' : Supplies) : Prop where
  loader : w'.loader = { w.loader with attempts := w.loader.attempts + 1 }
  journal : w'.journal = w.journal ++ events.map (.image c.loader w.loader.attempts)
  creates : ∀ e ∈ events, e.creates = false
  ends : ∀ e ∈ events, e.ends = false

/-- An instance was loaded: it has the next image of the loader and a new interpreter. -/
structure Host.Provided (base : List JournalEntry) (c : ImageSpec) (env : EnvironmentId)
    (w : Supplies) (h : Host) (info : InstanceInfo) (w' : Supplies) (i : Instance) (h' : Host) :
    Prop where
  provides : Provides base c env w' h'
  supplies : w'.loader = { w.loader with attempts := w.loader.attempts + 1 }
  journal : ∃ searchPaths, w'.journal =
    w.journal ++ (info.past searchPaths).map (.image c.loader w.loader.attempts)
  info : i.info = info
  loader : i.loader = c.loader
  ready : h'.Ready w.loader.behaviour w.loader.attempts h.machine.interps.length i
  fresh : ∃ j, h'.machine.Fresh h.machine.interps.length j ∧
    j.version = h.machine.heap.objects.length ∧
    h'.machine.heap.get j.version = .space Table.empty
  heap : ∃ added, h'.machine.heap.objects = h.machine.heap.objects ++ added
  interps : ∃ j, h'.machine.interps = h.machine.interps ++ [j]

/-- Nothing was loaded in the end: no image was opened after the step that failed, and all images and
interpreters that were there by then are ended. -/
structure Host.Undone (base : List JournalEntry) (c : ImageSpec) (w w' : Supplies) (h h' : Host) :
    Prop where
  loader : h'.loaders[c.loader]? = some w'.loader
  behaviour : w'.loader.behaviour = w.loader.behaviour
  journal : ∃ course rest, w'.journal = w.journal ++ course ∧
    h'.machine.journal = base ++ w'.journal ++ rest ∧
    (∀ l a, ¬ (c.loader = l ∧ w.loader.attempts ≤ a) → history l a (course ++ rest) = []) ∧
    (∀ a, (w.loader.behaviour a).Ended (history c.loader a (course ++ rest))) ∧
    ∀ l a, ∀ e ∈ history l a rest, e.ends = true
  finalized : ∀ k i, h.machine.interps.length ≤ k → h'.machine.interps[k]? = some i →
    i.finalized = true

/-- What an action comes to is what the rehearsal of it comes to: with a result of which `P` tells, or
with a failure that leaves nothing behind. -/
inductive Host.GoesAs {α β : Type} (base : List JournalEntry) (c : ImageSpec) (w : Supplies)
    (h : Host) (P : α → Supplies → β → Host → Prop) :
    Except Error α × Supplies → Except Error β × Host → Prop where
  | done {a w' b h'} (hp : P a w' b h') : GoesAs base c w h P (.ok a, w') (.ok b, h')
  | undone {w' h'} (e : Error) (hu : Host.Undone base c w w' h h') :
    GoesAs base c w h P (.error e, w') (.error e, h')

namespace Host

variable {base : List JournalEntry} {c : ImageSpec} {env : EnvironmentId} {w w₁ w₂ : Supplies}
  {h h₁ : Host} {info : InstanceInfo} {i : Instance}

/-- At most one image was opened, and it is ended. -/
theorem undone_of_events {events last : List ImageEvent} {rest : List JournalEntry}
    (hl : h₁.loaders[c.loader]? = some w₁.loader)
    (hb : w₁.loader.behaviour = w.loader.behaviour)
    (hj : w₁.journal = w.journal ++ events.map (.image c.loader w.loader.attempts))
    (hm : h₁.machine.journal = base ++ w₁.journal ++ rest)
    (hrest : ∀ l a, history l a rest =
      if c.loader = l ∧ w.loader.attempts = a then last else [])
    (hends : ∀ e ∈ last, e.ends = true)
    (hended : (w.loader.behaviour w.loader.attempts).Ended (events ++ last))
    (hf : ∀ k i, h.machine.interps.length ≤ k → h₁.machine.interps[k]? = some i →
      i.finalized = true) : Undone base c w w₁ h h₁ where
  loader := hl
  behaviour := hb
  journal := by
    -- Whatever happened to an image happened to this one.
    have hall (l : LoaderId) (a : Nat) :
        history l a (events.map (.image c.loader w.loader.attempts) ++ rest) =
          if c.loader = l ∧ w.loader.attempts = a then events ++ last else [] := by
      rw [history_append, history_images, hrest]
      split <;> rfl
    refine ⟨_, rest, hj, hm, fun l a hne => ?_, fun a => ?_, fun l a e he => ?_⟩
    · rw [hall, if_neg fun ⟨hl, ha⟩ => hne ⟨hl, Nat.le_of_eq ha⟩]
    · rw [hall]
      split
      · rename_i he
        exact he.2 ▸ hended
      · exact ImageBehaviour.ended_nil _
    · rw [hrest] at he
      split at he
      · exact hends e he
      · cases he
  finalized := hf

/-- There is no interpreter that was not there before. -/
theorem finalized_of_interps (hi : h₁.machine.interps = h.machine.interps) (k : Nat) (i : Interp)
    (hk : h.machine.interps.length ≤ k) (hi' : h₁.machine.interps[k]? = some i) :
    i.finalized = true := by
  have hlt : k < h₁.machine.interps.length := (List.getElem?_eq_some_iff.1 hi').1
  rw [hi] at hlt
  exact absurd hlt (Nat.not_lt.2 hk)

/-- No image was opened. -/
theorem undone_unopened {entries : List JournalEntry} (hl : h₁.loaders[c.loader]? = some w₁.loader)
    (hb : w₁.loader.behaviour = w.loader.behaviour) (hj : w₁.journal = w.journal)
    (hm : h₁.machine.journal = base ++ w₁.journal ++ entries)
    (hi : h₁.machine.interps = h.machine.interps)
    (hentries : ∀ l a, history l a entries = []) : Undone base c w w₁ h h₁ := by
  have hj' : w₁.journal = w.journal ++ [].map (.image c.loader w.loader.attempts) :=
    hj.trans (List.append_nil _).symm
  have hrest (l : LoaderId) (a : Nat) : history l a entries =
      if c.loader = l ∧ w.loader.attempts = a then ([] : List ImageEvent) else [] := by
    rw [hentries, ite_self]
  exact undone_of_events hl hb hj' hm hrest nofun (ImageBehaviour.ended_nil _)
    (finalized_of_interps hi)

/-- An image without an interpreter is given up. -/
theorem Underway.giveUp_undone {events : List ImageEvent} (hu : Underway c events w w₁)
    (hw : Provides base c env w h) (number : Nat) (main : ExtractedImage)
    (images : List ExtractedImage) :
    ∃ h', runOn (h.supply base c env w₁)
        ((Instance.opened number c main w.loader.attempts).giveUp images) = (.ok (), h') ∧
      Undone base c w w₁ h h' := by
  obtain ⟨h₂, hrelease, hu', hinterps⟩ := release_unwinds images (h.supply base c env w₁)
  let h₃ : Host :=
    { h₂ with machine := h₂.machine.record (.image c.loader w.loader.attempts .closed) }
  have hrun : runOn (h.supply base c env w₁)
      ((Instance.opened number c main w.loader.attempts).giveUp images) = (.ok (), h₃) := by
    rw [Instance.giveUp, runOn_bind_ok hrelease, runOn_ignoring,
      Instance.teardown_opened rfl rfl]
    rfl
  let rest : List JournalEntry := ((images.filter (·.guarded)).map (·.path)).map .released ++
    [ImageEvent.closed].map (.image c.loader w.loader.attempts)
  have hrest (l : LoaderId) (a : Nat) : history l a rest =
      if c.loader = l ∧ w.loader.attempts = a then [ImageEvent.closed] else [] := by
    simp only [rest, history_append, history_released, history_images, List.nil_append]
  have hjournal : h₃.machine.journal = base ++ w₁.journal ++ rest := by
    calc h₃.machine.journal
      _ = h₂.machine.journal ++ [.image c.loader w.loader.attempts .closed] := rfl
      _ = base ++ w₁.journal ++ rest := by
        rw [hu'.journal, List.append_assoc]
        rfl
  have hl : h₃.loaders[c.loader]? = some w₁.loader :=
    (congrArg (·[c.loader]?) hu'.loaders).trans (hw.supply w₁).loader
  have hb : w₁.loader.behaviour = w.loader.behaviour := by rw [hu.loader]
  -- There was no interpreter yet, so the image is closed whatever it would do at a finalization.
  refine ⟨h₃, hrun, ?_⟩
  exact undone_of_events hl hb hu.journal hjournal hrest (by decide)
    (ImageBehaviour.ended_closed _ hu.creates hu.ends) (finalized_of_interps hinterps)

theorem Ready.leadsInto {b : Nat → ImageBehaviour} {image k : Nat} (hi : h.Ready b image k i) :
    i.LeadsInto (· = k) h := by
  intro l hl k' hk'
  obtain ⟨l', hl', hunused⟩ := hi.link
  obtain rfl := Option.some.inj (hl.symm.trans hl')
  exact Option.some.inj (hk'.symm.trans hunused.interpAt)

/-- An instance that was loaded is closed again. -/
theorem Provided.close_undone (hp : Provided base c env w h info w₁ i h₁) :
    ∃ h', runOn h₁ (ignoring i.close) = (.ok (), h') ∧ Undone base c w w₁ h h' := by
  obtain ⟨searchPaths, hj⟩ := hp.journal
  obtain ⟨j', hinterps⟩ := hp.interps
  have hloader : h₁.loaders[i.loader]? = some w₁.loader := hp.loader ▸ hp.provides.loader
  have hbehaviour : w₁.loader.behaviour = w.loader.behaviour := by rw [hp.supplies]
  have hready := hp.ready
  rw [← hbehaviour] at hready
  obtain ⟨link, h₂, -, hclose, hu, j, hk, hfinal⟩ := Instance.close_manned hready.manned hloader
  have hrest := i.history_farewell w.loader.attempts w₁.loader.behaviour
  rw [hp.loader, hp.info, hbehaviour] at hrest
  have hworks : h₁.Works (· = h.machine.interps.length) h₂ :=
    (i.works_close (S := (· = h.machine.interps.length))).of_eq hclose hready.leadsInto
  have hl : h₂.loaders[c.loader]? = some w₁.loader :=
    (congrArg (·[c.loader]?) hu.loaders).trans hp.provides.loader
  have hjournal : h₂.machine.journal =
      base ++ w₁.journal ++ i.farewell w.loader.behaviour w.loader.attempts := by
    rw [hu.journal, hp.provides.journal, hbehaviour]
  refine ⟨h₂, by rw [runOn_ignoring, hclose], ?_⟩
  refine undone_of_events hl hbehaviour hj hjournal hrest (ImageBehaviour.fate_ends _ _)
    (ImageBehaviour.ended_fate _ info searchPaths) fun k i' hle hi' => ?_
  -- The interpreter of the instance is the only new one.
  by_cases he : k = h.machine.interps.length
  · subst he
    obtain rfl := Option.some.inj (hk.symm.trans hi')
    exact hfinal
  · rw [hworks.machine.interp he, hinterps] at hi'
    have hlt : k < h.machine.interps.length + 1 := by
      have hlt := (List.getElem?_eq_some_iff.1 hi').1
      rwa [List.length_append] at hlt
    omega

/-- The environment makes no difference to an instance. -/
theorem Provided.supply (hp : Provided base c env w h info w₁ i h₁) (w₂ : Supplies)
    (hl : w₂.loader = w₁.loader) (hj : w₂.journal = w₁.journal) :
    Provided base c env w h info w₂ i (h₁.supply base c env w₂) :=
  { hp with
    provides := hp.provides.supply w₂
    supplies := hl.trans hp.supplies
    journal := by
      obtain ⟨searchPaths, hpast⟩ := hp.journal
      exact ⟨searchPaths, hj.trans hpast⟩
    ready := ⟨hp.ready.opened, hp.ready.link, hp.ready.interp⟩ 
    fresh := by
      obtain ⟨j, hf, hv⟩ := hp.fresh
      exact ⟨j, ⟨hf.interp, hf.finalized, hf.sessions, hf.version⟩, hv⟩ }

/-- What has happened to the image of a member before its interpreter is made. -/
def beginnings (main : ExtractedImage) : List ImageEvent :=
  [.opened main.path (.forImage main.customLoader)] ++ if main.customLoader then [.bound] else []

/-- The interpreter is made, unless the rehearsal fails at that. -/
theorem newInterp_rehearsed {main : ExtractedImage} (number : Nat) (plugins : List ExtractedImage)
    (hu : Underway c (beginnings main) w w₁) (hw : Provides base c env w h) :
    (∃ e, runOn (h.supply base c env w₁) (newInterp c.loader w.loader.attempts
          w₁.environment.searchPaths (plugins.map (·.path))) = (.error e, h.supply base c env w₁) ∧
        Rehearsal.on w₁ (Rehearsal.useEntryPoint c.loader w.loader.attempts .factory
          (.created w₁.environment.searchPaths (plugins.map (·.path)))) = (.error e, w₁)) ∨
      ∃ link w₂ h', runOn (h.supply base c env w₁) (newInterp c.loader w.loader.attempts
          w₁.environment.searchPaths (plugins.map (·.path))) = (.ok link, h') ∧
        Rehearsal.on w₁ (Rehearsal.useEntryPoint c.loader w.loader.attempts .factory
          (.created w₁.environment.searchPaths (plugins.map (·.path)))) = (.ok (), w₂) ∧
        Provided base c env w h (memberInfo number main plugins) w₂
          ⟨memberInfo number main plugins, c.loader, some w.loader.attempts, some link⟩ h' := by
  have hw₁ := hw.supply w₁
  have hbehaviour : w₁.loader.behaviour = w.loader.behaviour := by rw [hu.loader]
  rcases newInterp_cases w.loader.attempts w₁.environment.searchPaths (plugins.map (·.path))
    hw₁.loader with ⟨e, ht, hr⟩ | ⟨ht, link, channels, hr, -, hunused⟩
  · exact .inl ⟨e, hr, Rehearsal.useEntryPoint_some _ _ ht⟩
  · let event : ImageEvent := .created w₁.environment.searchPaths (plugins.map (·.path))
    let m : Machine :=
      (h.supply base c env w₁).machine.record (.image c.loader w.loader.attempts event)
    -- The interpreter comes right after the event that announces it.
    obtain ⟨j, hfresh, hobserver, hfail, hversion, hspace, hheap⟩ :=
      m.fresh_create w₁.environment.searchPaths
        (w₁.loader.behaviour w.loader.attempts).failFinalize (some ⟨c.loader, w.loader.attempts⟩)
    refine .inr ⟨link, _, _, hr, Rehearsal.useEntryPoint_none _ _ ht, ?_⟩
    exact {
      provides := ⟨hw₁.source, hw₁.loader, hw₁.environment, List.append_assoc ..⟩
      supplies := hu.loader
      journal := by
        refine ⟨w₁.environment.searchPaths, ?_⟩
        calc w₁.journal ++ [.image c.loader w.loader.attempts event]
          _ = w.journal ++ (beginnings main).map (.image c.loader w.loader.attempts) ++
              [event].map (.image c.loader w.loader.attempts) := by rw [hu.journal]; rfl
          _ = w.journal ++ (beginnings main ++ [event]).map
              (.image c.loader w.loader.attempts) := by rw [List.map_append, List.append_assoc]
      info := rfl
      loader := rfl
      ready := ⟨rfl, ⟨link, rfl, hunused _ rfl⟩, j, hfresh.interp, hobserver, hbehaviour ▸ hfail⟩
      fresh := ⟨j, hfresh, hversion, hspace⟩
      heap := hheap
      interps := ⟨_, rfl⟩ }

/-- What is left to do once the image is open goes as it was rehearsed. -/
theorem equip_rehearsed {main : ExtractedImage} (number : Nat)
    (hu : Underway c (beginnings main) w w₁) (hw : Provides base c env w h) :
    GoesAs base c w h (Provided base c env w h)
      (Rehearsal.on w₁ (Rehearsal.equip c number main w.loader.attempts))
      (runOn (h.supply base c env w₁)
        (Instance.equip number c env main w.loader.attempts)) := by
  obtain ⟨plugins, failure, source, hfiles, hon⟩ := rehearsed_extractEach c.plugins (hw.supply w₁)
  rw [supply_supply] at hfiles
  -- Making the files of the plugins leaves the image as it is.
  let w₂ : Supplies := { w₁ with source }
  have hu₂ : Underway c (beginnings main) w w₂ := ⟨hu.loader, hu.journal, hu.creates, hu.ends⟩
  obtain ⟨h₃, hgive, hundone⟩ := hu₂.giveUp_undone hw number main (main :: plugins)
  rw [Instance.equip, runOn_bind_ok hfiles]
  cases failure with
  | some e =>
    rw [Rehearsal.equip, Rehearsal.on_bind_error hon]
    simp only []
    rw [runOn_bind_ok hgive]
    exact .undone e hundone
  | none =>
    have hfind : runOn (h.supply base c env w₂) (find fun h => h.environments[env]?) =
        (.ok w₂.environment, h.supply base c env w₂) := by
      simp only [runOn_find, (hw.supply w₂).environment, Option.elim]
    rw [Rehearsal.equip, Rehearsal.on_bind_ok hon]
    simp only []
    rw [runOn_bind_ok hfind]
    have hpaths : Rehearsal.on w₂ Rehearsal.searchPaths = (.ok w₂.environment.searchPaths, w₂) := rfl
    rcases newInterp_rehearsed number plugins hu₂ hw with
      ⟨e, hmake, huse⟩ | ⟨link, w₃, h₄, hmake, huse, hp⟩
    · rw [runOn_bind_error (onFailure_error hmake hgive), Rehearsal.on_bind_ok hpaths,
        Rehearsal.on_bind_error huse]
      exact .undone e hundone
    -- From here on a failure has to close the instance, not only its image.
    · rw [runOn_bind_ok (onFailure_of_ok hmake _), Rehearsal.on_bind_ok hpaths,
        Rehearsal.on_bind_ok huse]
      obtain ⟨r, environment, hask⟩ :=
        Rehearsal.configure_cases (memberInfo number main plugins) w₃
      have hconf := rehearsed_configure (memberInfo number main plugins) h₄ w₃ hp.provides
      rw [hask] at hconf
      have hp' := hp.supply { w₃ with environment } rfl rfl
      cases r with
      | error e =>
        obtain ⟨h₅, hclose, hundone'⟩ := hp'.close_undone
        have hrun := onFailure_error hconf hclose
        rw [runOn_bind_error hrun, Rehearsal.on_bind_error hask]
        exact .undone e hundone'
      | ok u =>
        rw [runOn_bind_ok (onFailure_of_ok hconf _), Rehearsal.on_bind_ok hask]
        exact .done hp'

/-- An isolated image is told its handle, and after that it goes on as for any other. -/
theorem bind_rehearsed {main : ExtractedImage} (number : Nat)
    (hu : Underway c [.opened main.path (.forImage main.customLoader)] w w₁)
    (hw : Provides base c env w h) :
    GoesAs base c w h (Provided base c env w h)
      (Rehearsal.on w₁ (do
        if main.customLoader then
          Rehearsal.useEntryPoint c.loader w.loader.attempts .bind .bound
        Rehearsal.equip c number main w.loader.attempts))
      (runOn (h.supply base c env w₁) (do
        if main.customLoader then
          onFailure (bindSelf c.loader w.loader.attempts)
            ((Instance.opened number c main w.loader.attempts).giveUp [main])
        Instance.equip number c env main w.loader.attempts)) := by
  by_cases hisolated : main.customLoader = true
  · rw [if_pos hisolated, if_pos hisolated]
    have hbind := rehearsed_bindSelf w.loader.attempts _ w₁ (hw.supply w₁)
    rw [supply_supply] at hbind
    cases ht : (w₁.loader.behaviour w.loader.attempts).trouble .bind with
    | some e =>
      have hon := Rehearsal.useEntryPoint_some c.loader .bound ht
      obtain ⟨h', hgive, hundone⟩ := hu.giveUp_undone hw number main [main]
      rw [hon] at hbind
      rw [runOn_bind_error (onFailure_error hbind hgive), Rehearsal.on_bind_error hon]
      exact .undone e hundone
    | none =>
      have hon := Rehearsal.useEntryPoint_none c.loader .bound ht
      rw [hon] at hbind
      rw [runOn_bind_ok (onFailure_of_ok hbind _), Rehearsal.on_bind_ok hon]
      -- It is under way with one event more.
      refine equip_rehearsed number ⟨hu.loader, ?_, ?_, ?_⟩ hw
      · rw [beginnings, if_pos hisolated, hu.journal, List.append_assoc, List.map_append]
        rfl
      · simp [beginnings, hisolated, ImageEvent.creates]
      · simp [beginnings, hisolated, ImageEvent.ends]
  · rw [if_neg hisolated, if_neg hisolated]
    have hu' : Underway c (beginnings main) w w₁ := by
      rw [beginnings, if_neg hisolated, List.append_nil]
      exact hu
    exact equip_rehearsed number hu' hw

/-- Loading an instance goes as it was rehearsed. -/
theorem load_rehearsed (number : Nat) (hw : Provides base c env w h) :
    GoesAs base c w h (Provided base c env w h) (Rehearsal.on w (Rehearsal.member c number))
      (runOn h (Instance.load number c env)) := by
  let w₁ : Supplies := { w with source := (w.source.extract c.payload).2 }
  have hfile : runOn h (extract c.source c.payload) =
      ((w.source.extract c.payload).1, h.supply base c env w₁) := rehearsed_extract c.payload h w hw
  rw [Instance.load_eq, Rehearsal.member_eq]
  cases hmain : (w.source.extract c.payload).1 with
  | error e =>
    -- There is nothing of the instance yet.
    rw [hmain] at hfile
    have hon : Rehearsal.on w (Rehearsal.extract c.payload) = (.error e, w₁) := Prod.ext hmain rfl
    have hundone : Undone base c w w₁ h (h.supply base c env w₁) :=
      undone_unopened (hw.supply w₁).loader rfl rfl (List.append_nil _).symm rfl fun _ _ => rfl
    rw [runOn_bind_error hfile, Rehearsal.on_bind_error hon]
    exact .undone e hundone
  | ok main =>
    rw [hmain] at hfile
    have hon : Rehearsal.on w (Rehearsal.extract c.payload) = (.ok main, w₁) := Prod.ext hmain rfl
    rw [runOn_bind_ok hfile, Rehearsal.on_bind_ok hon]
    have hopen := rehearsed_openImage main.path (.forImage main.customLoader) _ w₁ (hw.supply w₁)
    rw [supply_supply] at hopen
    rcases Rehearsal.openImage_cases c.loader main.path (.forImage main.customLoader) w₁ with
      ⟨e, hon⟩ | hon
    · -- The image is refused, and its file goes away.
      rw [hon] at hopen
      let w₂ : Supplies := { w₁ with loader := { w.loader with attempts := w.loader.attempts + 1 } }
      obtain ⟨h₂, hrelease, hu, hinterps⟩ := release_unwinds [main] (h.supply base c env w₂)
      have hl : h₂.loaders[c.loader]? = some w₂.loader :=
        (congrArg (·[c.loader]?) hu.loaders).trans (hw.supply w₂).loader
      rw [runOn_bind_error (onFailure_error hopen hrelease), Rehearsal.on_bind_error hon]
      exact .undone e (undone_unopened hl rfl rfl hu.journal hinterps fun l a => history_released ..)
    · rw [hon] at hopen
      let w₂ : Supplies := { w₁ with
        loader := { w.loader with attempts := w.loader.attempts + 1 }
        journal := w.journal ++ [.image c.loader w.loader.attempts
          (.opened main.path (.forImage main.customLoader))] }
      have hu₂ : Underway c [.opened main.path (.forImage main.customLoader)] w w₂ :=
        ⟨rfl, rfl, by simp [ImageEvent.creates], by simp [ImageEvent.ends]⟩
      rw [runOn_bind_ok (onFailure_of_ok hopen _), Rehearsal.on_bind_ok hon]
      exact bind_rehearsed number hu₂ hw

end Host

end InstancePool
