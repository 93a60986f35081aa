import InstancePool.Proofs.Instance.LoadOutcome
import InstancePool.Proofs.Image.Events

/-!
Loading instances, told by what happens to their images. One image is opened, or none, and all others are
left alone. An instance that was loaded has the one that was opened and the interpreter that it made.
-/

namespace InstancePool

open HostM

/-- The host with the next image of a loader open, and with other sources. -/
def Host.opening (l : LoaderId) (loader : Loader) (main : ExtractedImage) (sources : List Source)
    (h : Host) : Host :=
  { h with
    sources
    loaders := h.loaders.set l { loader with attempts := loader.attempts + 1 }
    machine := h.machine.record
      (.image l loader.attempts (.opened main.path (.forImage main.customLoader))) }

/-- From a host to a later one: no image has made an interpreter. -/
def Host.Barren (h h' : Host) : Prop :=
  ∃ entries, h'.machine.journal = h.machine.journal ++ entries ∧
    ∀ l a, ∀ event ∈ history l a entries, event.creates = false

/-- From a host to a later one: some things happened to an image, and nothing to any other. -/
def Host.Befalls (l : LoaderId) (a : Nat) (events : List ImageEvent) (h h' : Host) : Prop :=
  ∃ entries, h'.machine.journal = h.machine.journal ++ entries ∧
    ∀ l' a', history l' a' entries = if l = l' ∧ a = a' then events else []

namespace Host

variable {A : LoaderId → Nat → Prop} {P : Host → Prop} {h : Host} {l : LoaderId} {a : Nat}
  {link : Link}

theorem extract_eq (source : SourceId) (p : Payload) (h : Host) :
    ∃ sources, (runOn h (extract source p)).2 = { h with sources } := by
  rw [extract, runOn_of]
  split
  · exact ⟨h.sources, rfl⟩
  · exact ⟨_, rfl⟩

theorem extractEach_eq (source : SourceId) (ps : List Payload) (h : Host) :
    ∃ sources, (runOn h (extractEach source ps)).2 = { h with sources } := by
  induction ps generalizing h with
  | nil => exact ⟨h.sources, rfl⟩
  | cons p ps ih =>
    obtain ⟨sources, hs⟩ := extract_eq source p h
    rw [extractEach, runOn_bind, runOn_outcome]
    cases (runOn h (extract source p)).1 with
    | error e => exact ⟨sources, hs⟩
    | ok image =>
      obtain ⟨sources', hs'⟩ := ih { h with sources }
      refine ⟨sources', ?_⟩
      simp only [hs, runOn_bind]
      rcases hx : runOn { h with sources } (extractEach source ps) with ⟨e | x, h'⟩ <;>
      · rw [hx] at hs'
        exact hs'

theorem configure_eq (env : EnvironmentId) (info : InstanceInfo) (h : Host) :
    ∃ environments, (runOn h (configure env info)).2 = { h with environments } := by
  rcases find_cases (fun h => h.environments[env]?) h with ⟨-, hr⟩ | ⟨e, -, hr⟩
  · exact ⟨h.environments, by rw [configure, runOn_bind_error hr]⟩
  · rw [configure, runOn_bind_ok hr]
    cases hf : e.refusal info with
    | some reasons => exact ⟨_, rfl⟩
    | none => exact ⟨_, rfl⟩

theorem tends_extract (source : SourceId) (p : Payload) : Within (Tends A) (extract source p) := by
  intro h
  obtain ⟨sources, hs⟩ := extract_eq source p h
  rw [hs]
  exact tends_of_quiet (.refl _) rfl rfl rfl rfl

theorem tends_release (images : List ExtractedImage) : Within (Tends A) (release images) := by
  induction images with
  | nil => exact within_pure _
  | cons image images ih =>
    unfold release
    split
    · refine Within.bind (fun h => ?_) fun _ => Within.bind (fun h => ?_) fun _ => ih
      · exact tends_of_quiet (.refl _) rfl rfl rfl rfl
      · exact tends_of_machine (.refl _) rfl fun l a => .inl (history_released l a [image.path])
    · exact ih

/-- An attempt to open an image counts. -/
theorem tends_of_attempt {loader : Loader} (hl : h.loaders[l]? = some loader) :
    h.Tends A { h with
      loaders := h.loaders.set l { loader with attempts := loader.attempts + 1 } } := by
  refine { Tends.refl h with
    journal := ⟨[], (List.append_nil _).symm, fun _ _ => .inl rfl⟩
    loaders := fun l' loader' hl' => ?_ }
  by_cases he : l = l'
  · subst he
    obtain rfl := Option.some.inj (hl.symm.trans hl')
    exact ⟨_, List.getElem?_set_self (List.getElem?_eq_some_iff.1 hl).1, rfl, Nat.le_succ _⟩
  · exact ⟨loader', (List.getElem?_set_ne he).trans hl', rfl, Nat.le_refl _⟩

instance : Frame Barren where
  refl h := ⟨[], (List.append_nil _).symm, fun _ _ _ he => by cases he⟩
  trans hb hb' := by
    obtain ⟨entries, hj, hh⟩ := hb
    obtain ⟨entries', hj', hh'⟩ := hb'
    refine ⟨entries ++ entries', by rw [hj', hj, List.append_assoc], fun l a event he => ?_⟩
    rw [history_append] at he
    exact (List.mem_append.1 he).elim (hh l a event) (hh' l a event)

theorem barren_of_journal {h' : Host} (hj : h'.machine.journal = h.machine.journal) : h.Barren h' :=
  ⟨[], hj.trans (List.append_nil _).symm, fun _ _ _ he => by cases he⟩

theorem barren_record (l : LoaderId) (a : Nat) (event : ImageEvent) (he : event.creates = false) :
    Within Barren (record (.image l a event)) := by
  intro h
  refine ⟨[.image l a event], rfl, fun l' a' event' he' => ?_⟩
  have hh := history_images l' l a' a [event]
  rw [show history l' a' [.image l a event] = _ from hh] at he'
  split at he'
  · rw [List.mem_singleton.1 he']
    exact he
  · cases he'

theorem journal_release (images : List ExtractedImage) (h : Host) :
    (runOn h (release images)).2.machine.journal =
      h.machine.journal ++ ((images.filter (·.guarded)).map (·.path)).map .released := by
  obtain ⟨h', hr, hu, -⟩ := release_unwinds images h
  rw [hr]
  exact hu.journal

theorem barren_release (images : List ExtractedImage) : Within Barren (release images) := by
  intro h
  refine ⟨_, journal_release images h, fun l a event he => ?_⟩
  rw [history_released] at he
  cases he

theorem Tends.barren {h' : Host} (ht : h.Tends (fun _ _ => False) h') : h.Barren h' := by
  obtain ⟨entries, hj, hh⟩ := ht.journal
  refine ⟨entries, hj, fun l a event he => ?_⟩
  rcases hh l a with hnil | ⟨hf, -⟩
  · rw [hnil] at he
    cases he
  · exact hf.elim

theorem befalls_of_journal {h' : Host} {events : List ImageEvent}
    (hj : h'.machine.journal = h.machine.journal ++ events.map (.image l a)) :
    h.Befalls l a events h' :=
  ⟨_, hj, fun l' a' => history_images l' l a' a events⟩

theorem Befalls.trans {h₁ h₂ h₃ : Host} {events events' : List ImageEvent}
    (hb : h₁.Befalls l a events h₂) (hb' : h₂.Befalls l a events' h₃) :
    h₁.Befalls l a (events ++ events') h₃ := by
  obtain ⟨entries, hj, hh⟩ := hb
  obtain ⟨entries', hj', hh'⟩ := hb'
  refine ⟨entries ++ entries', by rw [hj', hj, List.append_assoc], fun l' a' => ?_⟩
  rw [history_append, hh, hh']
  split
  · rfl
  · rfl

/-- What befalls an image comes after what is told of it. -/
theorem Befalls.history_eq {h' : Host} {events : List ImageEvent} (hb : h.Befalls l a events h')
    (l' : LoaderId) (a' : Nat) : history l' a' h'.machine.journal =
      history l' a' h.machine.journal ++ if l = l' ∧ a = a' then events else [] := by
  obtain ⟨entries, hj, hh⟩ := hb
  rw [hj, history_append, hh]

/-- There was no attempt yet to open the image that comes next. -/
theorem not_hasOpened_attempts {loader : Loader} (hl : h.loaders[l]? = some loader) :
    ¬ h.HasOpened l loader.attempts := by
  rintro ⟨loader', hl', hlt⟩
  obtain rfl := Option.some.inj (hl.symm.trans hl')
  exact Nat.lt_irrefl _ hlt

theorem hasOpened_opening {loader : Loader} (main : ExtractedImage) (sources : List Source)
    (hl : h.loaders[l]? = some loader) :
    (h.opening l loader main sources).HasOpened l loader.attempts :=
  ⟨_, List.getElem?_set_self (List.getElem?_eq_some_iff.1 hl).1, Nat.lt_succ_self _⟩

theorem tends_opening {loader : Loader} (hl : h.loaders[l]? = some loader)
    (hA : A l loader.attempts) (main : ExtractedImage) (sources : List Source) :
    h.Tends A (h.opening l loader main sources) := by
  have ht : h.Tends A { h with sources } := tends_of_quiet (.refl _) rfl rfl rfl rfl
  refine (ht.trans (tends_of_attempt hl)).trans (tends_record hA _ _ ?_)
  exact hasOpened_opening main sources hl

/-- There is an attempt to open the next image of a loader, if there is the loader. -/
theorem openImage_cases (l : LoaderId) (path : String) (flags : LoadFlags) (h : Host) :
    (∃ e, runOn h (openImage l path flags) = (.error e, h)) ∨
      ∃ loader, h.loaders[l]? = some loader ∧
        let h₁ : Host := { h with
          loaders := h.loaders.set l { loader with attempts := loader.attempts + 1 } }
        (∃ e, runOn h (openImage l path flags) = (.error e, h₁)) ∨
          (loader.behaviour loader.attempts).refusal path = none ∧
            runOn h (openImage l path flags) = (.ok loader.attempts, { h₁ with
              machine := h.machine.record (.image l loader.attempts (.opened path flags)) }) := by
  rcases find_cases (fun h => h.loaders[l]?) h with ⟨-, hr⟩ | ⟨loader, hl, -⟩
  · exact .inl ⟨_, runOn_bind_error hr _⟩
  · refine .inr ⟨loader, hl, ?_⟩
    rw [openImage, runOn_bind_ok (getLoader_ok hl)]
    cases hf : (loader.behaviour loader.attempts).refusal path with
    | some e => exact .inl ⟨e, by simp only [runOn_bind, runOn_modify, runOn_throw]⟩
    | none => exact .inr ⟨rfl, by simp only [runOn_bind, runOn_modify]; rfl⟩

/-- An image is told its handle, unless it does not let that be. -/
theorem bindSelf_cases {loader : Loader} (a : Nat) (hl : h.loaders[l]? = some loader) :
    (∃ e, (loader.behaviour a).trouble .bind = some e ∧
        runOn h (bindSelf l a) = (.error e, h)) ∨
      (loader.behaviour a).trouble .bind = none ∧ runOn h (bindSelf l a) =
        (.ok (), { h with machine := h.machine.record (.image l a .bound) }) := by
  rcases useEntryPoint_cases a .bind .bound hl with ⟨e, ht, hr⟩ | ⟨ht, hr⟩
  · exact .inl ⟨e, ht, runOn_bind_error hr _⟩
  · exact .inr ⟨ht, runOn_bind_ok hr _⟩

theorem tends_useEntryPoint (hA : A l a) (point : EntryPoint) (event : ImageEvent) :
    Within (TendsIf (HasOpened l a) A) (useEntryPoint l a point event) := by
  refine (within_find _).bind fun loader => ?_
  split
  · exact within_throw _
  · exact (tends_record hA event).bind fun _ => within_pure _

theorem tends_flush (hA : A l a) : Within (TendsIf (HasOpened l a) A) (flush l a) := by
  refine (tends_useEntryPoint hA _ _).bind fun behaviour => ?_
  split
  · exact within_throw _
  · exact within_pure _

/-- The interpreter of an image is made, and its link leads there. -/
theorem newInterp_ready {loader : Loader} {h h' : Host} {searchPaths plugins : List String}
    (hl : h.loaders[l]? = some loader)
    (hr : runOn h (newInterp l a searchPaths plugins) = (.ok link, h')) :
    ∃ k, h'.Unused k link ∧ (∃ j, h'.machine.interps[k]? = some j ∧ j.observer = some ⟨l, a⟩ ∧
        j.failFinalize = (loader.behaviour a).failFinalize) ∧
      h'.loaders = h.loaders ∧
      h'.machine.journal = h.machine.journal ++ [.image l a (.created searchPaths plugins)] := by
  rcases newInterp_cases a searchPaths plugins hl with ⟨e, -, hr'⟩ | ⟨-, link', channels, hr', -, hu⟩
  · rw [hr'] at hr
    cases hr
  · rw [hr'] at hr
    cases hr
    refine ⟨h.machine.interps.length, hu _ rfl, ?_, rfl, rfl⟩
    exact ⟨_, List.getElem?_concat_length, rfl, rfl⟩

theorem tends_newInterp (hA : A l a) (searchPaths plugins : List String) :
    Within (TendsIf (HasOpened l a) A) (newInterp l a searchPaths plugins) := by
  intro h ho
  obtain ⟨loader, hl, hlt⟩ := ho
  rcases newInterp_cases a searchPaths plugins hl with ⟨e, -, hr⟩ | ⟨-, link, channels, hr, hc, -⟩
  · rw [hr]
    exact .refl h
  · rw [hr]
    let event : ImageEvent := .created searchPaths plugins
    let h₁ : Host := { h with machine := h.machine.record (.image l a event) }
    let h₂ : Host := { h₁ with machine := (h₁.machine.create searchPaths
      (loader.behaviour a).failFinalize (some ⟨l, a⟩)).2 }
    have ht₁ : h.Tends A h₁ := tends_record hA event h ⟨loader, hl, hlt⟩
    have ht₂ : h₁.Tends A h₂ := tends_of_quiet (Machine.quiet_create _ _ _ _) rfl rfl rfl rfl
    exact (ht₁.trans ht₂).trans (tends_of_channels hc)

end Host

namespace Instance

open Host

variable {A : LoaderId → Nat → Prop} {P : Host → Prop} {h h' : Host} {i : Instance} {a : Nat}

/-- The image of an instance was opened, and the interpreter that the instance has, if it has one, was
made by the image. -/
def Grounded (i : Instance) (a : Nat) (h : Host) : Prop :=
  h.HasOpened i.loader a ∧ ∀ link, i.link = some link → h.BelongsTo i.loader a link

instance : Abiding (i.Grounded a) where
  keep ht hp := ⟨Abiding.keep ht hp.1, fun link hl => Abiding.keep ht (hp.2 link hl)⟩

theorem grounded_of_manned {b : Nat → ImageBehaviour} {k : Nat} (hm : h.Manned b a k i)
    (ho : h.HasOpened i.loader a) : i.Grounded a h := by
  refine ⟨ho, fun link hlink => ?_⟩
  obtain ⟨link', hlink', hconnected⟩ := hm.link
  obtain rfl := Option.some.inj (hlink.symm.trans hlink')
  obtain ⟨j, hj, hobserver, -⟩ := hm.interp
  exact ⟨k, hconnected.interpAt, j, hj, hobserver⟩

theorem tends_teardownStep [Abiding P] (hA : A i.loader a) (hP : ∀ h, P h → h.HasOpened i.loader a)
    {what : String} {x : HostM Unit} (hx : Within (TendsIf P A) x) :
    Within (TendsIf P A) (teardownStep i.loader a what x) := by
  refine hx.outcome.bind fun r => ?_
  cases r with
  | ok _ => exact within_pure _
  | error e =>
    have hrecord : Within (TendsIf P A) (record (.image i.loader a .abandoned)) :=
      (tends_record hA .abandoned).mono fun h _ ht hp => ht (hP h hp)
    exact hrecord.bind fun _ => within_throw _

theorem tends_teardown (hi : i.image = some a) (hA : A i.loader a) :
    Within (TendsIf (i.Grounded a) A) i.teardown := by
  have hopened (h : Host) (hg : i.Grounded a h) : h.HasOpened i.loader a := hg.1
  have hrecord (event : ImageEvent) :
      Within (TendsIf (i.Grounded a) A) (record (.image i.loader a event)) :=
    (tends_record hA event).mono fun h _ ht hg => ht hg.1
  unfold teardown
  rw [hi]
  cases hl : i.link with
  | none => exact hrecord .closed
  | some link =>
    have hfinalize : Within (TendsIf (i.Grounded a) A) link.finalize :=
      (tends_finalize_belongs hA).mono fun h _ ht hg => ht ⟨hg.1, hg.2 link hl⟩
    have hflush : Within (TendsIf (i.Grounded a) A) (flush i.loader a) :=
      (tends_flush hA).mono fun h _ ht hg => ht hg.1
    refine (tends_teardownStep hA hopened hfinalize).bind fun _ => ?_
    split
    · exact (tends_teardownStep hA hopened hflush).bind fun _ => hrecord .closed
    · exact hrecord .closed

theorem tends_close (hi : i.image = some a) (hA : A i.loader a) :
    Within (TendsIf (i.Grounded a) A) i.close :=
  (tends_teardown hi hA).ensuring ((tends_release _).mono fun _ _ ht _ => ht)

/-- Only files are left of an instance that gave its image up. -/
theorem tends_close_spent (hi : i.image = none) : Within (Tends A) i.close := by
  have hteardown : Within (Tends A) i.teardown := by
    unfold teardown
    rw [hi]
    exact within_pure _
  exact hteardown.ensuring (tends_release _)

/-- An image is given up. -/
theorem tends_giveUp {images : List ExtractedImage} (hi : i.image = some a) (hl : i.link = none)
    (hA : A i.loader a) : Within (TendsIf (HasOpened i.loader a) A) (i.giveUp images) := by
  have hteardown : Within (TendsIf (HasOpened i.loader a) A) i.teardown :=
    (tends_teardown hi hA).mono fun h _ ht ho => ht ⟨ho, fun link hlink => by
      rw [hl] at hlink
      cases hlink⟩
  have hrelease : Within (TendsIf (HasOpened i.loader a) A) (release images) :=
    (tends_release images).mono fun _ _ ht _ => ht
  exact hrelease.bind fun _ => hteardown.ignoring

/-- An image that was opened is used for an instance, or given up. -/
theorem tends_equip {c : ImageSpec} (hA : A c.loader a) (number : Nat) (env : EnvironmentId)
    (main : ExtractedImage) :
    Within (TendsIf (HasOpened c.loader a) A) (equip number c env main a) := by
  have hgiveUp (images : List ExtractedImage) : Within (TendsIf (HasOpened c.loader a) A)
      ((opened number c main a).giveUp images) :=
    tends_giveUp (i := opened number c main a) rfl rfl hA
  have hextract : Within (TendsIf (HasOpened c.loader a) A) (extractEach c.source c.plugins) := by
    intro h _
    obtain ⟨sources, hs⟩ := extractEach_eq c.source c.plugins h
    rw [hs]
    exact tends_of_quiet (.refl _) rfl rfl rfl rfl
  refine hextract.bind fun x => ?_
  rcases x with ⟨plugins, failure⟩
  cases failure with
  | some e => exact (hgiveUp _).bind fun _ => within_throw e
  | none =>
    refine (within_find _).bind fun environment => ?_
    intro h ho
    obtain ⟨loader, hloader, hlt⟩ := ho
    have hnew : Within (TendsIf (HasOpened c.loader a) A)
        (onFailure (newInterp c.loader a environment.searchPaths (plugins.map (·.path)))
          ((opened number c main a).giveUp (main :: plugins))) :=
      (tends_newInterp hA _ _).onFailure (hgiveUp _)
    refine bind_rel (R := Tends A) (hnew h ⟨loader, hloader, hlt⟩) fun link h₁ hr => ?_
    -- The interpreter is there, so the instance can be closed as a whole.
    obtain ⟨k, hunused, hmade, hloaders, -⟩ := newInterp_ready hloader (onFailure_ok hr)
    obtain ⟨j, hj, hobserver, -⟩ := hmade
    let loaded : Instance := ⟨memberInfo number main plugins, c.loader, some a, some link⟩
    have hgrounded : loaded.Grounded a h₁ := by
      refine ⟨⟨loader, by rw [hloaders]; exact hloader, hlt⟩, fun link' hlink => ?_⟩
      cases hlink
      exact ⟨k, hunused.interpAt, j, hj, hobserver⟩
    have hconfigure : Within (TendsIf (loaded.Grounded a) A) (configure env loaded.info) := by
      intro h _
      obtain ⟨environments, he⟩ := configure_eq env loaded.info h
      rw [he]
      exact tends_of_quiet (.refl _) rfl rfl rfl rfl
    have hclose : Within (TendsIf (loaded.Grounded a) A) loaded.close := tends_close rfl hA
    exact (hconfigure.onFailure hclose.ignoring).bind (fun _ => within_pure _) h₁ hgrounded

/-- What is left to do once the image is open. -/
def outfit (number : Nat) (c : ImageSpec) (env : EnvironmentId) (main : ExtractedImage)
    (image : Nat) : HostM Instance := do
  if main.customLoader then
    onFailure (bindSelf c.loader image) ((opened number c main image).giveUp [main])
  equip number c env main image

/-- What happens to an image until its instance is there, after it was opened. -/
def fitting (main : ExtractedImage) (searchPaths : List String) (plugins : List ExtractedImage) :
    List ImageEvent :=
  (if main.customLoader then [.bound] else []) ++ [.created searchPaths (plugins.map (·.path))]

theorem past_memberInfo (number : Nat) (main : ExtractedImage) (searchPaths : List String)
    (plugins : List ExtractedImage) : (memberInfo number main plugins).past searchPaths =
      [.opened main.path (.forImage main.customLoader)] ++ fitting main searchPaths plugins :=
  List.append_assoc ..

theorem tends_outfit {c : ImageSpec} (hA : A c.loader a) (number : Nat) (env : EnvironmentId)
    (main : ExtractedImage) :
    Within (TendsIf (HasOpened c.loader a) A) (outfit number c env main a) := by
  have hequip := tends_equip hA number env main
  have hbind : Within (TendsIf (HasOpened c.loader a) A) (bindSelf c.loader a) :=
    (tends_useEntryPoint hA _ _).bind fun _ => within_pure _
  have hgiveUp : Within (TendsIf (HasOpened c.loader a) A)
      ((opened number c main a).giveUp [main]) :=
    tends_giveUp (i := opened number c main a) rfl rfl hA
  unfold outfit
  split
  · exact (hbind.onFailure hgiveUp).bind fun _ => hequip
  · exact hequip

/-- Either no image is opened and the instance is not loaded, or the next image of the loader is. In the
first case nothing is put down but files that go away. -/
theorem load_cases (number : Nat) (c : ImageSpec) (env : EnvironmentId) (h : Host) :
    (∃ e h', runOn h (load number c env) = (.error e, h') ∧ h.Tends (fun _ _ => False) h' ∧
      ∃ files : List ExtractedImage, h'.machine.journal =
        h.machine.journal ++ ((files.filter (·.guarded)).map (·.path)).map .released) ∨
      ∃ main loader sources,
        runOn h (extract c.source c.payload) = (.ok main, { h with sources }) ∧
        h.loaders[c.loader]? = some loader ∧
        (loader.behaviour loader.attempts).refusal main.path = none ∧
        runOn h (load number c env) = runOn (h.opening c.loader loader main sources)
          (outfit number c env main loader.attempts) := by
  rw [load_eq]
  obtain ⟨sources, hs⟩ := extract_eq c.source c.payload h
  rcases hx : runOn h (extract c.source c.payload) with ⟨e | main, h₁⟩
  · have ht := tends_extract (A := fun _ _ => False) c.source c.payload h
    rw [hx] at ht hs
    obtain rfl : h₁ = { h with sources } := hs
    exact .inl ⟨e, _, runOn_bind_error hx _, ht, [], (List.append_nil _).symm⟩
  · rw [hx] at hs
    obtain rfl : h₁ = { h with sources } := hs
    have ht : h.Tends (fun _ _ => False) { h with sources } :=
      tends_of_quiet (.refl _) rfl rfl rfl rfl
    rw [runOn_bind_ok hx]
    -- If the image cannot be opened, its file goes away again.
    rcases openImage_cases c.loader main.path (.forImage main.customLoader) { h with sources } with
      ⟨e, hopen⟩ | ⟨loader, hloader, ⟨e, hopen⟩ | ⟨hopens, hopen⟩⟩
    · obtain ⟨e', hrun⟩ := onFailure_of_error hopen (release [main])
      exact .inl ⟨e', _, runOn_bind_error hrun _, ht.trans (tends_release [main] _), [main],
        journal_release [main] _⟩
    · obtain ⟨e', hrun⟩ := onFailure_of_error hopen (release [main])
      exact .inl ⟨e', _, runOn_bind_error hrun _,
        (ht.trans (tends_of_attempt hloader)).trans (tends_release [main] _), [main],
        journal_release [main] _⟩
    · refine .inr ⟨main, loader, sources, rfl, hloader, hopens, ?_⟩
      rw [runOn_bind_ok (onFailure_of_ok hopen _)]
      rfl

/-- To load an instance, one image is opened, if any, and no other image is tended to. -/
theorem tends_load (number : Nat) (c : ImageSpec) (env : EnvironmentId) (h : Host) :
    h.Tends (fun l a => ¬ h.HasOpened l a) (runOn h (load number c env)).2 := by
  rcases load_cases number c env h with
    ⟨e, h', hr, ht, -⟩ | ⟨main, loader, sources, -, hloader, -, hr⟩
  · rw [hr]
    exact ht.mono fun _ _ hf => hf.elim
  · rw [hr]
    have hA : ¬ h.HasOpened c.loader loader.attempts := not_hasOpened_attempts hloader
    have ht := tends_opening (A := fun l a => ¬ h.HasOpened l a) hloader hA main sources
    exact ht.trans (tends_outfit (A := fun l a => ¬ h.HasOpened l a) hA number env main _
      (hasOpened_opening main sources hloader))

theorem equip_manned {c : ImageSpec} {loader : Loader} {number : Nat} {env : EnvironmentId}
    {main : ExtractedImage} (hl : h.loaders[c.loader]? = some loader)
    (hr : runOn h (equip number c env main a) = (.ok i, h')) :
    ∃ k plugins paths, i = ⟨memberInfo number main plugins, c.loader, some a, i.link⟩ ∧
      h'.Manned loader.behaviour a k i ∧ h'.loaders = h.loaders ∧
      h'.machine.journal = h.machine.journal ++
        [.image c.loader a (.created paths (plugins.map (·.path)))] := by
  obtain ⟨x, h₁, hextract, hr⟩ := bind_ok hr
  obtain ⟨sources, hs⟩ := extractEach_eq c.source c.plugins h
  rw [hextract] at hs
  obtain rfl : h₁ = { h with sources } := hs
  rcases x with ⟨plugins, failure⟩
  cases failure with
  | some e =>
    obtain ⟨_, h₂, -, hthrow⟩ := bind_ok hr
    cases hthrow
  | none =>
    obtain ⟨environment, h₂, hfind, hr⟩ := bind_ok hr
    obtain ⟨-, rfl⟩ := find_ok hfind
    obtain ⟨link, h₃, hnew, hr⟩ := bind_ok hr
    obtain ⟨_, h₄, hconfigure, hr⟩ := bind_ok hr
    obtain ⟨environments, he⟩ := configure_eq env (memberInfo number main plugins) h₃
    rw [onFailure_ok hconfigure] at he
    obtain rfl : h₄ = { h₃ with environments } := he
    cases hr
    obtain ⟨k, hunused, hmade, hloaders, hjournal⟩ :=
      newInterp_ready (h := { h with sources }) hl (onFailure_ok hnew)
    exact ⟨k, plugins, environment.searchPaths, rfl,
      ⟨rfl, ⟨link, rfl, hunused.connected⟩, hmade⟩, hloaders, hjournal⟩

/-- An instance that was outfitted has the image, and nothing happened to that but what it takes. -/
theorem outfit_manned {c : ImageSpec} {loader : Loader} {number : Nat} {env : EnvironmentId}
    {main : ExtractedImage} (hl : h.loaders[c.loader]? = some loader)
    (hr : runOn h (outfit number c env main a) = (.ok i, h')) :
    ∃ k plugins paths, i = ⟨memberInfo number main plugins, c.loader, some a, i.link⟩ ∧
      h'.Manned loader.behaviour a k i ∧ h'.loaders = h.loaders ∧
      h'.machine.journal =
        h.machine.journal ++ (fitting main paths plugins).map (.image c.loader a) := by
  unfold outfit at hr
  unfold fitting
  cases hc : main.customLoader with
  | false =>
    rw [hc] at hr
    exact equip_manned hl hr
  | true =>
    rw [hc] at hr
    obtain ⟨_, h₁, hbind, hr⟩ := bind_ok hr
    rcases bindSelf_cases a hl with ⟨e, -, he⟩ | ⟨-, hbound⟩
    · cases he.symm.trans (onFailure_ok hbind)
    · cases hbound.symm.trans (onFailure_ok hbind)
      obtain ⟨k, plugins, paths, hi, hmanned, hloaders, hjournal⟩ := equip_manned
        (h := { h with machine := h.machine.record (.image c.loader a .bound) }) hl hr
      refine ⟨k, plugins, paths, hi, hmanned, hloaders, hjournal.trans ?_⟩
      exact List.append_assoc ..

/-- An instance that was loaded has the next image of its loader, and nothing happened to that but what
it takes to load it. -/
theorem load_manned {number : Nat} {c : ImageSpec} {env : EnvironmentId}
    (hr : runOn h (load number c env) = (.ok i, h')) :
    ∃ loader k paths, h.loaders[c.loader]? = some loader ∧ i.loader = c.loader ∧
      i.info.number = number ∧ h'.Manned loader.behaviour loader.attempts k i ∧
      h'.HasOpened c.loader loader.attempts ∧ h'.machine.journal = h.machine.journal ++
        (i.info.past paths).map (.image c.loader loader.attempts) := by
  rcases load_cases number c env h with
    ⟨e, h₁, he, -⟩ | ⟨main, loader, sources, -, hloader, -, hload⟩
  · cases he.symm.trans hr
  · obtain ⟨k, plugins, paths, hi, hmanned, hloaders, hjournal⟩ := outfit_manned
      (h := h.opening c.loader loader main sources)
      (List.getElem?_set_self (List.getElem?_eq_some_iff.1 hloader).1) (hload.symm.trans hr)
    refine ⟨loader, k, paths, hloader, by rw [hi], by rw [hi]; rfl, hmanned, ?_, ?_⟩
    · obtain ⟨loader', hl', hlt⟩ := hasOpened_opening main sources hloader
      exact ⟨loader', by rw [hloaders]; exact hl', hlt⟩
    · rw [hjournal, hi, past_memberInfo]
      exact List.append_assoc ..

theorem barren_giveUp {images : List ExtractedImage} (hi : i.image = some a) (hl : i.link = none) :
    Within Barren (i.giveUp images) := by
  refine (barren_release images).bind fun _ => Within.ignoring fun h => ?_
  have hclosed := barren_record i.loader a .closed rfl h
  rw [teardown_opened hi hl]
  exact hclosed

theorem close_befalls {loader : Loader} {k : Nat} (hi : h.Manned loader.behaviour a k i)
    (hloader : h.loaders[i.loader]? = some loader) :
    h.Befalls i.loader a ((loader.behaviour a).fate i.info.customLoader) (runOn h i.close).2 := by
  obtain ⟨link, h', -, hr, hu, -⟩ := close_manned hi hloader
  rw [hr]
  exact ⟨_, hu.journal, i.history_farewell a loader.behaviour⟩

/-- If an instance cannot be equipped, then either its image makes no interpreter, or the environment
refuses the instance, which is torn down as any other. -/
theorem equip_refused {c : ImageSpec} {loader : Loader} {number : Nat} {env : EnvironmentId}
    {main : ExtractedImage} {e : Error} (hl : h.loaders[c.loader]? = some loader)
    (hr : runOn h (equip number c env main a) = (.error e, h')) :
    h.Barren h' ∨ ∃ paths, ∃ plugins : List ExtractedImage, h.Befalls c.loader a
      ([.created paths (plugins.map (·.path))] ++ (loader.behaviour a).fate main.customLoader) h' := by
  have hgiveUp (images : List ExtractedImage) :
      Within Barren ((opened number c main a).giveUp images) :=
    barren_giveUp (i := opened number c main a) rfl rfl
  obtain ⟨sources, hs⟩ := extractEach_eq c.source c.plugins h
  have hextract : h.Barren { h with sources } := barren_of_journal rfl
  rcases bind_error hr with hr | ⟨⟨plugins, failure⟩, h₁, hx, hr⟩
  · rw [hr] at hs
    obtain rfl : h' = { h with sources } := hs
    exact .inl hextract
  rw [hx] at hs
  obtain rfl : h₁ = { h with sources } := hs
  cases failure with
  -- A plugin is missing: there is no interpreter yet.
  | some e' =>
    have hrest := ((hgiveUp _).bind fun _ => within_throw e').of_eq hr
    exact .inl (Frame.trans hextract hrest)
  | none =>
    rcases bind_error hr with hr | ⟨environment, h₂, hfind, hr⟩
    · have hrest := (within_find (R := Barren) _).of_eq hr
      exact .inl (Frame.trans hextract hrest)
    obtain ⟨-, rfl⟩ := find_ok hfind
    rcases bind_error hr with hr | ⟨link, h₃, hnew, hr⟩
    · obtain ⟨e₁, h₁, hnew, rfl⟩ := onFailure_failed hr
      rcases newInterp_cases (h := { h with sources }) a environment.searchPaths
        (plugins.map (·.path)) hl with ⟨e₂, -, he⟩ | ⟨-, link, channels, hok, -⟩
      · cases he.symm.trans hnew
        exact .inl (Frame.trans hextract (hgiveUp _ _))
      · cases hok.symm.trans hnew
    · obtain ⟨k, hunused, hmade, hloaders, hjournal⟩ :=
        newInterp_ready (h := { h with sources }) hl (onFailure_ok hnew)
      rcases bind_error hr with hr | ⟨_, h₄, -, hpure⟩
      -- The environment refuses, and there is an interpreter to be torn down.
      · obtain ⟨e₁, h₄, hconfigure, rfl⟩ := onFailure_failed hr
        obtain ⟨environments, he⟩ := configure_eq env (memberInfo number main plugins) h₃
        rw [hconfigure] at he
        obtain rfl : h₄ = { h₃ with environments } := he
        let loaded : Instance := ⟨memberInfo number main plugins, c.loader, some a, some link⟩
        have hmanned : Manned loader.behaviour a k loaded { h₃ with environments } :=
          ⟨rfl, ⟨link, rfl, hunused.connected⟩, hmade⟩
        have hloader : h₃.loaders[loaded.loader]? = some loader := by rw [hloaders]; exact hl
        have hcreated : h.Befalls c.loader a [.created environment.searchPaths
            (plugins.map (·.path))] { h₃ with environments } := befalls_of_journal hjournal
        exact .inr ⟨_, plugins, hcreated.trans (close_befalls hmanned hloader)⟩
      · cases hpure

theorem outfit_refused {c : ImageSpec} {loader : Loader} {number : Nat} {env : EnvironmentId}
    {main : ExtractedImage} {e : Error} (hl : h.loaders[c.loader]? = some loader)
    (hr : runOn h (outfit number c env main a) = (.error e, h')) :
    h.Barren h' ∨ ∃ paths plugins, h.Befalls c.loader a
      (fitting main paths plugins ++ (loader.behaviour a).fate main.customLoader) h' := by
  unfold outfit at hr
  unfold fitting
  cases hc : main.customLoader with
  -- A shared image is not bound to its handle.
  | false =>
    rw [hc] at hr
    have hequip := equip_refused hl hr
    rw [hc] at hequip
    exact hequip
  | true =>
    rw [hc] at hr
    have hbound : h.Befalls c.loader a [.bound]
        { h with machine := h.machine.record (.image c.loader a .bound) } := befalls_of_journal rfl
    rcases bindSelf_cases a hl with ⟨e₁, -, hbind⟩ | ⟨-, hbind⟩
    · have hgiveUp : Within Barren ((opened number c main a).giveUp [main]) :=
        barren_giveUp (i := opened number c main a) rfl rfl
      rcases bind_error hr with hr | ⟨_, h₁, hok, -⟩
      · obtain ⟨e₂, h₁, he, rfl⟩ := onFailure_failed hr
        cases hbind.symm.trans he
        exact .inl (hgiveUp h)
      · cases hbind.symm.trans (onFailure_ok hok)
    · rw [if_pos rfl, runOn_bind_ok (onFailure_of_ok hbind _)] at hr
      have hequip := equip_refused
        (h := { h with machine := h.machine.record (.image c.loader a .bound) }) hl hr
      refine hequip.imp (fun hb => ?_) fun hb => ?_
      · exact Frame.trans (barren_record c.loader a .bound rfl h) hb
      · obtain ⟨paths, plugins, hb⟩ := hb
        refine ⟨paths, plugins, ?_⟩
        have hboth := hbound.trans hb
        rw [hc] at hboth
        exact hboth

/-- If an instance cannot be loaded, then either no image makes an interpreter, or the environment
refuses the instance, which is torn down as any other. -/
theorem load_refused {number : Nat} {c : ImageSpec} {env : EnvironmentId} {e : Error}
    (hr : runOn h (load number c env) = (.error e, h')) :
    h.Barren h' ∨ ∃ loader info paths, h.loaders[c.loader]? = some loader ∧
      h.Befalls c.loader loader.attempts (InstanceInfo.past info paths ++
        (loader.behaviour loader.attempts).fate info.customLoader) h' := by
  rcases load_cases number c env h with
    ⟨e₁, h₁, he, ht, -⟩ | ⟨main, loader, sources, -, hloader, -, hload⟩
  · cases he.symm.trans hr
    exact .inl ht.barren
  · let event : ImageEvent := .opened main.path (.forImage main.customLoader)
    have hopened : h.Befalls c.loader loader.attempts [event]
        (h.opening c.loader loader main sources) := befalls_of_journal rfl
    have hbarren : h.Barren (h.opening c.loader loader main sources) :=
      barren_record c.loader loader.attempts event rfl { h with
        sources
        loaders := h.loaders.set c.loader { loader with attempts := loader.attempts + 1 } }
    rcases outfit_refused (h := h.opening c.loader loader main sources)
      (List.getElem?_set_self (List.getElem?_eq_some_iff.1 hloader).1) (hload.symm.trans hr) with
      hb | ⟨paths, plugins, hb⟩
    · exact .inl (Frame.trans hbarren hb)
    · refine .inr ⟨loader, memberInfo number main plugins, paths, hloader, ?_⟩
      rw [past_memberInfo, List.append_assoc]
      exact hopened.trans hb

end Instance

end InstancePool
