import InstancePool.Proofs.Image.InstanceImages

/-!
Extracted files and the image that was opened from them. The files of an instance go away after its image
has ended: when it is closed, when it is dropped, and when the environment refuses it. A load that fails
before there is an interpreter lets go of the files first, and closes the image after that.
-/

namespace InstancePool

open HostM Host

/-- Whether an entry tells that a file went away. -/
def JournalEntry.releases : JournalEntry → Bool
  | released _ => true
  | image .. => false

/-- A file goes away only when nothing more happens to any image. -/
def FilesLast (entries : List JournalEntry) : Prop :=
  entries.Pairwise fun x y => x.releases → y.releases

instance : DecidablePred FilesLast :=
  fun entries => inferInstanceAs (Decidable (entries.Pairwise _))

/-- What is put down when files are let go of. -/
def departures (files : List ExtractedImage) : List JournalEntry :=
  ((files.filter (·.guarded)).map (·.path)).map .released

/-- The steps of a load that can fail once the image is open. -/
inductive LoadStep where
  | bind
  | plugins
  | factory
  | configuration
  deriving Repr, DecidableEq

/-- What a load meets with once the image is open. -/
structure LoadAttempt where
  number : Nat
  loader : LoaderId
  image : Nat
  behaviour : ImageBehaviour
  environment : Environment
  main : ExtractedImage
  /-- The plugins up to the first one that cannot be extracted. -/
  plugins : List ExtractedImage
  /-- Why that one cannot. -/
  failure : Option Error

namespace LoadAttempt

/-- The instance as it is shown to the environment. -/
def info (t : LoadAttempt) : InstanceInfo := memberInfo t.number t.main t.plugins

/-- Why the environment refuses the instance. -/
def refusal (t : LoadAttempt) : Option Error :=
  (t.environment.refusal t.info).map fun reasons =>
    .configure (InstanceInfo.displayNumber t.number ++ ": " ++ ": ".intercalate reasons)

/-- The first step that fails, and how. -/
def setback (t : LoadAttempt) : Option (LoadStep × Error) :=
  ((if t.main.customLoader then t.behaviour.trouble .bind else none).map (.bind, ·)).or <|
  (t.failure.map (.plugins, ·)).or <|
  ((t.behaviour.trouble .factory).map (.factory, ·)).or <|
  t.refusal.map (.configuration, ·)

/-- The files that there are when a step fails. -/
def files (t : LoadAttempt) : LoadStep → List ExtractedImage
  | .bind => [t.main]
  | .plugins | .factory | .configuration => t.main :: t.plugins

/-- What has happened to the image when a step fails. -/
def past (t : LoadAttempt) : LoadStep → List ImageEvent
  | .bind => [.opened t.main.path (.forImage t.main.customLoader)]
  | .plugins | .factory => beginnings t.main
  | .configuration => t.info.past t.environment.searchPaths

/-- What is put down about the image. -/
def told (t : LoadAttempt) (events : List ImageEvent) : List JournalEntry :=
  events.map (.image t.loader t.image)

/-- What is put down by a load that fails at a step. -/
def trace (t : LoadAttempt) : LoadStep → List JournalEntry
  | .configuration => t.told (t.past .configuration) ++
      t.told (t.behaviour.fate t.main.customLoader) ++ departures (t.files .configuration)
  | s => t.told (t.past s) ++ departures (t.files s) ++ t.told [.closed]

/-- What a load comes to: an instance, or the failure of the first step that fails. -/
def Comes (t : LoadAttempt) (base : List JournalEntry) (r : Except Error Instance) (h : Host) : Prop :=
  match t.setback with
  | none => (∃ i, r = .ok i ∧ i.info = t.info ∧ i.image = some t.image) ∧
      h.machine.journal = base ++ t.told (t.info.past t.environment.searchPaths)
  | some (s, e) => r = .error e ∧ h.machine.journal = base ++ t.trace s

end LoadAttempt

/-- A load that comes as far as to open an image, and what it meets with after that. -/
structure Host.Attempts (h : Host) (number : Nat) (c : ImageSpec) (env : EnvironmentId)
    (t : LoadAttempt) : Prop where
  number : t.number = number
  loader : t.loader = c.loader
  image : ∃ loader, h.loaders[c.loader]? = some loader ∧ t.image = loader.attempts ∧
    t.behaviour = loader.behaviour loader.attempts
  opens : t.behaviour.refusal t.main.path = none
  environment : h.environments[env]? = some t.environment
  extracted : ∃ h₁ h₂, runOn h (extract c.source c.payload) = (.ok t.main, h₁) ∧
    runOn h₁ (extractEach c.source c.plugins) = (.ok (t.plugins, t.failure), h₂)

/-- The image of an attempt is open, and some things have happened to it. -/
structure LoadAttempt.Open (t : LoadAttempt) (base : List JournalEntry) (env : EnvironmentId)
    (events : List ImageEvent) (h : Host) : Prop where
  loader : ∃ loader, h.loaders[t.loader]? = some loader ∧ loader.behaviour t.image = t.behaviour
  environment : h.environments[env]? = some t.environment
  journal : h.machine.journal = base ++ t.told events

section FilesLast

variable {entries told : List JournalEntry} {files : List ExtractedImage}

theorem releases_departures : ∀ x ∈ departures files, x.releases = true := by
  intro x hx
  obtain ⟨path, -, rfl⟩ := List.mem_map.1 hx
  rfl

/-- Only guarded files go away. -/
theorem departures_eq_nil : departures files = [] ↔ ∀ f ∈ files, f.guarded = false := by
  simp only [departures, List.map_eq_nil_iff, List.filter_eq_nil_iff, Bool.not_eq_true]

theorem LoadAttempt.releases_told (t : LoadAttempt) (events : List ImageEvent) :
    ∀ x ∈ t.told events, x.releases = false := by
  intro x hx
  obtain ⟨event, -, rfl⟩ := List.mem_map.1 hx
  rfl

/-- What happens to images before everything else does not matter. -/
theorem filesLast_append (htold : ∀ x ∈ told, x.releases = false) :
    FilesLast (told ++ entries) ↔ FilesLast entries := by
  induction told with
  | nil => exact Iff.rfl
  | cons x told ih =>
    have hx : x.releases = false := htold x List.mem_cons_self
    have hvacuous : ∀ y ∈ told ++ entries, x.releases → y.releases :=
      fun y _ hr => absurd (hx.symm.trans hr) Bool.false_ne_true
    rw [← ih fun y hy => htold y (List.mem_cons_of_mem x hy)]
    exact List.pairwise_cons.trans (and_iff_right hvacuous)

theorem LoadAttempt.filesLast_told (t : LoadAttempt) (events : List ImageEvent) :
    FilesLast (t.told events) := by
  rw [← List.append_nil (t.told events), filesLast_append (t.releases_told events)]
  exact List.Pairwise.nil

theorem filesLast_departures (files : List ExtractedImage) : FilesLast (departures files) :=
  List.Pairwise.imp_of_mem (fun _ hy _ _ => releases_departures _ hy)
    (List.pairwise_of_forall (R := fun _ _ => True) fun _ _ => trivial)

/-- If something happens to an image in the end, then no file may have gone away. -/
theorem filesLast_departures_append {x : JournalEntry} (hx : x.releases = false) :
    FilesLast (departures files ++ [x]) ↔ ∀ f ∈ files, f.guarded = false := by
  rw [← departures_eq_nil]
  constructor
  · intro hlast
    rw [List.eq_nil_iff_forall_not_mem]
    intro y hy
    have hr : x.releases :=
      (List.pairwise_append.1 hlast).2.2 y hy x List.mem_cons_self (releases_departures y hy)
    exact Bool.false_ne_true (hx.symm.trans hr)
  · intro hnil
    rw [hnil]
    exact List.pairwise_singleton _ _

/-- A load that fails before there is an interpreter keeps the order only if it has no guarded file. -/
theorem LoadAttempt.filesLast_trace (t : LoadAttempt) (s : LoadStep) :
    FilesLast (t.trace s) ↔ s = .configuration ∨ ∀ f ∈ t.files s, f.guarded = false := by
  have hgivenUp (s : LoadStep) :
      FilesLast (t.told (t.past s) ++ departures (t.files s) ++ t.told [.closed]) ↔
        ∀ f ∈ t.files s, f.guarded = false := by
    rw [List.append_assoc, filesLast_append (t.releases_told _)]
    exact filesLast_departures_append rfl
  cases s with
  | configuration =>
    refine iff_of_true ?_ (.inl rfl)
    rw [trace, List.append_assoc, filesLast_append (t.releases_told _),
      filesLast_append (t.releases_told _)]
    exact filesLast_departures _
  | bind | plugins | factory => exact (hgivenUp _).trans (or_iff_right nofun).symm

end FilesLast

namespace Host

variable {h h' : Host}

/-- What a source makes of a payload is up to the source alone. -/
theorem extract_congr (source : SourceId) (p : Payload) (hs : h'.sources = h.sources) :
    (runOn h' (extract source p)).1 = (runOn h (extract source p)).1 ∧
      (runOn h' (extract source p)).2.sources = (runOn h (extract source p)).2.sources := by
  simp only [extract, runOn_of, hs]
  split
  · exact ⟨rfl, hs⟩
  · exact ⟨rfl, rfl⟩

/-- The failure of a payload is part of what comes of them all. -/
theorem extractEach_ok (source : SourceId) (ps : List Payload) (h : Host) :
    ∃ x, (runOn h (extractEach source ps)).1 = .ok x := by
  induction ps generalizing h with
  | nil => exact ⟨_, rfl⟩
  | cons p ps ih =>
    rw [extractEach, runOn_bind, runOn_outcome]
    cases (runOn h (extract source p)).1 with
    | error e => exact ⟨_, rfl⟩
    | ok image =>
      obtain ⟨x, hx⟩ := ih (runOn h (extract source p)).2
      refine ⟨(image :: x.1, x.2), ?_⟩
      exact congrArg Prod.fst (runOn_bind_ok (Prod.ext hx rfl) _)

theorem extractEach_congr (source : SourceId) (ps : List Payload) (hs : h'.sources = h.sources) :
    (runOn h' (extractEach source ps)).1 = (runOn h (extractEach source ps)).1 := by
  induction ps generalizing h h' with
  | nil => rfl
  | cons p ps ih =>
    obtain ⟨hr, hs'⟩ := extract_congr source p hs
    simp only [extractEach, runOn_bind, runOn_outcome, hr]
    cases (runOn h (extract source p)).1 with
    | error e => rfl
    | ok image =>
      obtain ⟨x, hx⟩ := extractEach_ok source ps (runOn h (extract source p)).2
      have hx' := (ih hs').trans hx
      simp only []
      rw [runOn_bind_ok (Prod.ext hx rfl), runOn_bind_ok (Prod.ext hx' rfl)]
      rfl

end Host

namespace LoadAttempt

variable {t : LoadAttempt} {base : List JournalEntry} {c : ImageSpec} {env : EnvironmentId}
  {h : Host} {events : List ImageEvent} {s : LoadStep} {e : Error}

theorem comes_error (hs : t.setback = some (s, e)) (hj : h.machine.journal = base ++ t.trace s) :
    t.Comes base (.error e) h := by
  simp only [Comes, hs]
  exact ⟨trivial, hj⟩

theorem comes_ok {i : Instance} (hs : t.setback = none) (hinfo : i.info = t.info)
    (himage : i.image = some t.image)
    (hj : h.machine.journal = base ++ t.told (t.info.past t.environment.searchPaths)) :
    t.Comes base (.ok i) h := by
  simp only [Comes, hs]
  exact ⟨⟨i, rfl, hinfo, himage⟩, hj⟩

theorem told_append (t : LoadAttempt) (events events' : List ImageEvent) :
    t.told (events ++ events') = t.told events ++ t.told events' := List.map_append

/-- One more thing happens to the image. -/
theorem Open.record (ho : t.Open base env events h) (event : ImageEvent) :
    t.Open base env (events ++ [event])
      { h with machine := h.machine.record (.image t.loader t.image event) } where
  loader := ho.loader
  environment := ho.environment
  journal := by
    rw [told_append, ← List.append_assoc]
    exact congrArg (· ++ [_]) ho.journal

theorem Open.find (ho : t.Open base env events h) :
    runOn h (HostM.find fun h => h.environments[env]?) = (.ok t.environment, h) := by
  simp only [runOn_find, ho.environment, Option.elim]

/-- When the image is given up, the files are the first to go. -/
theorem Open.giveUp (ho : t.Open base env events h) (hl : t.loader = c.loader)
    (files : List ExtractedImage) :
    ∃ h', runOn h ((Instance.opened t.number c t.main t.image).giveUp files) = (.ok (), h') ∧
      h'.machine.journal =
        base ++ (t.told events ++ departures files ++ t.told [.closed]) := by
  obtain ⟨h₁, hrelease, hu, -⟩ := release_unwinds files h
  refine ⟨{ h₁ with machine := h₁.machine.record (.image c.loader t.image .closed) }, ?_, ?_⟩
  · rw [Instance.giveUp, runOn_bind_ok hrelease, runOn_ignoring, Instance.teardown_opened rfl rfl]
    rfl
  · calc h₁.machine.journal ++ [.image c.loader t.image .closed]
      _ = base ++ t.told events ++ departures files ++ [.image c.loader t.image .closed] := by
        rw [hu.journal, ho.journal]
        rfl
      _ = base ++ (t.told events ++ departures files ++ t.told [.closed]) := by
        rw [told, told, hl, List.append_assoc, List.append_assoc, List.append_assoc]
        rfl

/-- The instance of an attempt, once there is a link to its interpreter. -/
def inst (t : LoadAttempt) (link : Link) : Instance := ⟨t.info, t.loader, some t.image, some link⟩

/-- The interpreter is made, unless the entry point for that cannot be used. -/
theorem Open.newInterp (ho : t.Open base env (beginnings t.main) h) :
    (∃ e, t.behaviour.trouble .factory = some e ∧ runOn h (newInterp t.loader t.image
        t.environment.searchPaths (t.plugins.map (·.path))) = (.error e, h)) ∨
      t.behaviour.trouble .factory = none ∧ ∃ link h', runOn h (newInterp t.loader t.image
          t.environment.searchPaths (t.plugins.map (·.path))) = (.ok link, h') ∧
        t.Open base env (t.info.past t.environment.searchPaths) h' ∧
        ∃ (b : Nat → ImageBehaviour) (k : Nat), b t.image = t.behaviour ∧
          h'.Manned b t.image k (t.inst link) := by
  obtain ⟨loader, hloader, hb⟩ := ho.loader
  rw [← hb]
  rcases newInterp_cases t.image t.environment.searchPaths (t.plugins.map (·.path)) hloader with
    hfails | ⟨hmakes, link, channels, hnew, -⟩
  · exact .inl hfails
  · obtain ⟨k, hunused, hmade, hloaders, hjournal⟩ := newInterp_ready hloader hnew
    refine .inr ⟨hmakes, link, _, hnew, ⟨⟨loader, hloader, hb⟩, ho.environment, ?_⟩,
      loader.behaviour, k, rfl, rfl, ⟨link, rfl, hunused.connected⟩, hmade⟩
    rw [hjournal, ho.journal, List.append_assoc]
    exact congrArg (base ++ ·) (t.told_append (beginnings t.main) [.created _ _]).symm

/-- The environment accepts the instance or refuses it, and puts nothing down. -/
theorem Open.configure (ho : t.Open base env events h) :
    ∃ environments, runOn h (configure env t.info) =
      (match t.refusal with
        | some e => .error e
        | none => .ok (), { h with environments }) := by
  rw [Host.configure, runOn_bind_ok ho.find, refusal]
  cases t.environment.refusal t.info with
  | some reasons => exact ⟨_, rfl⟩
  | none => exact ⟨_, rfl⟩

/-- An instance that the environment refuses is torn down, and its files are the last to go. -/
theorem Open.configure_refused {link : Link} {b : Nat → ImageBehaviour} {k : Nat}
    (ho : t.Open base env events h) (hb : b t.image = t.behaviour)
    (hm : h.Manned b t.image k (t.inst link)) (he : t.refusal = some e) :
    ∃ h', runOn h (onFailure (Host.configure env t.info) (ignoring (t.inst link).close)) =
        (.error e, h') ∧ h'.machine.journal = base ++ (t.told events ++
          t.told (t.behaviour.fate t.main.customLoader) ++ departures (t.main :: t.plugins)) := by
  obtain ⟨loader, hloader, hb'⟩ := ho.loader
  obtain ⟨environments, hconfigure⟩ := ho.configure
  rw [he] at hconfigure
  have hm' : Manned loader.behaviour t.image k (t.inst link) { h with environments } :=
    ⟨hm.opened, hm.link, by rw [hb', ← hb]; exact hm.interp⟩
  obtain ⟨link', h', -, hclose, hu, -⟩ := Instance.close_manned hm' hloader
  refine ⟨h', onFailure_error hconfigure (by rw [runOn_ignoring, hclose]), ?_⟩
  rw [hu.journal, ho.journal, Instance.farewell, hb', List.append_assoc, List.append_assoc]
  rfl

/-- What is left to do once the image knows its handle, step by step. -/
theorem Open.equip (ho : t.Open base env (beginnings t.main) h) (hl : t.loader = c.loader)
    (hbind : (if t.main.customLoader then t.behaviour.trouble .bind else none) = none)
    (hplugins : (runOn h (extractEach c.source c.plugins)).1 = .ok (t.plugins, t.failure)) :
    ∃ r h', runOn h (Instance.equip t.number c env t.main t.image) = (r, h') ∧ t.Comes base r h' := by
  obtain ⟨sources, hs⟩ := extractEach_eq c.source c.plugins h
  have ho₁ : t.Open base env (beginnings t.main) { h with sources } :=
    ⟨ho.loader, ho.environment, ho.journal⟩
  obtain ⟨h₂, hgiveUp, hj₂⟩ := ho₁.giveUp hl (t.main :: t.plugins)
  rw [Instance.equip, runOn_bind_ok (Prod.ext hplugins hs)]
  cases hfailure : t.failure with
  | some e =>
    -- A plugin cannot be extracted.
    have hset : t.setback = some (.plugins, e) := by
      rw [setback, hbind, hfailure]
      rfl
    exact ⟨.error e, h₂, runOn_bind_ok hgiveUp _, comes_error hset hj₂⟩
  | none =>
    simp only []
    rw [runOn_bind_ok ho₁.find, ← hl]
    rcases ho₁.newInterp with
      ⟨e, hfactory, hnew⟩ | ⟨hfactory, link, h₃, hnew, ho₃, b, k, hb, hm⟩
    · -- There is no interpreter.
      have hset : t.setback = some (.factory, e) := by
        rw [setback, hbind, hfailure, hfactory]
        rfl
      exact ⟨.error e, h₂, runOn_bind_error (onFailure_error hnew hgiveUp) _, comes_error hset hj₂⟩
    · rw [runOn_bind_ok (onFailure_of_ok hnew _)]
      cases hrefusal : t.refusal with
      | some e =>
        have hset : t.setback = some (.configuration, e) := by
          rw [setback, hbind, hfailure, hfactory, hrefusal]
          rfl
        obtain ⟨h', hrefused, hj⟩ := ho₃.configure_refused hb hm hrefusal
        exact ⟨.error e, h', runOn_bind_error hrefused _, comes_error hset hj⟩
      | none =>
        have hset : t.setback = none := by
          rw [setback, hbind, hfailure, hfactory, hrefusal]
          rfl
        obtain ⟨environments, hconfigure⟩ := ho₃.configure
        rw [hrefusal] at hconfigure
        exact ⟨_, _, runOn_bind_ok (onFailure_of_ok hconfigure _) _,
          comes_ok hset rfl rfl ho₃.journal⟩

/-- What is left to do once the image is open. -/
theorem Open.outfit
    (ho : t.Open base env [.opened t.main.path (.forImage t.main.customLoader)] h)
    (hl : t.loader = c.loader)
    (hplugins : (runOn h (extractEach c.source c.plugins)).1 = .ok (t.plugins, t.failure)) :
    ∃ r h', runOn h (Instance.outfit t.number c env t.main t.image) = (r, h') ∧
      t.Comes base r h' := by
  obtain ⟨loader, hloader, hb⟩ := ho.loader
  unfold Instance.outfit
  cases hisolated : t.main.customLoader with
  | false =>
    rw [if_neg Bool.false_ne_true]
    refine Open.equip ?_ hl ?_ hplugins
    · rw [beginnings, hisolated, if_neg Bool.false_ne_true, List.append_nil, ← hisolated]
      exact ho
    · rw [hisolated, if_neg Bool.false_ne_true]
  | true =>
    rw [if_pos rfl]
    rcases bindSelf_cases t.image hloader with ⟨e, hbind, hr⟩ | ⟨hbind, hr⟩
    · -- The image does not take its handle.
      have hset : t.setback = some (.bind, e) := by
        rw [setback, hisolated, if_pos rfl, ← hb, hbind]
        rfl
      obtain ⟨h', hgiveUp, hj⟩ := ho.giveUp hl [t.main]
      rw [hl] at hr
      exact ⟨.error e, h', runOn_bind_error (onFailure_error hr hgiveUp) _, comes_error hset hj⟩
    · rw [hl] at hr
      rw [runOn_bind_ok (onFailure_of_ok hr _)]
      have ho' := ho.record .bound
      rw [hl] at ho'
      refine Open.equip ?_ hl ?_ ((extractEach_congr _ _ (by rfl)).trans hplugins)
      · rw [beginnings, hisolated, if_pos rfl, ← hisolated]
        exact ho'
      · rw [hisolated, if_pos rfl, ← hb, hbind]

end LoadAttempt

namespace Instance

variable {h : Host}

/-- Either no image is opened, or what comes of a load is settled step by step. -/
theorem load_attempts (number : Nat) (c : ImageSpec) {env : EnvironmentId} {environment : Environment}
    (henv : h.environments[env]? = some environment) :
    (∃ e h' files, runOn h (load number c env) = (.error e, h') ∧
        h'.machine.journal = h.machine.journal ++ departures files) ∨
      ∃ t r h', h.Attempts number c env t ∧ runOn h (load number c env) = (r, h') ∧
        t.Comes h.machine.journal r h' := by
  rcases load_cases number c env h with
    ⟨e, h', hr, -, files, hj⟩ | ⟨main, loader, sources, hextract, hloader, hopens, hr⟩
  · exact .inl ⟨e, h', files, hr, hj⟩
  · obtain ⟨⟨plugins, failure⟩, hplugins⟩ := extractEach_ok c.source c.plugins { h with sources }
    let t : LoadAttempt := ⟨number, c.loader, loader.attempts, loader.behaviour loader.attempts,
      environment, main, plugins, failure⟩
    have ho : t.Open h.machine.journal env [.opened main.path (.forImage main.customLoader)]
        (h.opening c.loader loader main sources) :=
      ⟨⟨_, List.getElem?_set_self (List.getElem?_eq_some_iff.1 hloader).1, rfl⟩, henv, rfl⟩
    obtain ⟨r, h', hrun, hcomes⟩ := ho.outfit rfl ((extractEach_congr _ _ (by rfl)).trans hplugins)
    refine .inr ⟨t, r, h', ?_, hr.trans hrun, hcomes⟩
    exact {
      number := rfl
      loader := rfl
      image := ⟨loader, hloader, rfl, rfl⟩
      opens := hopens
      environment := henv
      extracted := ⟨_, _, hextract, Prod.ext hplugins rfl⟩ }

end Instance

/-- From a host to a later one: no file went away. -/
def Host.HoldsFiles (h h' : Host) : Prop :=
  ∃ told, h'.machine.journal = h.machine.journal ++ told ∧ ∀ x ∈ told, x.releases = false

/-- An action lets no file go, and what it puts down in the end is that an image was closed, or that it
stays open if the action fails. -/
def Host.EndsImage (l : LoaderId) (a : Nat) (x : HostM Unit) : Prop :=
  ∀ h, ∃ told, (runOn h x).2.machine.journal = h.machine.journal ++
      (told ++ [.image l a (if (runOn h x).1.isOk then .closed else .abandoned)]) ∧
    ∀ y ∈ told, y.releases = false

namespace Host

variable {h : Host} {l : LoaderId} {a : Nat} {x : HostM Unit}

instance : Frame HoldsFiles where
  refl h := ⟨[], (List.append_nil _).symm, nofun⟩
  trans hh hh' := by
    obtain ⟨told, hj, ht⟩ := hh
    obtain ⟨told', hj', ht'⟩ := hh'
    refine ⟨told ++ told', by rw [hj', hj, List.append_assoc], fun x hx => ?_⟩
    exact (List.mem_append.1 hx).elim (ht x) (ht' x)

theorem holdsFiles_of_journal {h' : Host} (hj : h'.machine.journal = h.machine.journal) :
    h.HoldsFiles h' :=
  ⟨[], hj.trans (List.append_nil _).symm, nofun⟩

theorem holdsFiles_finalize (link : Link) : Within HoldsFiles link.finalize := by
  have hmachine {h : Host} {m : Machine} (n : Nat) (hj : m.journal = h.machine.journal)
      (channels : List (Channel Peer)) :
      h.HoldsFiles { h with machine := (m.finalize n).2, channels } := by
    cases hi : m.interps[n]? with
    | none =>
      refine holdsFiles_of_journal ?_
      simp only [Machine.finalize, hi]
      exact hj
    | some i =>
      refine ⟨_, (Machine.finalize_some hi).2.2.trans (congrArg (· ++ _) hj), fun x hx => ?_⟩
      obtain ⟨o, -, rfl⟩ := Option.map_eq_some_iff.1 (Option.mem_toList.1 hx)
      rfl
  intro h
  cases link with
  | direct n => exact hmachine n rfl h.channels
  | channel c =>
    simp only [Link.finalize, onChannel, runOn_of]
    split
    · exact Frame.refl h
    · rename_i live e hc
      cases live with
      | false => exact holdsFiles_of_journal rfl
      | true => exact hmachine _ (Machine.quiet_closeSessions _ _ _).journal _
    · exact holdsFiles_of_journal rfl

theorem holdsFiles_flush (l : LoaderId) (a : Nat) : Within HoldsFiles (flush l a) := by
  have huse : Within HoldsFiles (useEntryPoint l a .flush .flushed) := by
    refine (within_find _).bind fun loader => ?_
    split
    · exact within_throw _
    · refine Within.bind (fun h => ⟨_, rfl, fun x hx => ?_⟩) fun _ => within_pure _
      rw [List.mem_singleton.1 hx]
      rfl
  refine huse.bind fun behaviour => ?_
  split
  · exact within_throw _
  · exact within_pure _

theorem endsImage_closed (l : LoaderId) (a : Nat) : EndsImage l a (record (.image l a .closed)) :=
  fun _ => ⟨[], rfl, nofun⟩

/-- A step of a teardown, and what comes after that if the step does not fail. -/
theorem EndsImage.after {what : String} {y : HostM Unit} (hx : Within HoldsFiles x)
    (hy : EndsImage l a y) :
    EndsImage l a (Instance.teardownStep l a what x >>= fun _ => y) := by
  intro h
  obtain ⟨told, hj, ht⟩ := hx h
  rcases hr : runOn h x with ⟨e | u, h'⟩
  · rw [hr] at hj
    rw [runOn_bind_error (Instance.teardownStep_error hr)]
    refine ⟨told, ?_, ht⟩
    rw [← List.append_assoc]
    exact congrArg (· ++ [_]) hj
  · rw [hr] at hj
    obtain ⟨told', hj', ht'⟩ := hy h'
    rw [runOn_bind_ok (Instance.teardownStep_ok hr)]
    refine ⟨told ++ told', ?_, fun z hz => (List.mem_append.1 hz).elim (ht z) (ht' z)⟩
    rw [hj', hj, List.append_assoc, List.append_assoc]

theorem endsImage_teardown {i : Instance} (hi : i.image = some a) :
    EndsImage i.loader a i.teardown := by
  unfold Instance.teardown
  rw [hi]
  cases i.link with
  | none => exact endsImage_closed _ _
  | some link =>
    refine EndsImage.after (holdsFiles_finalize link) ?_
    split
    · exact EndsImage.after (holdsFiles_flush _ _) (endsImage_closed _ _)
    · exact endsImage_closed _ _

/-- The files of an instance go away once its image has ended, however it came to that. -/
theorem closeInstance_ends {n : InstanceId} {i : Instance} (hn : h.instances[n]? = some i)
    (hi : i.image = some a) :
    ∃ r h' told, runOn h (closeInstance n) = (r, h') ∧ runOn h (dropInstance n) = (.ok (), h') ∧
      h'.machine.journal = h.machine.journal ++
        (told ++ [.image i.loader a (if r.isOk then .closed else .abandoned)] ++
          departures i.info.images) ∧
      ∀ x ∈ told, x.releases = false := by
  have hget : runOn h (getInstance n) = (.ok i, h) := by
    simp only [getInstance, runOn_find, hn, Option.elim]
  obtain ⟨told, hj, ht⟩ := endsImage_teardown hi { h with instances := h.instances.set n i.spent }
  rcases hteardown : runOn { h with instances := h.instances.set n i.spent } i.teardown with ⟨r, h₁⟩
  rw [hteardown] at hj
  obtain ⟨h₂, hrelease, hu, -⟩ := release_unwinds i.info.images h₁
  have hclose : runOn h (closeInstance n) = (r, h₂) := by
    rw [closeInstance, runOn_bind_ok hget]
    simp only [Instance.close, ensuring, runOn_bind, runOn_modify, runOn_outcome, hteardown,
      hrelease, runOn_settle]
  refine ⟨r, h₂, told, hclose, by rw [dropInstance, runOn_ignoring, hclose], ?_, ht⟩
  rw [hu.journal, hj, List.append_assoc]
  rfl

/-- However sources, images and environments behave:
* A load that opens no image puts nothing down but files that go away.
* A load that opens one comes to an instance, and then no file has gone away, or to the failure of the first
  step that fails. In that case the files go away after everything that happens to the image if the step is
  the configuration or no file is guarded, and otherwise they do not.
* When an instance is closed or dropped, its files go away after its image was closed, or after the step
  that leaves it open for good. -/
theorem files_outlive_image_iff (h : Host) :
    (∀ number c env environment, h.environments[env]? = some environment →
      (∃ e h' files, runOn h (Instance.load number c env) = (.error e, h') ∧
          h'.machine.journal = h.machine.journal ++ departures files) ∨
        ∃ t r h', h.Attempts number c env t ∧ runOn h (Instance.load number c env) = (r, h') ∧
          t.Comes h.machine.journal r h' ∧ ∀ s, FilesLast (t.trace s) ↔
            s = .configuration ∨ ∀ f ∈ t.files s, f.guarded = false) ∧
      ∀ n i a, h.instances[n]? = some i → i.image = some a →
        ∃ r h' told, runOn h (closeInstance n) = (r, h') ∧
          runOn h (dropInstance n) = (.ok (), h') ∧
          h'.machine.journal = h.machine.journal ++
            (told ++ [.image i.loader a (if r.isOk then .closed else .abandoned)] ++
              departures i.info.images) ∧
          ∀ x ∈ told, x.releases = false := by
  refine ⟨fun number c env environment henv => ?_, fun n i a hn hi => closeInstance_ends hn hi⟩
  -- The order of what is put down is read off the attempt.
  refine (Instance.load_attempts number c henv).imp id ?_
  rintro ⟨t, r, h', hattempt, hrun, hcomes⟩
  exact ⟨t, r, h', hattempt, hrun, hcomes, t.filesLast_trace⟩

end Host

/-- A directory with images of the interpreter and of an extension. -/
def Directory.images : Directory where
  path := "/images"
  tree := (FileTree.insert {} ["tmp"] .directory)
    |>.insert ["images", "manyrun_payload.interpreter_all.so"] (.file [127])
    |>.insert ["images", "manyrun_payload.extension.so"] (.file [127])

/-- A host with such a directory and a loader. -/
def Host.copying (loader : Loader) : Host where
  sources := [.directory .images]
  loaders := [loader]
  environments := [{}]

/-- A host whose images do not take their handles. -/
def Host.reluctant : Host := .copying (.simulated { missingSymbol := some bindSymbol })

/-- A host with an instance that has a plugin. The extensions of its image cannot be unloaded. -/
def Host.clinging : Host :=
  let spec : ImageSpec := { source := 0, loader := 0, plugins := [.plugin "extension"] }
  (runOn (.copying (.simulated { failFlush := true })) (loadInstance 0 spec 0)).2

/-- An image that was opened from a copy does not take its handle. The copy is gone before the image is
closed. -/
theorem Host.filesFirst_reluctant :
    let r := runOn Host.reluctant (Instance.load 0 { source := 0, loader := 0 } 0)
    r.1.isOk = false ∧ ¬ FilesLast r.2.machine.journal ∧ r.2.machine.journal =
      [.image 0 0 (.opened "/tmp/manyrun-interpreter-000000.so" (.forImage true)),
        .released "/tmp/manyrun-interpreter-000000.so", .image 0 0 .closed] := by
  decide +kernel

/-- The order in the journal gives away that a load failed before there was an instance. The files of an
instance that cannot be closed go away after that has turned out. -/
theorem Host.files_outlive_image_iff_copies :
    (Host.reluctant.environments[0]? = some { searchPaths := [] } ∧
      ∃ t s e h', Host.reluctant.Attempts 0 { source := 0, loader := 0 } 0 t ∧
        runOn Host.reluctant (Instance.load 0 { source := 0, loader := 0 } 0) = (.error e, h') ∧
        t.setback = some (s, e) ∧ s ≠ .configuration ∧ ∃ f ∈ t.files s, f.guarded = true) ∧
      ∃ i r h' told, Host.clinging.instances[0]? = some i ∧ i.image = some 0 ∧
        runOn Host.clinging (closeInstance 0) = (r, h') ∧
        runOn Host.clinging (dropInstance 0) = (.ok (), h') ∧
        h'.machine.journal = Host.clinging.machine.journal ++ (told ++ [.image 0 0 .abandoned] ++
          [.released "/tmp/manyrun-interpreter-000000.so",
            .released "/tmp/manyrun-extension-000001.so"]) ∧
        ∀ x ∈ told, x.releases = false := by
  refine ⟨⟨rfl, ?_⟩, ?_⟩
  · have hfirst : ¬ FilesLast
        (runOn Host.reluctant (Instance.load 0 { source := 0, loader := 0 } 0)).2.machine.journal := by
      decide +kernel
    rcases (Host.files_outlive_image_iff Host.reluctant).1 0 { source := 0, loader := 0 } 0 _ rfl with
      ⟨e, h', files, hrun, hj⟩ | ⟨t, r, h', hattempt, hrun, hcomes, hiff⟩
    · rw [hrun, hj] at hfirst
      exact absurd (filesLast_departures files) hfirst
    · rw [hrun] at hfirst
      unfold LoadAttempt.Comes at hcomes
      cases hset : t.setback with
      | none =>
        rw [hset] at hcomes
        rw [hcomes.2] at hfirst
        exact absurd (t.filesLast_told _) hfirst
      | some x =>
        obtain ⟨s, e⟩ := x
        rw [hset] at hcomes
        obtain ⟨rfl, hj⟩ := hcomes
        rw [hj] at hfirst
        obtain ⟨hs, hguarded⟩ := not_or.1 (mt (hiff s).2 hfirst)
        exact ⟨t, s, e, h', hattempt, hrun, hset, hs, by simpa using hguarded⟩
  · have hthere : (Host.clinging.instances[0]?).map (fun i =>
        (i.image, i.loader, departures i.info.images)) = some (some 0, 0,
          [.released "/tmp/manyrun-interpreter-000000.so",
            .released "/tmp/manyrun-extension-000001.so"]) := by
      decide +kernel
    have hfails : (runOn Host.clinging (closeInstance 0)).1.isOk = false := by decide +kernel
    obtain ⟨i, hi, hparts⟩ := Option.map_eq_some_iff.1 hthere
    obtain ⟨himage, hparts⟩ := Prod.ext_iff.1 hparts
    obtain ⟨hloader, hdepartures⟩ := Prod.ext_iff.1 hparts
    obtain ⟨r, h', told, hclose, hdrop, hj, htold⟩ :=
      (Host.files_outlive_image_iff Host.clinging).2 0 i 0 hi himage
    rw [hclose] at hfails
    refine ⟨i, r, h', told, hi, himage, hclose, hdrop, hj.trans ?_, htold⟩
    rw [show r.isOk = false from hfails, show i.loader = 0 from hloader,
      show departures i.info.images = _ from hdepartures]
    rfl

end InstancePool
