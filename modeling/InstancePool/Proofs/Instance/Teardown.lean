import InstancePool.Proofs.Image.Journal
import InstancePool.Proofs.Interp.Isolation

/-!
How instances go away. An interpreter is finalized, the extensions of an isolated image are unloaded, and
the image is closed; the first of these steps that fails is the last. That happens once, no matter how
often an instance is closed or dropped, and the instances of a manager go one after another, each as if
it were alone.
-/

namespace InstancePool

open HostM Host

/-- A deed is said in full, and it does not end an interpreter that an image made: that is up to the
instance of the image. -/
def Deed.Fair (h : Host) : Deed → Prop
  | act (.elsewhere ..) => False
  | finalize link => ∀ l a, ¬ h.BelongsTo l a link
  | finalizeImage c => ∀ l a, ¬ h.BelongsTo l a (.channel c)
  | _ => True

instance : DecidableEq (Except Error Unit)
  | .ok (), .ok () => isTrue rfl
  | .error e, .error e' => decidable_of_iff (e = e') ⟨congrArg _, Except.error.inj⟩
  | .ok (), .error _ => isFalse nofun
  | .error _, .ok () => isFalse nofun

/-- The first failure among some outcomes, if there is one. -/
def firstFailure (outcomes : List (Except Error Unit)) : Except Error Unit :=
  (outcomes.find? fun r => !r.isOk).getD (.ok ())

/-- What it comes to when an instance is closed, and what is put down. If there is no image any more, then
files go away, and that is all. -/
def Instance.ending (i : Instance) (loaders : List Loader) : Except Error Unit × List JournalEntry :=
  match i.image, i.link, loaders[i.loader]? with
  | some image, some link, some loader =>
    ((loader.behaviour image).verdict i.info.customLoader link, i.farewell loader.behaviour image)
  | _, _, _ => (.ok (), ((i.info.images.filter (·.guarded)).map (·.path)).map .released)

namespace Instance

variable {i : Instance}

theorem ending_of_spent {loaders : List Loader} (hi : i.image = none) : i.ending loaders =
    (.ok (), ((i.info.images.filter (·.guarded)).map (·.path)).map .released) := by
  rw [ending, hi]

theorem ending_of_image {loaders : List Loader} {loader : Loader} {image : Nat} {link : Link}
    (hi : i.image = some image) (hlink : i.link = some link)
    (hloader : loaders[i.loader]? = some loader) : i.ending loaders =
      ((loader.behaviour image).verdict i.info.customLoader link,
        i.farewell loader.behaviour image) := by
  rw [ending, hi, hlink, hloader]

/-- Only files go away with an instance that has no image any more. -/
theorem close_spent (hi : i.image = none) (h : Host) : ∃ h', runOn h i.close = (.ok (), h') ∧
    h.Unwinds (((i.info.images.filter (·.guarded)).map (·.path)).map .released) h' := by
  have hteardown : runOn h i.teardown = (.ok (), h) := by
    rw [teardown, hi]
    rfl
  obtain ⟨h', hrelease, hu, -⟩ := release_unwinds i.info.images h
  refine ⟨h', ?_, hu⟩
  simp only [close, ensuring, runOn_bind, runOn_outcome, hteardown, hrelease, runOn_settle]

end Instance

namespace Host

/-- What it comes to when an instance is closed, and what is put down. -/
def ending (h : Host) (n : InstanceId) : Except Error Unit × List JournalEntry :=
  match h.instances[n]? with
  | none => (.error .unknownHandle, [])
  | some i => i.ending h.loaders

/-- Every deed is fair where its turn comes. -/
def AllFair (h : Host) : List Deed → Prop
  | [] => True
  | d :: deeds => d.Fair h ∧ (h.doing d).AllFair deeds

variable {h h' : Host} {d : Deed} {l : LoaderId} {a : Nat} {n : InstanceId} {i : Instance}

theorem tends_finalizeImage {c : Nat} (hc : ∀ l a, ¬ h.BelongsTo l a (.channel c)) :
    h.Tends (fun _ _ => False) (runOn h (finalizeImage c)).2 := by
  refine tends_onChannel fun live e he => ?_
  have hmade (l : LoaderId) (a : Nat) (hm : h.MadeBy l a e.interp) : False :=
    hc l a ⟨e.interp, interpAt_channel he, hm⟩
  exact ⟨tends_machine_finalize (Machine.quiet_closeSessions _ _ _)
    (Machine.length_closeSessions _ _ _) fun l a hm => (hmade l a hm).elim, rfl,
    fun l a hm _ => (hmade l a hm).elim⟩

theorem tends_addLoader (loader : Loader) :
    h.Tends (fun _ _ => False) { h with loaders := h.loaders ++ [loader] } :=
  { Tends.refl h with
    loaders := fun l loader' hl => by
      refine ⟨loader', ?_, rfl, Nat.le_refl _⟩
      exact (List.getElem?_append_left (List.getElem?_eq_some_iff.1 hl).1).trans hl
    journal := ⟨[], (List.append_nil _).symm, fun _ _ => .inl rfl⟩ }

theorem chronicles_action {a : Action} (ha : ∀ m cs, a ≠ .elsewhere m cs) :
    h.Chronicles (runOn h a.run).2 := by
  have hclose (ns : List InstanceId) : Within Chronicles (closeInstances ns) :=
    within_closeInstances fun n _ => chronicles_closeInstance n
  have hdrop (ns : List InstanceId) : Within Chronicles (dropInstances ns) :=
    within_dropInstances fun n _ => chronicles_closeInstance n
  by_cases hday : a.Everyday
  · exact chronicles_of_tends (within_everyday hday h)
  cases a with
  | addLoader loader => exact chronicles_of_tends (tends_addLoader loader)
  | addSource source => exact chronicles_of_tends (tends_of_quiet (.refl _) rfl rfl rfl rfl)
  | addEnvironment e => exact chronicles_of_tends (tends_of_quiet (.refl _) rfl rfl rfl rfl)
  | buildManager spec => exact (chronicles_buildManager spec).lost h
  | loadInstance number spec env => exact (chronicles_loadInstance number spec env).lost h
  | shutdown m => exact (within_find _).bind (fun manager => hclose (Manager.instances manager)) h
  | dropManager m => exact (within_find _).bind (fun manager => hdrop (Manager.instances manager)) h
  | closeInstance n => exact chronicles_closeInstance n h
  | dropInstance n => exact (chronicles_closeInstance n).ignoring h
  | elsewhere m cs => exact absurd rfl (ha m cs)
  | register | openBalanced | openPinned | openAlone | openReplica | closeSession | perform
  | setCurrent | createReplica | materialize | unload | cloneReplica | dropReplica =>
    exact absurd trivial hday

theorem chronicles_deed (hd : d.Fair h) : h.Chronicles (h.doing d) := by
  have hlost {β : Type} {x : HostM β} (hx : h.Tends (fun _ _ => False) (runOn h x).2) :
      h.Chronicles (runOn h (do let _ ← x)).2 :=
    chronicles_of_tends (bind_rel hx fun _ h' _ => .refl h')
  cases d with
  | act a =>
    refine chronicles_action fun m cs he => ?_
    rw [he] at hd
    exact hd
  | addInterp => exact hlost (tends_of_quiet (Machine.quiet_create _ _ _ _) rfl rfl rfl rfl)
  | exportInterp n => exact hlost (tends_addChannel _ h)
  | addScript script => exact hlost (tends_addChannel _ h)
  | openBare link => exact hlost (routine_openBare link h)
  | setResolver link r => exact chronicles_of_tends (Daily.setResolver link r h)
  | finalize link =>
    exact chronicles_of_tends (tends_finalize fun k l a hk hm => (hd l a ⟨k, hk, hm⟩).elim)
  | dispatch c bytes =>
    exact hlost (tends_onChannel_of_quiet fun live e =>
      Channel.quiet_dispatch h.texts bytes live h.machine e)
  | finalizeImage c => exact hlost (tends_finalizeImage hd)
  | installAnswers n answers =>
    exact chronicles_of_tends (tends_of_quiet (Machine.quiet_setResolver _ _ _) rfl rfl rfl rfl)

theorem advances_afterDeeds {deeds : List Deed} (hc : h.Chronicled) (hd : h.AllFair deeds) :
    h.Advances (h.afterDeeds deeds) := by
  induction deeds generalizing h with
  | nil => exact hc.advances
  | cons d deeds ih =>
    have ha := chronicles_deed hd.1 hc
    exact ha.trans hc (ih ha.chronicled hd.2)

theorem chronicled_empty : Chronicled {} where
  manned l a n i hh := by cases hh.there
  past l a n i hh := by cases hh.there
  gone n i hi := by cases hi
  alone l a n n' i i' hh := by cases hh.there
  rosters manager hm := by cases hm
  unopened l a _ := rfl
  told l a loader hl := by cases hl

/-- Closing one instance does to others neither harm nor good. -/
theorem closeInstance_ending (hc : h.Chronicled) (n : InstanceId) :
    ∃ h', runOn h (closeInstance n) = ((h.ending n).1, h') ∧ h.Unwinds (h.ending n).2 h' ∧
      (∀ i, h.instances[n]? = some i → h'.instances[n]? = some i.spent) ∧
      ∀ n', n ≠ n' → h'.ending n' = h.ending n' := by
  rcases find_cases (fun h => h.instances[n]?) h with ⟨hn, hr⟩ | ⟨i, hi, hr⟩
  · have hending : h.ending n = (.error .unknownHandle, []) := by rw [ending, hn]
    rw [closeInstance, getInstance, runOn_bind_error hr, hending]
    refine ⟨h, rfl, .refl h, fun i hi => ?_, fun _ _ => rfl⟩
    cases Eq.trans hn.symm hi
  have hending : h.ending n = i.ending h.loaders := by rw [ending, hi]
  rw [closeInstance, getInstance, runOn_bind_ok hr, hending]
  -- The record is spent first, so however often it is closed, it is torn down once.
  let h₀ : Host := { h with instances := h.instances.set n i.spent }
  obtain ⟨h', hclose, hu⟩ : ∃ h', runOn h₀ i.close = ((i.ending h.loaders).1, h') ∧
      h.Unwinds (i.ending h.loaders).2 h' := by
    cases hn : i.image with
    | none =>
      obtain ⟨h', hclose, hu⟩ := Instance.close_spent hn h₀
      rw [Instance.ending_of_spent hn]
      exact ⟨h', hclose, hu.loaders, hu.journal⟩
    | some a =>
      obtain ⟨loader, k, hl, -, hm⟩ := hc.manned i.loader a n i ⟨hi, rfl, hn⟩
      obtain ⟨link, h', hlink, hclose, hu, -⟩ := Instance.close_manned (h := h₀) (hm.seat _ _) hl
      rw [Instance.ending_of_image hn hlink hl]
      exact ⟨h', hclose, hu.loaders, hu.journal⟩
  have hb : h₀.SameBooks h' := i.sameBooks_close.of_eq hclose
  refine ⟨h', hclose, hu, fun i' hi' => ?_, fun n' hne => ?_⟩
  · obtain rfl := Option.some.inj (hi.symm.trans hi')
    rw [hb.instances]
    exact List.getElem?_set_self (List.getElem?_eq_some_iff.1 hi).1
  · rw [ending, ending, hb.instances, hu.loaders]
    simp only [h₀, List.getElem?_set_ne hne]

/-- Instances are closed in order, and dropped in the same order, each as if it were alone. -/
theorem closeInstances_ending (hc : h.Chronicled) {ns : List InstanceId} (hn : ns.Nodup) :
    ∃ h', runOn h (closeInstances ns) = (firstFailure (ns.map fun n => (h.ending n).1), h') ∧
      runOn h (dropInstances ns) = (.ok (), h') ∧
      h.Unwinds (ns.flatMap fun n => (h.ending n).2) h' := by
  induction ns generalizing h with
  | nil => exact ⟨h, rfl, rfl, .refl h⟩
  | cons n ns ih =>
    obtain ⟨hnot, hrest⟩ := List.nodup_cons.1 hn
    obtain ⟨h₁, hclose, hu, -, hothers⟩ := closeInstance_ending hc n
    have hc₁ : h₁.Chronicled := ((chronicles_closeInstance n).of_eq hclose hc).chronicled
    obtain ⟨h', hcloses, hdrops, hu'⟩ := ih hc₁ hrest
    -- The numbers are different, so the rest end as they would have before.
    have hsame : ∀ n' ∈ ns, h₁.ending n' = h.ending n' := by
      rintro n' hn'
      refine hothers n' ?_
      rintro rfl
      exact hnot hn'
    have houtcomes : ns.map (fun n => (h₁.ending n).1) = ns.map fun n => (h.ending n).1 :=
      List.map_congr_left fun n' hn' => congrArg (·.1) (hsame n' hn')
    have hentries : ns.flatMap (fun n => (h₁.ending n).2) = ns.flatMap fun n => (h.ending n).2 := by
      rw [List.flatMap_def, List.flatMap_def,
        List.map_congr_left fun n' hn' => congrArg (·.2) (hsame n' hn')]
    rw [houtcomes] at hcloses
    rw [hentries] at hu'
    refine ⟨h', ?_, ?_, hu.trans hu'⟩
    · -- The first failure comes first, and if there is none, the others decide.
      simp only [closeInstances, runOn_bind, runOn_outcome, hclose, hcloses, runOn_settle,
        List.map_cons]
      cases (h.ending n).1 with
      | error e => rfl
      | ok u => rfl
    · simp only [dropInstances, dropInstance, runOn_bind, runOn_ignoring, hclose]
      exact hdrops

/-- After every run in which the interpreters of images are left to their instances, and however images
behave:
* As long as an instance has an image, nothing has happened to that but what it takes to load the
  instance. To close the instance and to drop it does the same, but the failure of a step is reported only
  if it is closed. The image is closed if no step fails. Whatever is done next, and however often the
  instance is closed and dropped, either it has the image still and nothing has happened, or all of the
  teardown has, once and in order, and nothing else.
* Of an image that no instance has, either no interpreter was made, or all is told from the loading of an
  instance to its teardown, and nothing else.
* The instances of a manager are in the order of their numbers. To shut the manager down and to drop it
  does the same to each of them, in that order, as would be done to it alone. The shutdown reports the
  first failure, if there is one. -/
theorem torn_down_in_order (deeds : List Deed) (hd : Host.AllFair {} deeds) :
    let h := Host.afterDeeds {} deeds
    (∀ l a n i, h.Holds l a n i → ∃ loader link paths, h.loaders[l]? = some loader ∧
      i.link = some link ∧ history l a h.machine.journal = i.info.past paths ∧
      (∃ h', runOn h (closeInstance n) =
          ((loader.behaviour a).verdict i.info.customLoader link, h') ∧
        runOn h (dropInstance n) = (.ok (), h') ∧ h'.instances[n]? = some i.spent ∧
        h'.machine.journal = h.machine.journal ++ i.farewell loader.behaviour a) ∧
      (ImageEvent.closed ∈ (loader.behaviour a).fate i.info.customLoader ↔
        (loader.behaviour a).verdict i.info.customLoader link = .ok ()) ∧
      ∀ later, h.AllFair later → let h' := h.afterDeeds later
        h'.instances[n]? = some i ∧ history l a h'.machine.journal = i.info.past paths ∨
          h'.instances[n]? = some i.spent ∧ history l a h'.machine.journal =
            i.info.past paths ++ (loader.behaviour a).fate i.info.customLoader) ∧
    (∀ l a loader, h.loaders[l]? = some loader → (∀ n i, ¬ h.Holds l a n i) →
      (loader.behaviour a).Told (history l a h.machine.journal)) ∧
    (∀ m manager, h.managers[m]? = some manager → h.Rostered manager.instances ∧
      ∃ h', runOn h (shutdown m) =
          (firstFailure (manager.instances.map fun n => (h.ending n).1), h') ∧
        runOn h (dropManager m) = (.ok (), h') ∧ h'.machine.journal =
          h.machine.journal ++ manager.instances.flatMap fun n => (h.ending n).2) := by
  intro h
  have hc : h.Chronicled := (advances_afterDeeds chronicled_empty hd).chronicled
  refine ⟨?_, hc.told, ?_⟩
  · intro l a n i hh
    obtain ⟨loader, k, hl, -, hm⟩ := hc.manned l a n i hh
    obtain ⟨link, hlink, -⟩ := hm.link
    obtain ⟨paths, hpast⟩ := hc.past l a n i hh
    refine ⟨loader, link, paths, hl, hlink, hpast, ?_,
      (ImageBehaviour.closed_mem_fate _ _).trans ImageBehaviour.verdict_ok.symm,
      fun later hlater => ?_⟩
    · obtain ⟨hi, rfl, hn⟩ := hh
      obtain ⟨h', hclose, hu, hspent, -⟩ := closeInstance_ending hc n
      have hending : h.ending n = ((loader.behaviour a).verdict i.info.customLoader link,
          i.farewell loader.behaviour a) := by
        rw [ending, hi]
        exact Instance.ending_of_image hn hlink hl
      rw [hending] at hclose hu
      refine ⟨h', hclose, ?_, hspent i hi, hu.journal⟩
      rw [dropInstance, runOn_ignoring, hclose]
    -- Whatever is done next leaves the instance and its image alone, or tears it down.
    · rw [← hpast]
      exact ((advances_afterDeeds hc hlater).held l a n i loader hh hl).imp id fun ht => ⟨ht.1, ht.2.2⟩
  · intro m manager hm
    have hroster := hc.rosters manager (List.mem_of_getElem? hm)
    obtain ⟨h', hclose, hdrop, hu⟩ := closeInstances_ending hc hroster.nodup
    refine ⟨hroster, h', ?_, ?_, hu.journal⟩
    · rw [shutdown, runOn_bind_ok (getManager_ok hm)]
      exact hclose
    · rw [dropManager, runOn_bind_ok (getManager_ok hm)]
      exact hdrop

end Host

/-- A loader with an image that cannot be unloaded, over a channel, and then one that cannot be
finalized. -/
def Loader.moody : Loader where
  behaviour image :=
    { throughChannel := image == 0
      failFinalize := image == 1
      flushFailure := if image = 0 then some (.teardown "still in use") else none }

/-- A manager with three instances of a moody loader, and a session of the last one. -/
def Deed.moods : List Deed :=
  [.act (.addSource (.stock (.simulated 0 none))), .act (.addLoader .moody), .act (.addEnvironment {}),
    .act (.buildManager { count := 3, image := { source := 0, loader := 0 }, environment := 0 }),
    .act (.openPinned 0 2)]

/-- The first instance is to blame for the failure of the shutdown, and the last one is torn down to the
end nevertheless. What the second one leaves open stays open, and whoever ends it again ends nothing. -/
theorem Host.torn_down_in_order_moods :
    let h := Host.afterDeeds {} Deed.moods
    let again : List Deed :=
      [.act (.shutdown 0), .act (.dropManager 0), .act (.closeInstance 1), .act (.dropInstance 1)]
    Host.AllFair {} Deed.moods ∧ h.AllFair again ∧
      (∃ h', runOn h (shutdown 0) =
          (.error (.teardown "flushing native libraries: Teardown error: still in use"), h') ∧
        runOn h (dropManager 0) = (.ok (), h') ∧ h'.machine.journal = h.machine.journal ++
          [.image 0 0 .finalized, .image 0 0 .flushed, .image 0 0 .abandoned,
            .image 0 1 .finalized, .image 0 1 .abandoned,
            .image 0 2 .finalized, .image 0 2 .flushed, .image 0 2 .closed]) ∧
      ∃ i paths, h.instances[1]? = some i ∧
        history 0 1 (h.afterDeeds again).machine.journal =
          i.info.past paths ++ [.finalized, .abandoned] := by
  intro h again
  have hd : Host.AllFair {} Deed.moods := ⟨trivial, trivial, trivial, trivial, trivial, trivial⟩
  have hagain : h.AllFair again := ⟨trivial, trivial, trivial, trivial, trivial⟩
  obtain ⟨heach, -, hmanagers⟩ := Host.torn_down_in_order Deed.moods hd
  have hm : h.managers[0]? = some ⟨[0, 1, 2], 0, 0, 0, 0⟩ := by decide +kernel
  obtain ⟨hroster, h', hclose, hdrop, hjournal⟩ := hmanagers 0 _ hm
  have houtcomes : firstFailure ([0, 1, 2].map fun n => (h.ending n).1) =
      .error (.teardown "flushing native libraries: Teardown error: still in use") := by
    decide +kernel
  have hentries : [0, 1, 2].flatMap (fun n => (h.ending n).2) =
      [.image 0 0 .finalized, .image 0 0 .flushed, .image 0 0 .abandoned,
        .image 0 1 .finalized, .image 0 1 .abandoned,
        .image 0 2 .finalized, .image 0 2 .flushed, .image 0 2 .closed] := by decide +kernel
  rw [houtcomes] at hclose
  rw [hentries] at hjournal
  refine ⟨hd, hagain, ⟨h', hclose, hdrop, by with_reducible exact hjournal⟩, ?_⟩
  obtain ⟨i, hi, -⟩ := hroster.number 1 1 rfl
  have hloader : (h.instances[1]?).map Instance.loader = some 0 := by decide +kernel
  have himage : (h.instances[1]?).map Instance.image = some (some 1) := by decide +kernel
  rw [hi] at hloader himage
  obtain ⟨loader, link, paths, hl, -, -, -, -, hlater⟩ :=
    heach 0 1 1 i ⟨hi, Option.some.inj hloader, Option.some.inj himage⟩
  have hfail : (h.loaders[0]?).map (fun l => (l.behaviour 1).failFinalize) = some true := by
    decide +kernel
  have hspent : ((h.afterDeeds again).instances[1]?).map Instance.image = some none := by
    decide +kernel
  rw [hl] at hfail
  rcases hlater again hagain with ⟨hi', -⟩ | ⟨-, hhistory⟩
  · rw [hi'] at hspent
    cases himage.symm.trans hspent
  · rw [ImageBehaviour.fate_of_failFinalize (Option.some.inj hfail)] at hhistory
    exact ⟨i, paths, hi, by with_reducible exact hhistory⟩

end InstancePool
