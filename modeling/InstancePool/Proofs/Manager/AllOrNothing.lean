import InstancePool.Proofs.Instance.LoadOutcome

/-!
A manager is started with all of its instances or with none. When a step fails, the instances that were
loaded before are torn down in order, each at the cost of nothing but its own image.
-/

namespace InstancePool

open HostM

namespace Rehearsal

/-- A member has the number that it was loaded with. -/
theorem number_member {c : ImageSpec} {number : Nat} {w w' : Supplies} {info : InstanceInfo}
    (h : on w (member c number) = (.ok info, w')) : info.number = number := by
  have hequip {main : ExtractedImage} {image : Nat} {w : Supplies}
      (h : on w (equip c number main image) = (.ok info, w')) : info.number = number := by
    obtain ⟨plugins, w₁, -, h⟩ := on_bind_inv h
    obtain ⟨paths, w₂, -, h⟩ := on_bind_inv h
    obtain ⟨_, w₃, -, h⟩ := on_bind_inv h
    obtain ⟨_, w₄, -, h⟩ := on_bind_inv h
    cases h
    rfl
  rw [member_eq] at h
  obtain ⟨main, w₁, -, h⟩ := on_bind_inv h
  obtain ⟨image, w₂, -, h⟩ := on_bind_inv h
  by_cases hisolated : main.customLoader = true
  · rw [if_pos hisolated] at h
    obtain ⟨_, w₃, -, h⟩ := on_bind_inv h
    exact hequip h
  · rw [if_neg hisolated] at h
    exact hequip h

/-- The members are numbered in order. -/
theorem numbers_members {c : ImageSpec} {number count : Nat} {w w' : Supplies}
    {infos : List InstanceInfo} (h : on w (members c number count) = (.ok infos, w')) :
    infos.map (·.number) = List.range' number count := by
  induction count generalizing number w infos with
  | zero =>
    cases h
    rfl
  | succ count ih =>
    obtain ⟨info, w₁, hinfo, h⟩ := on_bind_inv h
    obtain ⟨infos', w₂, hinfos, h⟩ := on_bind_inv h
    cases h
    rw [List.map_cons, List.range'_succ, number_member hinfo, ih hinfos]

end Rehearsal

/-- A member of a manager was loaded and tagged. -/
structure Host.Joined (base : List JournalEntry) (c : ImageSpec) (env : EnvironmentId)
    (w : Supplies) (h : Host) (info : InstanceInfo) (w' : Supplies) (n : InstanceId) (h' : Host) :
    Prop where
  provides : Provides base c env w' h'
  supplies : w'.loader = { w.loader with attempts := w.loader.attempts + 1 }
  journal : ∃ searchPaths, w'.journal =
    w.journal ++ (info.past searchPaths).map (.image c.loader w.loader.attempts)
  number : n = h.instances.length
  instances : ∃ i, h'.instances = h.instances ++ [i] ∧ i.info = info ∧ i.loader = c.loader ∧
    h'.Ready w.loader.behaviour w.loader.attempts h.machine.interps.length i
  tagged : ∃ j, h'.machine.Tagged h.machine.interps.length info.number j
  heap : ∀ x : Nat, x < h.machine.heap.objects.length →
    h'.machine.heap.objects[x]? = h.machine.heap.objects[x]?
  interps : h'.machine.interps.length = h.machine.interps.length + 1

/-- Since `h₀` members were loaded and tagged, in a row, and nothing has failed so far. -/
structure Host.Mustered (base : List JournalEntry) (c : ImageSpec) (env : EnvironmentId)
    (w₀ : Supplies) (h₀ : Host) (infos : List InstanceInfo) (w : Supplies) (h : Host) : Prop where
  provides : Provides base c env w h
  supplies : w.loader = { w₀.loader with attempts := w₀.loader.attempts + infos.length }
  journal : ∃ course, w.journal = w₀.journal ++ course ∧
    Recounts (fun _ info events => ∃ paths, events = info.past paths) c.loader
      w₀.loader.attempts infos course
  lineup : h.Lineup w₀.loader.behaviour c.loader h₀.instances.length w₀.loader.attempts
    h₀.machine.interps.length infos
  tagged : ∀ j info, infos[j]? = some info →
    ∃ i, h.machine.Tagged (h₀.machine.interps.length + j) info.number i
  instances : h.instances.length = h₀.instances.length + infos.length
  interps : h.machine.interps.length = h₀.machine.interps.length + infos.length

namespace Host

variable {base : List JournalEntry} {c : ImageSpec} {env : EnvironmentId} {w₀ w w' : Supplies}
  {h₀ h h' : Host} {info : InstanceInfo} {infos : List InstanceInfo} {n : InstanceId}

/-- A loaded instance that was tagged is a member. -/
theorem Provided.joined {i : Instance} {j : Interp} (hp : Provided base c env w h info w' i h')
    (hinstances : h'.instances = h.instances)
    (hfresh : h'.machine.Fresh h.machine.interps.length j)
    (hversion : j.version = h.machine.heap.objects.length)
    (hspace : h'.machine.heap.get j.version = .space Table.empty)
    {sessions : Table SessionKey (List ObjectIndex)} (resolver : Option Resolver)
    (hsize : sessions.size = 0) :
    Joined base c env w h info w' h.instances.length { h' with
      machine := { h'.machine with nextKey := h'.machine.nextKey + 1 }.put h.machine.interps.length
        ⟨h'.machine.heap.bindInstance j.version Table.empty (.int (Int64.ofNat info.number)),
          { j with sessions, resolver }⟩
      instances := h'.instances ++ [i] } := by
  obtain ⟨added, hheap⟩ := hp.heap
  obtain ⟨j', hinterps⟩ := hp.interps
  have hlt : h.machine.interps.length < h'.machine.interps.length :=
    (List.getElem?_eq_some_iff.1 hfresh.interp).1
  have hready := hp.ready
  constructor
  · exact ⟨hp.provides.source, hp.provides.loader, hp.provides.environment, hp.provides.journal⟩
  · exact hp.supplies
  · exact hp.journal
  · rfl
  · refine ⟨i, by rw [hinstances], hp.info, hp.loader, hready.opened, hready.link, ?_⟩
    -- Tagging concerns neither the observer of the interpreter nor its end.
    obtain ⟨j'', hj, hobserver, hfail⟩ := hready.interp
    obtain rfl := Option.some.inj (hfresh.interp.symm.trans hj)
    exact ⟨_, Machine.put_interp hlt, hobserver, hfail⟩
  · exact ⟨_, Machine.Fresh.tagged (m := { h'.machine with nextKey := h'.machine.nextKey + 1 })
      ⟨hfresh.interp, hfresh.finalized, hfresh.sessions, hfresh.version⟩ hspace hsize info.number⟩
  · intro x hx
    have hx' : x < h'.machine.heap.objects.length := by
      rw [hheap, List.length_append]
      omega
    have hne : j.version ≠ x := by
      rw [hversion]
      exact Nat.ne_of_gt hx
    calc (h'.machine.heap.bindInstance j.version Table.empty _).objects[x]?
      _ = h'.machine.heap.objects[x]? := Heap.bindInstance_below hx' hne
      _ = h.machine.heap.objects[x]? := by rw [hheap, List.getElem?_append_left hx]
  · change (h'.machine.interps.set _ _).length = _
    rw [List.length_set, hinterps, List.length_append, List.length_singleton]

/-- Loading one member of a manager goes as it was rehearsed: tagging it cannot fail. -/
theorem loadMember_rehearsed (spec : ManagerSpec) (registry number : Nat)
    (hw : Provides base spec.image spec.environment w h) :
    GoesAs base spec.image w h (Joined base spec.image spec.environment w h)
      (Rehearsal.on w (Rehearsal.member spec.image number))
      (runOn h (loadMember spec registry number)) := by
  have hload := load_rehearsed number hw
  rcases hon : Rehearsal.on w (Rehearsal.member spec.image number) with ⟨s, w'⟩
  rcases hr : runOn h (Instance.load number spec.image spec.environment) with ⟨r, h₁⟩
  rw [hon, hr] at hload
  cases hload with
  | undone e hu =>
    rw [loadMember, runOn_bind_error hr]
    exact .undone e hu
  | @done info _ i _ hp =>
    obtain ⟨l, hlink, hunused⟩ := hp.ready.link
    obtain ⟨j, hfresh, hversion, hspace⟩ := hp.fresh
    obtain ⟨sessions, resolver, hsize, -, hadopt⟩ :=
      Instance.adopt_ok registry hlink hunused hfresh hspace
    have hinstances : h₁.instances = h.instances :=
      ((Instance.sameBooks_load _ _ _).of_eq hr).instances
    have hjoined := hp.joined hinstances hfresh hversion hspace (some resolver) hsize
    rw [hp.info] at hadopt
    rw [← hinstances] at hjoined
    rw [loadMember, runOn_bind_ok hr, runOn_bind_ok (onFailure_of_ok hadopt _)]
    exact .done hjoined

theorem mustered_nil (hw : Provides base c env w h) : Mustered base c env w h [] w h where
  provides := hw
  supplies := rfl
  journal := ⟨[], (List.append_nil _).symm, .nil⟩
  lineup := nofun
  tagged := nofun
  instances := rfl
  interps := rfl

theorem Mustered.attempts (hm : Mustered base c env w₀ h₀ infos w h) :
    w.loader.attempts = w₀.loader.attempts + infos.length := by
  rw [hm.supplies]

theorem Mustered.behaviour (hm : Mustered base c env w₀ h₀ infos w h) :
    w.loader.behaviour = w₀.loader.behaviour := by
  rw [hm.supplies]

/-- One more member. -/
theorem Mustered.join (hm : Mustered base c env w₀ h₀ infos w h)
    (hj : Joined base c env w h info w' n h')
    (hw : h.Works (h.machine.interps.length ≤ ·) h') :
    Mustered base c env w₀ h₀ (infos ++ [info]) w' h' := by
  have hlength : (infos ++ [info]).length = infos.length + 1 := by
    rw [List.length_append, List.length_singleton]
  -- The interpreters of those that were there take no part in loading one more.
  have hold (k : Nat) (hk : k < infos.length) :
      ¬ h.machine.interps.length ≤ h₀.machine.interps.length + k := by
    rw [hm.interps]
    omega
  constructor
  · exact hj.provides
  · rw [hj.supplies, hm.supplies, hlength, Nat.add_assoc]
  · obtain ⟨course, hcourse, hrecounts⟩ := hm.journal
    obtain ⟨paths, hjournal⟩ := hj.journal
    refine ⟨_, ?_, hrecounts.snoc ⟨paths, rfl⟩⟩
    rw [hjournal, hcourse, hm.attempts, List.append_assoc]
  · obtain ⟨i, hinstances, rfl, hloader, hready⟩ := hj.instances
    apply Lineup.snoc
    · apply hm.lineup.of_works hw hold
      intro k hk
      rw [hinstances, List.getElem?_append_left]
      rw [hm.instances]
      omega
    · rw [hinstances, ← hm.instances, List.getElem?_concat_length]
    · exact hloader
    · rw [← hm.attempts, ← hm.interps, ← hm.behaviour]
      exact hready
  · apply of_getElem?_concat
    · intro k info' hk
      have hlt : k < infos.length := (List.getElem?_eq_some_iff.1 hk).1
      obtain ⟨i, ht⟩ := hm.tagged k info' hk
      exact ⟨i, ht.of_heap (hw.machine.interp (hold k hlt)) hj.heap⟩
    · rw [← hm.interps]
      exact hj.tagged
  · obtain ⟨i, hinstances, -⟩ := hj.instances
    rw [hinstances, List.length_append, List.length_singleton, hm.instances, hlength, Nat.add_assoc]
  · rw [hj.interps, hm.interps, hlength, Nat.add_assoc]

/-- When one more member cannot be loaded, those that are there are dropped. -/
theorem Mustered.unwind (hm : Mustered base c env w₀ h₀ infos w h) (hu : Undone base c w w' h h')
    (hw : h.Works (h.machine.interps.length ≤ ·) h')
    (hinstances : ∀ n < h.instances.length, h'.instances[n]? = h.instances[n]?) :
    ∃ h'', runOn h' (dropInstances (List.range' h₀.instances.length infos.length)) =
        (.ok (), h'') ∧ Undone base c w₀ w' h₀ h'' := by
  have hbehaviour : w'.loader.behaviour = w₀.loader.behaviour := hu.behaviour.trans hm.behaviour
  -- After the failure the others are still there, as they were before.
  have hlineup : h'.Lineup w'.loader.behaviour c.loader h₀.instances.length w₀.loader.attempts
      h₀.machine.interps.length infos := by
    rw [hbehaviour]
    apply hm.lineup.of_works hw
    · intro k hk
      rw [hm.interps]
      omega
    · intro k hk
      apply hinstances
      rw [hm.instances]
      omega
  obtain ⟨entries, h'', hdrop, hunwinds, hfates, hfinal, hw'⟩ :=
    dropInstances_unwinds hlineup hu.loader
  obtain ⟨course, hcourse, hpasts⟩ := hm.journal
  obtain ⟨course', rest, hcourse', hjournal, hother, hended, hends⟩ := hu.journal
  rw [hm.attempts] at hother
  rw [hm.behaviour] at hended
  rw [hbehaviour] at hfates
  have hall : course ++ course' ++ (rest ++ entries) = course ++ (course' ++ rest) ++ entries := by
    simp only [List.append_assoc]
  refine ⟨h'', hdrop, ?_⟩
  constructor
  · rw [hunwinds.loaders]
    exact hu.loader
  · exact hbehaviour
  · refine ⟨course ++ course', rest ++ entries, ?_, ?_, fun l a hne => ?_, fun a => ?_, ?_⟩
    · rw [hcourse', hcourse, List.append_assoc]
    · rw [hunwinds.journal, hjournal, List.append_assoc]
    · have hmembers : ¬ (c.loader = l ∧ w₀.loader.attempts ≤ a ∧
          a < w₀.loader.attempts + infos.length) := fun ⟨hl, ha, _⟩ => hne ⟨hl, ha⟩
      have hlast : ¬ (c.loader = l ∧ w₀.loader.attempts + infos.length ≤ a) :=
        fun ⟨hl, ha⟩ => hne ⟨hl, by omega⟩
      rw [hall, history_append, history_append, hpasts.other l a hmembers, hother l a hlast,
        hfates.other l a hmembers]
      rfl
    · rw [hall]
      exact hpasts.ended hfates hother hended a
    · intro l a e he
      rw [history_append, List.mem_append] at he
      rcases he with he | he
      · exact hends l a e he
      · exact hfates.ends l a e he
  · intro k i hk hi
    -- An interpreter is one of theirs, or was finalized when the last member failed.
    by_cases hlt : k < h₀.machine.interps.length + infos.length
    · obtain ⟨j, rfl⟩ := Nat.exists_eq_add_of_le hk
      obtain ⟨i', hi', hf⟩ := hfinal j (Nat.lt_of_add_lt_add_left hlt)
      obtain rfl := Option.some.inj (hi'.symm.trans hi)
      exact hf
    · rw [hw'.machine.interp fun h => hlt h.2] at hi
      apply hu.finalized k i _ hi
      rw [hm.interps]
      exact Nat.le_of_not_lt hlt

/-- Loading the members of a manager goes as it was rehearsed. -/
theorem loadMembers_rehearsed (spec : ManagerSpec) (registry number count : Nat)
    (hm : Mustered base spec.image spec.environment w₀ h₀ infos w h) :
    GoesAs base spec.image w₀ h₀
      (fun infos' w' _ h' =>
        Mustered base spec.image spec.environment w₀ h₀ (infos ++ infos') w' h')
      (Rehearsal.on w (Rehearsal.members spec.image number count))
      (runOn h (loadMembers spec registry (List.range' h₀.instances.length infos.length)
        number count)) := by
  -- The induction is on the number of members that are left.
  induction count generalizing number infos w h with
  | zero =>
    apply GoesAs.done
    rw [List.append_nil]
    exact hm
  | succ count ih =>
    have hmember := loadMember_rehearsed spec registry number hm.provides
    have hworks := works_loadMember spec registry number h h.above_length
    have hbuilds := builds_loadMember (N := h.instances.length) spec registry number h
      (Nat.le_refl _)
    rcases hon : Rehearsal.on w (Rehearsal.member spec.image number) with ⟨s, w'⟩
    rcases hr : runOn h (loadMember spec registry number) with ⟨r, h'⟩
    rw [hon, hr] at hmember
    rw [hr] at hworks hbuilds
    rw [loadMembers, Rehearsal.members]
    cases hmember with
    | undone e hu =>
      obtain ⟨h'', hdrop, hundone⟩ := hm.unwind hu hworks hbuilds.below
      rw [runOn_bind_error (onFailure_error hr hdrop), Rehearsal.on_bind_error hon]
      exact .undone e hundone
    | @done info _ n _ hj =>
      have hm' := hm.join hj hworks
      have hloaded : List.range' h₀.instances.length infos.length ++ [n] =
          List.range' h₀.instances.length (infos ++ [info]).length := by
        rw [hj.number, hm.instances, List.length_append, List.length_singleton,
          List.range'_1_concat]
      have hrest := ih (number + 1) hm'
      rw [runOn_bind_ok (onFailure_of_ok hr _), Rehearsal.on_bind_ok hon, hloaded]
      rcases hons : Rehearsal.on w' (Rehearsal.members spec.image (number + 1) count) with ⟨s, w''⟩
      rw [hons] at hrest
      generalize runOn h' (loadMembers spec registry _ (number + 1) count) = r at hrest
      cases hrest with
      | undone e hu =>
        rw [Rehearsal.on_bind_error hons]
        exact .undone e hu
      | done hp =>
        rw [Rehearsal.on_bind_ok hons]
        apply GoesAs.done
        rw [List.append_assoc] at hp
        exact hp

/-- A manager is there with the instances from `n` on, one for each of some infos: each is tagged with
its number, no session is open on it, and the balancer has not given out any. -/
structure Staffed (n : InstanceId) (infos : List InstanceInfo) (m : ManagerId) (h : Host) :
    Prop where
  instances : ∃ manager, h.managers[m]? = some manager ∧
    manager.instances = List.range' n infos.length
  each : ∀ j info, infos[j]? = some info → ∃ i link k e, h.instances[n + j]? = some i ∧
    i.info = info ∧ i.link = some link ∧ h.interpAt link = some k ∧ h.engine? k = some e ∧
    e.instanceTag? = some (.int (Int64.ofNat info.number)) ∧ e.interp.openSessions = 0
  loads : (runOn h (loads m)).1 = .ok (List.replicate infos.length 0)

/-- The members get a manager. -/
theorem Mustered.staffed (hm : Mustered base c env w₀ h₀ infos w h) {b : Balancer}
    (hb : b.loads = List.replicate infos.length 0) (registry : Nat) (e : EnvironmentId) :
    Staffed h₀.instances.length infos h.managers.length { h with
      fleet := { h.fleet with balancers := h.fleet.balancers ++ [b] }
      managers := h.managers ++ [{
        instances := List.range' h₀.instances.length infos.length
        registry
        balancer := h.fleet.balancers.length
        environment := e }] } where
  instances := ⟨_, List.getElem?_concat_length, rfl⟩
  each j info hj := by
    obtain ⟨i, hi, hinfo, -, hready⟩ := hm.lineup j info hj
    obtain ⟨link, hlink, hunused⟩ := hready.link
    obtain ⟨interp, htagged⟩ := hm.tagged j info hj
    refine ⟨i, link, h₀.machine.interps.length + j, ⟨h.machine.heap, interp⟩, hi, hinfo, hlink,
      ?_, ?_, htagged.instanceTag, htagged.sessions⟩
    · cases link <;> exact hunused.interpAt
    · rw [engine?, htagged.interp]
      rfl
  loads := by
    rw [loads, runOn_bind_ok (getManager_ok List.getElem?_concat_length), runOn_find, Fleet.loads,
      List.getElem?_concat_length, Option.map_some, hb]
    rfl

/-- Starting a manager is all or nothing. What it comes to is told by the rehearsal of its members, in
which nothing is ever cleaned up: if all members load there, the manager has them all, and if a step
fails there, the same failure is reported. Then no image is opened after that step, every interpreter
that was made is finalized, once, and every image that was opened is closed, once and at its very end,
unless its own finalization or the unloading of its extensions failed. -/
theorem buildManager_allOrNothing {spec : ManagerSpec} {h : Host} {source : Source}
    {loader : Loader} {environment : Environment} (hcount : 1 ≤ spec.count)
    (hsource : h.sources[spec.image.source]? = some source)
    (hloader : h.loaders[spec.image.loader]? = some loader)
    (henvironment : h.environments[spec.environment]? = some environment) :
    let rehearsal := Rehearsal.on { source, loader, environment }
      (Rehearsal.members spec.image 0 spec.count)
    (∃ infos m h', rehearsal.1 = .ok infos ∧ runOn h (buildManager spec) = (.ok m, h') ∧
        infos.map (·.number) = List.range spec.count ∧
        Staffed h.instances.length infos m h') ∨
      ∃ e h', rehearsal.1 = .error e ∧ runOn h (buildManager spec) = (.error e, h') ∧
        h'.managers = h.managers ∧
        Undone h.machine.journal spec.image { source, loader, environment } rehearsal.2 h h' := by
  intro rehearsal
  let h₀ : Host := { h with registries := h.registries ++ [Registry.create spec.modules] }
  have hregistry : runOn h (addRegistry (Registry.create spec.modules)) =
      (.ok h.registries.length, h₀) := rfl
  have hw : Provides h.machine.journal spec.image spec.environment
      { source, loader, environment } h₀ :=
    ⟨hsource, hloader, henvironment, (List.append_nil _).symm⟩
  have hmembers := loadMembers_rehearsed spec h.registries.length 0 spec.count (mustered_nil hw)
  have hbuilds := loadMembers_builds (N := h₀.instances.length) spec h.registries.length [] 0
    spec.count h₀ nofun (Nat.le_refl _)
  have hpositive : spec.count ≠ 0 := by omega
  rw [buildManager, if_neg hpositive, runOn_bind_ok hregistry]
  -- The rehearsal and the host go through the members side by side.
  change GoesAs _ _ _ _ _ rehearsal
    (runOn h₀ (loadMembers spec h.registries.length [] 0 spec.count)) at hmembers
  rcases hon : rehearsal with ⟨s, w'⟩
  rcases hr : runOn h₀ (loadMembers spec h.registries.length [] 0 spec.count) with ⟨r, h₁⟩
  rw [hon, hr] at hmembers
  rw [hr] at hbuilds
  cases hmembers with
  | undone e hu =>
    refine .inr ⟨e, h₁, rfl, runOn_bind_error hr _, hbuilds.books.managers, ?_⟩
    exact ⟨hu.loader, hu.behaviour, hu.journal, hu.finalized⟩
  | @done infos _ ns _ hm =>
    have hnumbers := Rehearsal.numbers_members hon
    have hlength : infos.length = spec.count := by
      have hlength := congrArg List.length hnumbers
      rwa [List.length_map, List.length_range'] at hlength
    obtain ⟨hns, -⟩ := loadMembers_ok hr
    -- A balancer for at least one slot is never refused.
    obtain ⟨b, -, hloads, hbalancer⟩ := addBalancer_ok hpositive h₁
    rw [← hlength] at hloads
    have hstaffed := hm.staffed hloads h.registries.length spec.environment
    refine .inl ⟨infos, h₁.managers.length, _, rfl, ?_, ?_, hstaffed⟩
    · rw [runOn_bind_ok hr, runOn_bind_ok hbalancer, hns, ← hlength]
      rfl
    · rw [hnumbers, List.range_eq_range']

end Host

/-- A loader that refuses the third image. The first one of those that it opens cannot be finalized. -/
def Loader.fickle : Loader where
  behaviour image :=
    { refusal := fun path => if image = 2 then some (.load path "refused") else none
      failFinalize := image == 0 }

/-- With a loader that opens everything, three instances are there. With the other one two were there and
are gone: the image of the first stays open, and the image of the second is closed. -/
theorem Host.buildManager_allOrNothing_fickle :
    let h : Host := {
      sources := [.stock (.simulated 0 none)]
      loaders := [.simulated {}, Loader.fickle]
      environments := [{}] }
    let spec (loader : LoaderId) : ManagerSpec := {
      count := 3
      image := { source := 0, loader, plugins := [.plugin "native"] }
      environment := 0 }
    (∃ infos m h', runOn h (buildManager (spec 0)) = (.ok m, h') ∧
        infos.map (·.number) = [0, 1, 2] ∧ Staffed 0 infos m h') ∧
      ∃ e h', runOn h (buildManager (spec 1)) = (.error e, h') ∧ h'.managers = [] ∧
        (∀ i ∈ h'.machine.interps, i.finalized = true) ∧
        ImageEvent.closed ∉ history 1 0 h'.machine.journal ∧
        (history 1 1 h'.machine.journal).getLast? = some .closed := by
  intro h spec
  let plan (l : LoaderId) (loader : Loader) :=
    Rehearsal.on { source := .stock (.simulated 0 none), loader, environment := {} }
      (Rehearsal.members (spec l).image 0 (spec l).count)
  have hloads : (plan 0 (.simulated {})).1.toOption.isSome = true := by decide +kernel
  have hfails : (plan 1 .fickle).1.toOption.isSome = false := by decide +kernel
  have hcount (l : LoaderId) : 1 ≤ (spec l).count := by
    change 1 ≤ 3
    decide
  have hsource (l : LoaderId) :
      h.sources[(spec l).image.source]? = some (.stock (.simulated 0 none)) := rfl
  have hloader : h.loaders[(spec 0).image.loader]? = some (.simulated {}) := rfl
  have hfickle : h.loaders[(spec 1).image.loader]? = some .fickle := rfl
  have henvironment (l : LoaderId) : h.environments[(spec l).environment]? = some {} := rfl
  constructor
  · rcases buildManager_allOrNothing (hcount 0) (hsource 0) hloader (henvironment 0) with
      ⟨infos, m, h', -, hrun, hnumbers, hstaffed⟩ | ⟨e, h', hon, -⟩
    · exact ⟨infos, m, h', hrun, hnumbers, hstaffed⟩
    · have hnone : (plan 0 (.simulated {})).1.toOption.isSome = false :=
        congrArg (·.toOption.isSome) hon
      exact absurd (hnone.symm.trans hloads) Bool.false_ne_true
  · rcases buildManager_allOrNothing (hcount 1) (hsource 1) hfickle (henvironment 1) with
      ⟨infos, m, h', hon, -⟩ | ⟨e, h', -, hrun, hmanagers, hundone⟩
    · have hsome : (plan 1 .fickle).1.toOption.isSome = true := congrArg (·.toOption.isSome) hon
      exact absurd (hfails.symm.trans hsome) Bool.false_ne_true
    · obtain ⟨course, rest, hcourse, hjournal, -, hended, hends⟩ := hundone.journal
      rw [hcourse, List.append_assoc] at hjournal
      have hall : h'.machine.journal = course ++ rest := hjournal
      rw [List.nil_append] at hcourse
      -- What happened to the first two images before the third one was refused.
      have hcreates : (history 1 0 course).any ImageEvent.creates = true := by
        rw [← hcourse]
        decide +kernel
      have hopens : (history 1 1 course).any ImageEvent.opens = true := by
        rw [← hcourse]
        decide +kernel
      have hplain : ¬ (Loader.fickle.behaviour 1).Stuck (history 1 1 (course ++ rest)) := by
        have hfails (isolated : Bool) : (Loader.fickle.behaviour 1).fails isolated = false := by
          cases isolated <;> rfl
        intro hstuck
        exact Bool.false_ne_true ((hfails _).symm.trans hstuck.2)
      refine ⟨e, h', hrun, hmanagers, ?_, ?_, ?_⟩
      · intro i hi
        obtain ⟨k, hk⟩ := List.mem_iff_getElem?.1 hi
        exact hundone.finalized k i (Nat.zero_le k) hk
      · rw [hall]
        apply (hended 0).stuck
        rw [history_append, ImageBehaviour.Stuck, List.any_append, hcreates]
        exact ⟨rfl, rfl⟩
      · rw [hall]
        refine ((hended 1).closed ?_ hplain).2
        rw [history_append, List.any_append, hopens]
        rfl

end InstancePool
