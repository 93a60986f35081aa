import InstancePool.Proofs.Replica.StoreEffects
import InstancePool.Proofs.Host.Runs

/-!
What a single action can do to the replicated values of a host and to the objects that are loaded for
them. Whatever holds of values over a whole run follows from this list of changes.
-/

namespace InstancePool

open HostM

/-- Something that happens to a value. -/
inductive Event where
  /-- It was materialized in an instance. -/
  | loaded (value : ReplicaId) (home : InstanceId)
  /-- It was unloaded from one instance, or from all. -/
  | unloaded (value : ReplicaId) (home : Option InstanceId)
  deriving Repr, DecidableEq

namespace Host

/-- The instance of a session. -/
def homeOf? (h : Host) (s : SessionId) : Option InstanceId :=
  (h.sessions.get? s).bind fun session => session.origin.home?

/-- What an action makes happen to values, if it succeeds. -/
def events (h : Host) : Action → List Event
  | .materialize s k =>
    match (runOn h (Host.materialize s k)).1 with
    | .ok _ => ((h.homeOf? s).map (Event.loaded k)).toList
    | .error _ => []
  | .openReplica k on t =>
    match runOn h (Host.openReplica k on t) with
    | (.ok s, h') => ((h'.homeOf? s).map (Event.loaded k)).toList
    | (.error _, _) => []
  | .unload k on =>
    match (runOn h (Host.unload k on)).1 with
    | .ok () => [.unloaded k on]
    | .error _ => []
  | _ => []

/-- A value was made, with the next numbers of the host and of a manager that is in use. -/
structure Creates (h h' : Host) (m : ManagerId) (manager : Manager) (data : List UInt8) : Prop where
  known : h.managers[m]? = some manager
  used : ∃ n ∈ manager.instances, h.linkOf n ≠ none
  room : manager.nextObject.toNat + 1 < 2 ^ 64
  instances : h'.instances = h.instances
  managers : h'.managers = h.managers.set m { manager with nextObject := manager.nextObject + 1 }
  replicas : h'.replicas =
    h.replicas.insert h.nextReplica { id := ⟨manager.nextObject⟩, data, manager := m }
  nextReplica : h'.nextReplica = h.nextReplica + 1
  heap : h.machine.heap.Extends h'.machine.heap
  store : ∀ n, h'.store n = h.store n

/-- What an action can do to the values, with the events that go with it. -/
inductive Change (h : Host) : List Event → Host → Prop
  | rested {h' : Host} (hr : h.Rests h') : Change h [] h'
  /-- Instances were added, and managers that own new instances only. -/
  | grown {h' : Host} (hs : h.Settled (fun _ => False) h') (managers : List Manager)
    (hm : h'.managers = h.managers ++ managers) (hr : h'.replicas = h.replicas)
    (hn : h'.nextReplica = h.nextReplica)
    (hnew : ∀ manager ∈ managers, manager.nextObject = 0 ∧
      ∀ n ∈ manager.instances, h.instances.length ≤ n ∧ h'.linkOf n ≠ none) : Change h [] h'
  /-- Instances were torn down: all of a manager without values, or such as no manager owns. -/
  | ended {h' : Host} (X : InstanceId → Prop) (hs : h.Settled X h')
    (hm : h'.managers = h.managers) (hr : h'.replicas = h.replicas)
    (hn : h'.nextReplica = h.nextReplica)
    (hx : ∀ m manager n, h.managers[m]? = some manager → n ∈ manager.instances → X n →
      (∀ n' ∈ manager.instances, h'.linkOf n' = none) ∧
        ∀ k r, h.replicas.get? k = some r → r.manager ≠ m) : Change h [] h'
  | created {h' : Host} (m : ManagerId) (manager : Manager) (data : List UInt8)
    (hc : h.Creates h' m manager data) : Change h [] h'
  /-- A handle was made or given up. -/
  | counted (k : ReplicaId) (r : Replica) (handles : Nat) (hr : h.replicas.get? k = some r)
    (hpos : 0 < handles) :
    Change h [] { h with replicas := h.replicas.insert k { r with handles } }
  | loaded {h' : Host} (k : ReplicaId) (r : Replica) (manager : Manager) (home : InstanceId)
    (n : ObjectIndex) (hr : h.replicas.get? k = some r) (hu : r.unloaded = false)
    (hm : h.managers[r.manager]? = some manager) (hmem : home ∈ manager.instances)
    (hl : h.Loads home r.id r.data n h') : Change h [.loaded k home] h'
  | unloaded {h' : Host} (k : ReplicaId) (r : Replica) (manager : Manager) (home : InstanceId)
    (hr : h.replicas.get? k = some r) (hm : h.managers[r.manager]? = some manager)
    (hmem : home ∈ manager.instances) (hp : h.Purges r.id (· = home) h') :
    Change h [.unloaded k (some home)] h'
  /-- A value was unloaded from all instances, for good. -/
  | retired {h₁ : Host} (k : ReplicaId) (r : Replica) (manager : Manager)
    (hr : h.replicas.get? k = some r) (hm : h.managers[r.manager]? = some manager)
    (hp : h.Purges r.id (· ∈ manager.instances) h₁) : Change h [.unloaded k none]
      { h₁ with replicas := h₁.replicas.insert k { r with unloaded := true } }
  /-- The last handle of a value was given up. -/
  | dropped {h₁ : Host} (k : ReplicaId) (r : Replica) (manager : Manager) (D : InstanceId → Prop)
    (replicas : Table ReplicaId Replica) (hr : h.replicas.get? k = some r)
    (hm : h.managers[r.manager]? = some manager) (hp : h.Purges r.id D h₁)
    (hD : ∀ n, D n ↔ r.unloaded = false ∧ n ∈ manager.instances)
    (hget : ∀ k', replicas.get? k' = if k' = k then none else h.replicas.get? k') :
    Change h [] { h₁ with replicas }

variable {h h' : Host}

theorem purges_of_false {id : ObjectId} {D : InstanceId → Prop} (hD : ∀ n, ¬ D n) :
    h.Purges id D h :=
  Purges.refl fun n hn => absurd hn (hD n)

/-- Whoever gives instances up leaves them without a link, and does not link others again. -/
theorem closeInstance_fades (n : InstanceId) (h : Host) :
    (runOn h (closeInstance n)).2.linkOf n = none ∧
      ∀ k, h.linkOf k = none → (runOn h (closeInstance n)).2.linkOf k = none := by
  rcases closeInstance_eq n h with ⟨hn, hr⟩ | ⟨i, hi, hb⟩
  · rw [hr]
    refine ⟨?_, fun k hk => hk⟩
    rw [linkOf, hn]
    rfl
  · have hself := linkOf_set_self (h := h) n (i := i.spent) rfl
    refine ⟨(hb.linkOf n).trans hself, fun k hk => ?_⟩
    rw [hb.linkOf]
    by_cases he : n = k
    · rw [← he, hself]
    · rw [linkOf_set_ne _ he, hk]

/-- Links do not come back. -/
def Fades (h h' : Host) : Prop := ∀ n, h.linkOf n = none → h'.linkOf n = none

instance : Frame Fades where
  refl _ _ := id
  trans hf hf' n hn := hf' n (hf n hn)

theorem fades_closeInstance (n : InstanceId) : Within Fades (closeInstance n) :=
  fun h => (closeInstance_fades n h).2

theorem closeInstances_linkOf (ns : List InstanceId) (h : Host) {n : InstanceId} (hn : n ∈ ns) :
    (runOn h (closeInstances ns)).2.linkOf n = none := by
  induction ns generalizing h with
  | nil => cases hn
  | cons n' ns ih =>
    have hfirst : runOn h (outcome (closeInstance n')) =
        (.ok (runOn h (closeInstance n')).1, (runOn h (closeInstance n')).2) := runOn_outcome ..
    have hrest (h' : Host) : runOn h' (outcome (closeInstances ns)) =
        (.ok (runOn h' (closeInstances ns)).1, (runOn h' (closeInstances ns)).2) := runOn_outcome ..
    rw [closeInstances, runOn_bind_ok hfirst, runOn_bind_ok (hrest _)]
    -- An instance that is closed first stays closed while the others are.
    have hlast : (runOn (runOn h (closeInstance n')).2 (closeInstances ns)).2.linkOf n = none := by
      rcases List.mem_cons.1 hn with rfl | hmem
      · exact within_closeInstances (fun n _ => fades_closeInstance n) _ _ (closeInstance_fades n h).1
      · exact ih _ hmem
    cases (runOn h (closeInstance n')).1 <;> exact hlast

theorem dropInstances_linkOf (ns : List InstanceId) (h : Host) {n : InstanceId} (hn : n ∈ ns) :
    (runOn h (dropInstances ns)).2.linkOf n = none := by
  induction ns generalizing h with
  | nil => cases hn
  | cons n' ns ih =>
    have hfirst : runOn h (dropInstance n') = (.ok (), (runOn h (closeInstance n')).2) :=
      runOn_ignoring ..
    rw [dropInstances, runOn_bind_ok hfirst]
    rcases List.mem_cons.1 hn with rfl | hmem
    · exact within_dropInstances (fun n _ => fades_closeInstance n) _ _ (closeInstance_fades n h).1
    · exact ih _ hmem

theorem Idles.change (hi : h.Idles h') (hw : h.Wired) : h'.Wired ∧ h.Change [] h' := by
  obtain ⟨hw', hr⟩ := hi hw
  exact ⟨hw', .rested hr⟩

theorem Builds.change {N : Nat} (hb : h.Builds N h') (hs : h.Settles (fun _ => False) h')
    (hw : h.Wired) : h'.Wired ∧ h.Change [] h' := by
  obtain ⟨hw', hs⟩ := hs hw
  refine ⟨hw', .grown hs [] ?_ hb.books.replicas hb.books.nextReplica nofun⟩
  rw [List.append_nil]
  exact hb.books.managers

/-- The members that are loaded are linked, and whichever instance was linked before still is. -/
theorem loadMembers_linked {spec : ManagerSpec} {registry : Nat} {loaded ns : List InstanceId}
    {number count : Nat} {h h' : Host}
    (hr : runOn h (loadMembers spec registry loaded number count) = (.ok ns, h')) :
    ∀ n, h.linkOf n ≠ none ∨ h.instances.length ≤ n ∧ n < h.instances.length + count →
      h'.linkOf n ≠ none := by
  induction count generalizing loaded number h with
  | zero =>
    cases hr
    intro n hn
    rcases hn with hn | ⟨hle, hlt⟩
    · exact hn
    · exact absurd hlt (Nat.not_lt.2 hle)
  | succ count ih =>
    obtain ⟨m, h₁, hm, hr⟩ := bind_ok hr
    have hmember := onFailure_ok hm
    obtain ⟨-, hlen⟩ := loadMember_ok hmember
    obtain ⟨i, h₂, hload, hmember⟩ := bind_ok hmember
    obtain ⟨u, h₃, hadopt, hmember⟩ := bind_ok hmember
    obtain ⟨l, k, hl, -⟩ := Instance.load_ok hload
    have hb := (Instance.sameBooks_load _ _ _).of_eq hload
    have hb' := (i.within_adopt (S := fun _ => True) (T := fun _ => True) registry).of_eq
      (onFailure_ok hadopt)
    have hinst : h₃.instances = h.instances := hb'.instances.trans hb.instances
    cases hmember
    -- The instance comes last, with the link that it was loaded with.
    have hlink (n : InstanceId) : Host.linkOf { h₃ with instances := h₃.instances ++ [i] } n =
        if n = h.instances.length then some l else h.linkOf n := by
      simp only [linkOf, getElem?_concat_eq, hinst]
      split
      · exact hl
      · rfl
    intro n hn
    refine ih hr n ?_
    rw [hlink, hlen]
    by_cases he : n = h.instances.length
    · rw [if_pos he]
      exact .inl (Option.some_ne_none l)
    · rw [if_neg he]
      refine hn.imp_right fun hb => ⟨Nat.lt_of_le_of_ne hb.1 (Ne.symm he), ?_⟩
      rw [Nat.add_assoc, Nat.add_comm 1]
      exact hb.2

theorem change_buildManager (hw : h.Wired) (spec : ManagerSpec) :
    (runOn h (buildManager spec)).2.Wired ∧ h.Change [] (runOn h (buildManager spec)).2 := by
  have hsettles := settles_buildManager (X := fun _ => False) spec h
  rcases buildManager_cases spec h with ⟨e, h', hr, hb⟩ | ⟨registry, b, h₀, h₁, hs₀, hm, hb, hr⟩
  · rw [hr] at hsettles ⊢
    exact hb.change hsettles hw
  · rw [hr] at hsettles ⊢
    obtain ⟨hw', hs⟩ := hsettles hw
    have hn : h.instances.length ≤ h₀.instances.length := Nat.le_of_eq (by rw [hs₀.instances])
    have hbuilds := loadMembers_builds spec registry [] 0 spec.count h₀ nofun hn
    rw [hm] at hbuilds
    have hall := hs₀.toSameBooks.builds.trans hbuilds
    refine ⟨hw', .grown hs _ (congrArg (· ++ _) hall.books.managers) hall.books.replicas
      hall.books.nextReplica ?_⟩
    intro manager hmanager
    rw [List.mem_singleton] at hmanager
    subst hmanager
    refine ⟨rfl, fun n hmem => ?_⟩
    have hrange := List.mem_range'_1.1 hmem
    rw [← hs₀.instances] at hrange
    exact ⟨hs₀.instances ▸ hrange.1, loadMembers_linked hm n (.inr hrange)⟩

/-- A manager can be ended when no value of it is left. -/
theorem change_ending (hw : h.Wired) (hp : h.Placed) {m : ManagerId} (hn : h.replicasOf m = [])
    {x : List InstanceId → HostM Unit} (hx : ∀ ns, Within (Settles (· ∈ ns)) (x ns))
    (hb : ∀ ns, Within (BuildsAbove 0) (x ns))
    (hgone : ∀ ns h n, n ∈ ns → (runOn h (x ns)).2.linkOf n = none) :
    (runOn h (do
      let manager ← getManager m
      x manager.instances)).2.Wired ∧ h.Change [] (runOn h (do
      let manager ← getManager m
      x manager.instances)).2 := by
  rcases find_cases (fun h => h.managers[m]?) h with ⟨-, hr⟩ | ⟨manager, hm, hr⟩
  · rw [getManager, runOn_bind_error hr]
    exact ⟨hw, .rested (.refl h)⟩
  · rw [getManager, runOn_bind_ok hr]
    obtain ⟨hw', hs⟩ := hx manager.instances h hw
    have hbooks := (hb manager.instances h (Nat.zero_le _)).books
    refine ⟨hw', .ended _ hs hbooks.managers hbooks.replicas hbooks.nextReplica ?_⟩
    intro m' manager' n hm' hn' hmem
    -- No other manager owns an instance of this one.
    obtain rfl := hp.disjoint m m' _ _ n (team_of_manager hm) (team_of_manager hm') hmem hn'
    obtain rfl := Option.some.inj (hm.symm.trans hm')
    refine ⟨fun n' hmem' => hgone _ h n' hmem', fun k r hg he => ?_⟩
    unfold replicasOf at hn
    rw [List.map_eq_nil_iff, List.filter_eq_nil_iff] at hn
    exact hn (k, r) (Table.mem_of_get? hg) (by simpa using he)

/-- An instance that no manager owns can be torn down. -/
theorem change_closeInstance (hw : h.Wired) {n : InstanceId} (hn : h.ownerOf n = none) :
    (runOn h (closeInstance n)).2.Wired ∧ h.Change [] (runOn h (closeInstance n)).2 := by
  obtain ⟨hw', hs⟩ := settles_closeInstance (X := (· = n)) rfl h hw
  have hbooks := (builds_closeInstance (Nat.zero_le n) h (Nat.zero_le _)).books
  refine ⟨hw', .ended _ hs hbooks.managers hbooks.replicas hbooks.nextReplica ?_⟩
  rintro m manager k hm hmem rfl
  unfold ownerOf at hn
  rw [List.findIdx?_eq_none_iff] at hn
  have hnot := hn manager (List.mem_of_getElem? hm)
  rw [List.contains_iff_mem.2 hmem] at hnot
  cases hnot

/-- A new value has the next numbers of the host and of the manager of the session. Nothing else is
changed, even if it fails midway. -/
theorem createReplica_cases (hw : h.Wired) (s : SessionId) (o : Ref) :
    (∃ e h', runOn h (createReplica s o) = (.error e, h') ∧ h'.Wired ∧ h.Rests h') ∨
      ∃ session m manager data h₀ h₁, h.sessions.get? s = some session ∧
        session.origin.manager? = some m ∧ h.managers[m]? = some manager ∧
        runOn h (performBool s (.isOwner o)) = (.ok true, h₀) ∧
        runOn h₀ (performBytes s (.serialize session.current o)) = (.ok data, h₁) ∧
        h₁.Wired ∧ h.Rests h₁ ∧
        runOn h (createReplica s o) = (.ok h₁.nextReplica, { h₁ with
          managers := h₁.managers.set m { manager with nextObject := manager.nextObject + 1 }
          replicas := h₁.replicas.insert h₁.nextReplica
            { id := ⟨manager.nextObject⟩, data, manager := m }
          nextReplica := h₁.nextReplica + 1 }) := by
  have hasks : Within Idles (performBool s (.isOwner o)) := idles_performBool s (.isOwner o) rfl
  rcases createReplica_steps hasks (fun receiver => idles_performBytes s (.serialize receiver o) rfl) h with
    ⟨e, h', hr, hidles⟩ | ⟨session, m, manager, data, h₀, h₁, hs, horigin, hm, hasked, hwritten, hidles, hr⟩
  · exact .inl ⟨e, h', hr, hidles hw⟩
  · obtain ⟨hw₁, hrests⟩ := hidles hw
    exact .inr ⟨session, m, manager, data, h₀, h₁, hs, horigin, hrests.managers ▸ hm, hasked, hwritten, hw₁,
      hrests, hr⟩

theorem change_createReplica (hw : h.Wired) (hp : h.Placed) (s : SessionId) (o : Ref)
    (hroom : ∀ manager ∈ Action.managerOf? h s, manager.nextObject.toNat + 1 < 2 ^ 64) :
    (runOn h (createReplica s o)).2.Wired ∧ h.Change [] (runOn h (createReplica s o)).2 := by
  rcases createReplica_cases hw s o with
    ⟨e, h', hr, hw', hrests⟩ | ⟨session, m, manager, data, h₀, h₁, hs, ho, hm, -, -, hw₁, hrests, hr⟩
  · rw [hr]
    exact ⟨hw', .rested hrests⟩
  · rw [hr]
    have hfree : manager.nextObject.toNat + 1 < 2 ^ 64 := by
      refine hroom manager ?_
      simp only [Action.managerOf?, hs, ho, hm, bind, Option.bind]
      rfl
    -- The session runs on an instance of the manager, so this one is in use.
    obtain ⟨home, hhome⟩ := Origin.home_of_manager ho
    obtain ⟨team, ht, hmem⟩ := hp.owned s session m home hs ho hhome
    obtain rfl := Option.some.inj ((team_of_manager hm).symm.trans ht)
    have hused : h.linkOf home ≠ none := by
      rw [linkOf_of_session hp hs hhome]
      exact Option.some_ne_none _
    refine ⟨hw₁.congr rfl rfl rfl, .created m manager data
      ⟨hm, ⟨home, hmem, hused⟩, hfree, hrests.instances, ?_, ?_, ?_, hrests.heap, hrests.store⟩⟩
    · rw [← hrests.managers]
    · rw [← hrests.replicas, ← hrests.nextReplica]
    · rw [← hrests.nextReplica]

/-- All instances of a manager can be reached as long as there are values of it. -/
def Standing (h : Host) : Prop :=
  ∀ k r, h.replicas.get? k = some r → ∃ manager, h.managers[r.manager]? = some manager ∧
    ∀ n ∈ manager.instances, h.linkOf n ≠ none

/-- A value with a handle can be unloaded from all instances. -/
theorem unloadAll_ok (hw : h.Wired) (hst : h.Standing) {k : ReplicaId} {r : Replica}
    (hr : h.replicas.get? k = some r) :
    ∃ manager h₁, h.managers[r.manager]? = some manager ∧ h₁.Wired ∧
      h.Purges r.id (· ∈ manager.instances) h₁ ∧
      runOn h (unloadAll k) =
        (.ok (), { h₁ with replicas := h₁.replicas.insert k { r with unloaded := true } }) := by
  obtain ⟨manager, hm, hlinked⟩ := hst k r hr
  obtain ⟨hw₁, hp, hok⟩ := unloadFromEach_purges hw hm fun n hn => hn
  have hrun : runOn h (unloadFromEach r manager.instances) =
      (.ok (), (runOn h (unloadFromEach r manager.instances)).2) := Prod.ext (hok hlinked) rfl
  refine ⟨manager, _, hm, hw₁, hp, ?_⟩
  rw [unloadAll, runOn_bind_ok (getReplica_ok hr),
    runOn_bind_ok (getManager_ok hm), runOn_bind_ok hrun]
  rfl

/-- A value can be unloaded from each instance of its manager, and from no other. -/
theorem unload_some_cases (hw : h.Wired) (hst : h.Standing) (k : ReplicaId) (home : InstanceId) :
    (∃ e, runOn h (unload k (some home)) = (.error e, h)) ∨
      ∃ r manager h', h.replicas.get? k = some r ∧ h.managers[r.manager]? = some manager ∧
        home ∈ manager.instances ∧ h'.Wired ∧ h.Purges r.id (· = home) h' ∧
        runOn h (unload k (some home)) = (.ok (), h') := by
  unfold unload
  simp only []
  rcases find_cases (fun h => h.replicas.get? k) h with ⟨-, hr⟩ | ⟨r, hrecord, hr⟩
  · exact .inl ⟨_, by rw [getReplica, runOn_bind_error hr]⟩
  · rw [getReplica, runOn_bind_ok hr]
    obtain ⟨manager, hm, hlinked⟩ := hst k r hrecord
    by_cases hmem : home ∈ manager.instances
    · obtain ⟨l, hl⟩ := Option.ne_none_iff_exists'.1 (hlinked home hmem)
      obtain ⟨h', hrun, hw', hp⟩ := unloadFrom_ok hw hm hmem hl
      exact .inr ⟨r, manager, h', hrecord, hm, hmem, hw', hp, hrun⟩
    · rcases requireOwned_cases r.manager home h with ⟨e, hr⟩ | ⟨manager', hm', hmem', -⟩
      · exact .inl ⟨e, by rw [unloadFrom, runOn_bind_error hr]⟩
      · obtain rfl := Option.some.inj (hm.symm.trans hm')
        exact absurd hmem' hmem

theorem change_unload (hw : h.Wired) (hst : h.Standing) (k : ReplicaId) (on : Option InstanceId) :
    (runOn h (unload k on)).2.Wired ∧
      h.Change (h.events (.unload k on)) (runOn h (unload k on)).2 := by
  cases on with
  | some home =>
    rcases unload_some_cases hw hst k home with
      ⟨e, hr⟩ | ⟨r, manager, h', hrecord, hm, hmem, hw', hp, hr⟩
    · simp only [events, hr]
      exact ⟨hw, .rested (.refl h)⟩
    · simp only [events, hr]
      exact ⟨hw', .unloaded k r manager home hrecord hm hmem hp⟩
  | none =>
    have hunload : runOn h (unload k none) = runOn h (unloadAll k) := rfl
    cases hrecord : h.replicas.get? k with
    | none =>
      have hr : runOn h (unloadAll k) = (.error .unknownHandle, h) :=
        runOn_bind_error (getReplica_none hrecord) _
      simp only [events, hunload, hr]
      exact ⟨hw, .rested (.refl h)⟩
    | some r =>
      obtain ⟨manager, h₁, hm, hw₁, hp, hr⟩ := unloadAll_ok hw hst hrecord
      simp only [events, hunload, hr]
      exact ⟨hw₁.congr rfl rfl rfl, .retired k r manager hrecord hm hp⟩

theorem change_cloneReplica (hw : h.Wired) (k : ReplicaId) :
    (runOn h (cloneReplica k)).2.Wired ∧ h.Change [] (runOn h (cloneReplica k)).2 := by
  unfold cloneReplica
  rcases find_cases (fun h => h.replicas.get? k) h with ⟨-, hr⟩ | ⟨r, hrecord, hr⟩
  · rw [getReplica, runOn_bind_error hr]
    exact ⟨hw, .rested (.refl h)⟩
  · rw [getReplica, runOn_bind_ok hr]
    exact ⟨hw.congr rfl rfl rfl, .counted k r (r.handles + 1) hrecord (Nat.succ_pos _)⟩

/-- A handle is given up. With the last one the record goes, and what is loaded for it. -/
theorem dropReplica_cases (hw : h.Wired) (hst : h.Standing) {k : ReplicaId} {r : Replica}
    (hr : h.replicas.get? k = some r) :
    1 < r.handles ∧ runOn h (dropReplica k) =
        (.ok (), { h with replicas := h.replicas.insert k { r with handles := r.handles - 1 } }) ∨
      r.handles ≤ 1 ∧ ∃ manager D h₁ replicas, h.managers[r.manager]? = some manager ∧ h₁.Wired ∧
        h.Purges r.id D h₁ ∧ (∀ n, D n ↔ r.unloaded = false ∧ n ∈ manager.instances) ∧
        (∀ k', Table.get? replicas k' = if k' = k then none else h.replicas.get? k') ∧
        runOn h (dropReplica k) = (.ok (), { h₁ with replicas }) := by
  unfold dropReplica
  rw [runOn_bind_ok (getReplica_ok hr)]
  by_cases hmany : r.handles > 1
  · rw [if_pos hmany]
    exact .inl ⟨hmany, rfl⟩
  rw [if_neg hmany]
  refine .inr ⟨Nat.le_of_not_gt hmany, ?_⟩
  cases hu : r.unloaded with
  | true =>
    simp only [not_true_eq_false, if_false]
    obtain ⟨manager, hm, -⟩ := hst k r hr
    refine ⟨manager, fun _ => False, h, h.replicas.erase k, hm, hw, purges_of_false fun _ => id,
      fun n => ?_, fun k' => h.replicas.get?_erase k k', rfl⟩
    simp only [Bool.true_eq_false, false_and]
  | false =>
    obtain ⟨manager, h₁, hm, hw₁, hp, hall⟩ := unloadAll_ok hw hst hr
    have hdone : runOn h (ignoring (unloadAll k)) = (.ok (), { h₁ with
        replicas := h₁.replicas.insert k { r with unloaded := true } }) := by
      rw [runOn_ignoring, hall]
    -- The record is marked first and goes then, so only the latter is seen.
    simp only [Bool.false_eq_true, not_false_eq_true, if_true]
    rw [runOn_bind_ok hdone]
    refine ⟨manager, _, h₁, _, hm, hw₁, hp, fun n => by simp only [true_and], fun k' => ?_, rfl⟩
    simp only [Table.get?_erase, Table.get?_insert, hp.values.replicas]
    split <;> rfl

theorem change_dropReplica (hw : h.Wired) (hst : h.Standing) (k : ReplicaId) :
    (runOn h (dropReplica k)).2.Wired ∧ h.Change [] (runOn h (dropReplica k)).2 := by
  cases hrecord : h.replicas.get? k with
  | none =>
    have hr : runOn h (dropReplica k) = (.error .unknownHandle, h) :=
      runOn_bind_error (getReplica_none hrecord) _
    rw [hr]
    exact ⟨hw, .rested (.refl h)⟩
  | some r =>
    rcases dropReplica_cases hw hst hrecord with
      ⟨hmany, hr⟩ | ⟨-, manager, D, h₁, replicas, hm, hw₁, hp, hD, hget, hr⟩
    · rw [hr]
      exact ⟨hw.congr rfl rfl rfl, .counted k r _ hrecord (Nat.sub_pos_of_lt hmany)⟩
    · rw [hr]
      exact ⟨hw₁.congr rfl rfl rfl, .dropped k r manager D replicas hrecord hm hp hD hget⟩

theorem Materialized.homeOf? {s : SessionId} {k : ReplicaId} {r : Replica} {session : Session}
    {home : InstanceId} {slots : List ObjectIndex} {n : ObjectIndex}
    (hm : h.Materialized s k r session home slots n h') : h.homeOf? s = some home := by
  rw [Host.homeOf?, hm.opened]
  exact hm.homed

theorem Materialized.change {s : SessionId} {k : ReplicaId} {r : Replica} {session : Session}
    {home : InstanceId} {slots : List ObjectIndex} {n : ObjectIndex}
    (hm : h.Materialized s k r session home slots n h') : h.Change [.loaded k home] h' := by
  obtain ⟨team, ht, hmem⟩ := hm.member
  obtain ⟨manager, hmanager, rfl⟩ := Option.map_eq_some_iff.1 ht
  exact .loaded k r manager home n hm.record hm.loadable hmanager hmem hm.loads

theorem change_materialize (hp : h.Placed) (hw : h.Wired) (s : SessionId) (k : ReplicaId) :
    (runOn h (materialize s k)).2.Wired ∧
      h.Change (h.events (.materialize s k)) (runOn h (materialize s k)).2 := by
  rcases materialize_cases hp hw s k with ⟨e, hr⟩ | ⟨r, session, home, slots, n, h', hr, hm⟩
  · simp only [events, hr]
    exact ⟨hw, .rested (.refl h)⟩
  · simp only [events, hr, hm.homeOf?]
    exact ⟨hm.wired, hm.change⟩

theorem idles_openFor (m : ManagerId) (on : Option InstanceId) (t : Thread) :
    Within Idles (openFor m on t) := by
  cases on with
  | some home => exact idles_openPinned m home
  | none => exact idles_openBalanced m t

/-- The host after a reference was made the current value of a session. -/
def point (h : Host) (s : SessionId) (session : Session) (r : Ref) : Host :=
  { h with sessions := h.sessions.insert s { session with current := some r } }

/-- A session is opened for a value, in which it is materialized and made the current value, or in the
end nothing has changed. -/
theorem openReplica_cases (hs : h.Sound) (hw : h.Wired) (hf : h.sessions.size + 1 < 2 ^ 64)
    (k : ReplicaId) (on : Option InstanceId) (t : Thread) :
    (∃ e h', runOn h (openReplica k on t) = (.error e, h') ∧ h'.Wired ∧ h.Rests h') ∨
      ∃ s h₁ r session home slots n h₂, runOn h (openFor r.manager on t) = (.ok s, h₁) ∧
        h₁.Sound ∧ h₁.Wired ∧ h.Rests h₁ ∧ h₁.Materialized s k r session home slots n h₂ ∧
        h₂.sessions = h₁.sessions ∧
        runOn h (openReplica k on t) =
          (.ok s, h₂.point s session ⟨session.key, UInt32.ofNat slots.length⟩) := by
  rw [openReplica_eq]
  rcases find_cases (fun h => h.replicas.get? k) h with ⟨-, hr⟩ | ⟨r, hrecord, hr⟩
  · exact .inl ⟨.unknownHandle, h, by rw [getReplica, runOn_bind_error hr], hw, .refl h⟩
  rw [getReplica, runOn_bind_ok hr]
  by_cases hu : r.unloaded = true
  · have hunloaded := requireLoaded_unloaded hu h
    exact .inl ⟨.objectNotFound r.id, h, runOn_bind_error hunloaded _, hw, .refl h⟩
  rw [Bool.not_eq_true] at hu
  rw [runOn_bind_ok (requireLoaded_ok hu h)]
  have hopen := (idles_openFor r.manager on t) h hw
  have hsound := sound_openFor hs hf r.manager on t
  rcases hr₁ : runOn h (openFor r.manager on t) with ⟨e | s, h₁⟩
  · rw [hr₁] at hopen
    exact .inl ⟨e, h₁, runOn_bind_error hr₁ _, hopen⟩
  rw [hr₁] at hopen hsound
  obtain ⟨hw₁, hrests⟩ := hopen
  rw [runOn_bind_ok hr₁]
  rcases materialize_cases hsound.toPlaced hw₁ s k with
    ⟨e, hr₂⟩ | ⟨r', session, home, slots, n, h₂, hr₂, hm⟩
  · -- What the session was opened for is not there, so it is closed again.
    obtain ⟨e', hfail⟩ := onFailure_of_error (runOn_bind_error hr₂ (setCurrent s)) (closeSession s)
    obtain ⟨hw₂, hrests₂⟩ := idles_closeSession s h₁ hw₁
    exact .inl ⟨e', _, runOn_bind_error hfail _, hw₂, hrests.trans hrests₂⟩
  · have hsessions : h₂.sessions = h₁.sessions := ((sameBooks_materialize s k).of_eq hr₂).sessions
    have hget : h₂.sessions.get? s = some session := by rw [hsessions, hm.opened]
    have hset : runOn h₁ (do setCurrent s (← materialize s k)) =
        (.ok (), h₂.point s session ⟨session.key, UInt32.ofNat slots.length⟩) := by
      rw [runOn_bind_ok hr₂, setCurrent, runOn_bind_ok (getSession_ok hget)]
      rfl
    obtain rfl : r' = r := by
      have hrecord' := hm.record
      rw [hrests.replicas, hrecord] at hrecord'
      exact (Option.some.inj hrecord').symm
    refine .inr ⟨s, h₁, r', session, home, slots, n, h₂, hr₁, hsound, hw₁, hrests, hm, hsessions, ?_⟩
    rw [runOn_bind_ok (onFailure_of_ok hset _)]
    rfl

/-- What rests before a value is loaded does not count. -/
theorem Rests.loads {h₁ h₂ : Host} {home : InstanceId} {id : ObjectId} {data : List UInt8}
    {n : ObjectIndex} (hr : h.Rests h₁) (hl : h₁.Loads home id data n h₂)
    (sessions : Table SessionId Session) :
    h.Loads home id data n { h₂ with sessions } := by
  obtain ⟨t, t', ht, hfetch, hstore⟩ := hl.store
  refine ⟨?_, hr.heap.trans hl.heap, t, t', (hr.store home).symm.trans ht, hfetch, fun i => ?_⟩
  · have hv := hr.toSameValues.trans hl.values
    exact ⟨hv.instances, hv.managers, hv.replicas, hv.nextReplica⟩
  · rw [← hr.store]
    exact hstore i

theorem change_openReplica (hs : h.Sound) (hw : h.Wired) (hf : h.sessions.size + 1 < 2 ^ 64)
    (k : ReplicaId) (on : Option InstanceId) (t : Thread) :
    (runOn h (openReplica k on t)).2.Wired ∧
      h.Change (h.events (.openReplica k on t)) (runOn h (openReplica k on t)).2 := by
  rcases openReplica_cases hs hw hf k on t with ⟨e, h', hr, hw', hrests⟩ |
    ⟨s, h₁, r, session, home, slots, n, h₂, -, -, hw₁, hrests, hm, -, hr⟩
  · simp only [events, hr]
    exact ⟨hw', .rested hrests⟩
  · have hhome (ref : Ref) : (h₂.point s session ref).homeOf? s = some home := by
      simp only [Host.homeOf?, point, Table.get?_insert_self, Option.bind_some, hm.homed]
    simp only [events, hr, hhome]
    obtain ⟨team, ht, hmem⟩ := hm.member
    obtain ⟨manager, hmanager, rfl⟩ := Option.map_eq_some_iff.1 ht
    refine ⟨hm.wired.congr rfl rfl rfl, .loaded k r manager home n ?_ hm.loadable ?_ hmem
      (hrests.loads hm.loads _)⟩
    · rw [← hrests.replicas]
      exact hm.record
    · rw [← hrests.managers]
      exact hmanager

/-- Every action that goes through sessions, managers and values does one of these things. -/
theorem change_step (hs : h.Sound) (hw : h.Wired) (hst : h.Standing) {a : Action}
    (ha : a.Allowed h) (hi : a.Inside h) :
    (h.step a).Wired ∧ h.Change (h.events a) (h.step a) := by
  -- Most actions are idle: they leave the values and what is loaded alone.
  have hidle {h' : Host} (hidles : h.Idles h') : h'.Wired ∧ h.Change [] h' := hidles.change hw
  cases a with
  | addLoader loader => exact hidle (idles_congr rfl rfl ⟨rfl, rfl, rfl, rfl⟩)
  | addSource source => exact hidle (idles_congr rfl rfl ⟨rfl, rfl, rfl, rfl⟩)
  | addEnvironment environment => exact hidle (idles_congr rfl rfl ⟨rfl, rfl, rfl, rfl⟩)
  | elsewhere machine channels => exact hi.elim
  | register m name source => exact hidle (idles_register m name source h)
  | buildManager spec =>
    rw [step, Action.run, runOn_lost]
    exact change_buildManager hw spec
  | loadInstance number spec env =>
    rw [step, Action.run, runOn_lost]
    exact (builds_loadInstance number spec env h (Nat.zero_le _)).change
      (settles_loadInstance number spec env h) hw
  | openBalanced m t =>
    rw [step, Action.run, runOn_lost]
    exact hidle (idles_openBalanced m t h)
  | openPinned m n =>
    rw [step, Action.run, runOn_lost]
    exact hidle (idles_openPinned m n h)
  | openAlone n =>
    rw [step, Action.run, runOn_lost]
    exact hidle (idles_openAlone n h)
  | openReplica k on t =>
    rw [step, Action.run, runOn_lost]
    exact change_openReplica hs hw ha k on t
  | closeSession s => exact hidle (idles_closeSession s h)
  | perform s op =>
    rw [step, Action.run, runOn_lost]
    refine hidle (idles_perform s op ?_ h)
    cases op with
    | restore id data => exact hi.elim
    | unload id => exact hi.elim
    | _ => rfl
  | setCurrent s r => exact hidle (idles_setCurrent s r h)
  | createReplica s r =>
    rw [step, Action.run, runOn_lost]
    exact change_createReplica hw hs.toPlaced s r hi
  | materialize s k =>
    rw [step, Action.run, runOn_lost]
    exact change_materialize hs.toPlaced hw s k
  | unload k on => exact change_unload hw hst k on
  | cloneReplica k =>
    rw [step, Action.run, runOn_lost]
    exact change_cloneReplica hw k
  | dropReplica k => exact change_dropReplica hw hst k
  | shutdown m =>
    exact change_ending hw hs.toPlaced ha.2
      (fun ns => within_closeInstances fun _ => settles_closeInstance)
      (fun ns => builds_closeInstances fun n _ => Nat.zero_le n)
      (fun ns h n => closeInstances_linkOf ns h)
  | dropManager m =>
    exact change_ending hw hs.toPlaced ha.2
      (fun ns => within_dropInstances fun _ => settles_closeInstance)
      (fun ns => builds_dropInstances fun n _ => Nat.zero_le n)
      (fun ns h n => dropInstances_linkOf ns h)
  | closeInstance n => exact change_closeInstance hw ha.1
  | dropInstance n => exact change_closeInstance hw ha.1

end Host

end InstancePool
