import InstancePool.Proofs.Manager.SlotCounts

/-!
Every action keeps the books of a host in order.
-/

namespace InstancePool

open HostM

/-- The books are in order. -/
structure Host.Sound (h : Host) : Prop extends h.Placed, h.Accounted

/-- An action keeps the books in order wherever it starts. -/
abbrev HostM.KeepsSound {α : Type} (x : HostM α) : Prop :=
  Within (fun h h' => h.Sound → h'.Sound) x

namespace Host

variable {α : Type} {h h' : Host}

theorem Sound.of_sameBooks (hs : h.Sound) (hb : h.SameBooks h') : h'.Sound :=
  ⟨hs.toPlaced.of_sameBooks hb, hs.toAccounted.of_sameBooks hb⟩

theorem Sound.of_builds (hs : h.Sound) (hb : h.Builds h.instances.length h') : h'.Sound :=
  ⟨hs.toPlaced.of_builds hb, hs.toAccounted.of_builds hb⟩

theorem keepsSound_of_sameBooks {x : HostM α} (hx : Within SameBooks x) : KeepsSound x :=
  hx.mono fun _ _ hb hs => hs.of_sameBooks hb

theorem sound_empty : Sound {} where
  fresh := nofun
  linked := nofun
  owned := nofun
  seated := nofun
  member := nofun
  disjoint := nofun
  slots := nofun
  separate := nofun
  calm := rfl
  few := by decide

theorem sameBooks_perform (l : Link) (key : SessionKey) (op : Op) :
    Within SameBooks (l.perform key op) := fun _ =>
  (Link.spares_perform (S := fun _ => False) (T := fun _ => False) fun _ _ _ => id).toSameBooks

theorem sameBooks_performIn (s : SessionId) (op : Op) : Within SameBooks (Host.perform s op) :=
  (within_find _).bind fun session => sameBooks_perform session.link session.key op

theorem sameBooks_performRef (s : SessionId) (op : Op) : Within SameBooks (Host.performRef s op) :=
  (sameBooks_performIn s op).bind fun _ => within_settle _

theorem sameBooks_openSession (l : Link) : Within SameBooks l.openSession :=
  (l.within_openSession (S := fun _ => True) (T := fun _ => True)).mono fun _ _ hs => hs.toSameBooks

theorem sameBooks_closeSession (l : Link) (key : SessionKey) :
    Within SameBooks (l.closeSession key) :=
  (l.within_closeSession (S := fun _ => True) (T := fun _ => True) key).mono
    fun _ _ hs => hs.toSameBooks

theorem within_requireOwned {R : Host → Host → Prop} [Frame R] (m : ManagerId) (n : InstanceId) :
    Within R (requireOwned m n) := by
  intro h
  rcases requireOwned_cases m n h with ⟨e, hr⟩ | ⟨manager, -, -, hr⟩
  · rw [hr]
    exact Frame.refl h
  · rw [hr]
    exact Frame.refl h

theorem within_requireLoaded {R : Host → Host → Prop} [Frame R] (r : Replica) :
    Within R (requireLoaded r) := by
  unfold requireLoaded
  split
  · exact within_throw _
  · exact within_pure _

theorem sameBooks_materialize (s : SessionId) (n : ReplicaId) :
    Within SameBooks (materialize s n) :=
  (within_find _).bind fun r => (within_requireLoaded r).bind fun _ => (within_find _).bind fun _ =>
    (within_find _).bind fun home => (within_requireOwned r.manager home).bind fun _ =>
      sameBooks_performRef s _

theorem sameBooks_unloadFrom (r : Replica) (n : InstanceId) : Within SameBooks (unloadFrom r n) :=
  (within_requireOwned r.manager n).bind fun _ => (within_find _).bind fun _ =>
    Instance.within_withSession sameBooks_openSession sameBooks_closeSession fun l key =>
      (sameBooks_perform l key _).bind fun _ => within_pure _

theorem sameBooks_unloadFromEach (r : Replica) (ns : List InstanceId) :
    Within SameBooks (unloadFromEach r ns) := by
  induction ns with
  | nil => exact within_pure _
  | cons n ns ih =>
    exact (sameBooks_unloadFrom r n).outcome.bind fun _ => ih.outcome.bind fun _ =>
      (within_settle _).bind fun _ => within_settle _

/-- Opening a session leaves the books in order, whether it succeeds or fails. -/
theorem Sound.keep (hs : h.Sound) (hf : h.sessions.size + 1 < 2 ^ 64) {h₁ : Host}
    (hb : h.SameBooks h₁) {session : Session} (hl : ∀ home, session.origin.home? = some home →
      ∃ i, h.instances[home]? = some i ∧ i.link = some session.link)
    (ho : ∀ m home, session.origin.manager? = some m → session.origin.home? = some home →
      ∃ team, h.team m = some team ∧ home ∈ team)
    (hslot : session.origin.slot? = none) : (h₁.keep session).Sound := by
  have hs₁ := hs.of_sameBooks hb
  refine ⟨hs₁.toPlaced.keep ?_ ?_ ?_, hs₁.toAccounted.keep hs₁.nextSession_free ?_ hslot⟩
  · intro home hh
    rw [hb.instances]
    exact hl home hh
  · intro m home hm hh
    rw [hb.team]
    exact ho m home hm hh
  · intro m home slot he
    rw [he] at hslot
    cases hslot
  · rw [hb.sessions]
    exact hf

theorem sound_openAlone (hs : h.Sound) (hf : h.sessions.size + 1 < 2 ^ 64) (n : InstanceId) :
    (runOn h (openAlone n)).2.Sound := by
  rcases openAlone_cases (S := fun _ => True) (T := fun _ => True) n h with
    ⟨e, h', hr, hb⟩ | ⟨i, link, key, h', hi, hl, hb, hr⟩
  · rw [hr]
    exact hs.of_sameBooks hb.toSameBooks
  · rw [hr]
    refine hs.keep hf hb.toSameBooks ?_ nofun rfl
    rintro home ⟨⟩
    exact ⟨i, hi, hl⟩

theorem sound_openPinned (hs : h.Sound) (hf : h.sessions.size + 1 < 2 ^ 64) (m : ManagerId)
    (n : InstanceId) : (runOn h (openPinned m n)).2.Sound := by
  rcases openPinned_cases (S := fun _ => True) (T := fun _ => True) m n h with
    ⟨e, h', hr, hb⟩ | ⟨manager, i, link, key, h', hm, hn, hi, hl, hb, hr⟩
  · rw [hr]
    exact hs.of_sameBooks hb.toSameBooks
  · rw [hr]
    refine hs.keep hf hb.toSameBooks ?_ ?_ rfl
    · rintro home ⟨⟩
      exact ⟨i, hi, hl⟩
    · rintro k home ⟨⟩ ⟨⟩
      exact ⟨_, team_of_manager hm, hn⟩

theorem freeSlot_eq (k slot : Nat) (h : Host) :
    ∃ fleet, (runOn h (freeSlot k slot)).2 = { h with fleet } := by
  simp only [freeSlot, runOn_of]
  cases h.fleet.free k slot with
  | none => exact ⟨h.fleet, rfl⟩
  | some x => exact ⟨x.2, rfl⟩

theorem sound_openBalanced (hs : h.Sound) (hf : h.sessions.size + 1 < 2 ^ 64) (m : ManagerId)
    (t : Thread) : (runOn h (openBalanced m t)).2.Sound := by
  rcases openBalanced_cases (S := fun _ => True) (T := fun _ => True) m t h with
    ⟨e, hr⟩ | ⟨manager, slot, fleet, hm, hacq, hfail | hopen⟩
  · rw [hr]
    exact hs
  · obtain ⟨e, h', hr, hb⟩ := hfail
    rw [hr]
    refine ⟨?_, hs.toAccounted.take_free hf hm hacq hb.toSameBooks⟩
    obtain ⟨fleet', he⟩ := freeSlot_eq manager.balancer slot h'
    rw [he]
    exact hs.toPlaced.congr hb.instances hb.managers hb.sessions hb.nextSession
  · obtain ⟨n, i, link, key, h', hn, hi, hl, hb, hr⟩ := hopen
    rw [hr]
    have hp : Placed { h with fleet } := hs.toPlaced.congr rfl rfl rfl rfl
    have hkeep := hs.toAccounted.keep_balanced hs.nextSession_free hf hm hacq n link key
    refine Sound.of_sameBooks ⟨hp.keep ?_ ?_ ?_, hkeep⟩ (hb.toSameBooks.keep _)
    · rintro home ⟨⟩
      exact ⟨i, hi, hl⟩
    · rintro k home ⟨⟩ ⟨⟩
      exact ⟨_, team_of_manager hm, List.mem_of_getElem? hn⟩
    · rintro k home slot' ⟨⟩
      exact ⟨_, team_of_manager hm, hn⟩

theorem keepsSound_closeSession (s : SessionId) : KeepsSound (closeSession s) := by
  intro h hs
  cases hg : h.sessions.get? s with
  | none =>
    have hr : runOn h (getSession s) = (.error .unknownHandle, h) := by
      simp only [getSession, runOn_find, hg, Option.elim]
    rw [closeSession, runOn_bind_error hr]
    exact hs
  | some session =>
    have hplain (ho : session.origin.slot? = none) : (runOn h (closeSession s)).2.Sound := by
      have hb := closeSession_plain (S := fun _ => True) (T := fun _ => True) hg ho
      exact Sound.of_sameBooks ⟨hs.toPlaced.erase s _, hs.toAccounted.erase hg ho⟩ hb.toSameBooks
    cases ho : session.origin with
    | balanced m home slot =>
      obtain ⟨manager, fleet, hm, hf, ha⟩ := hs.toAccounted.erase_balanced hs.toPlaced hg ho
      have hb := closeSession_balanced (S := fun _ => True) (T := fun _ => True) hg ho hm hf
      exact Sound.of_sameBooks ⟨hs.toPlaced.erase s fleet, ha⟩ hb.toSameBooks
    | _ => exact hplain (by rw [ho]; rfl)

theorem keepsSound_setCurrent (s : SessionId) (r : Ref) : KeepsSound (setCurrent s r) := by
  intro h hs
  rcases find_cases (fun h => h.sessions.get? s) h with ⟨-, hr⟩ | ⟨session, hg, hr⟩
  · rw [setCurrent, getSession, runOn_bind_error hr]
    exact hs
  · rw [setCurrent, getSession, runOn_bind_ok hr]
    exact ⟨hs.toPlaced.setCurrent hg _, hs.toAccounted.setCurrent hg _⟩

/-- The session for a value, before the value is materialized. -/
def openFor (m : ManagerId) (on : Option InstanceId) (t : Thread) : HostM SessionId :=
  match on with
  | some home => openPinned m home
  | none => openBalanced m t

theorem openReplica_eq (k : ReplicaId) (on : Option InstanceId) (t : Thread) :
    openReplica k on t = (do
      let r ← getReplica k
      requireLoaded r
      let s ← openFor r.manager on t
      onFailure (do setCurrent s (← materialize s k)) (closeSession s)
      pure s) := by
  unfold openReplica
  cases on <;> rfl

theorem sound_openFor (hs : h.Sound) (hf : h.sessions.size + 1 < 2 ^ 64) (m : ManagerId)
    (on : Option InstanceId) (t : Thread) : (runOn h (openFor m on t)).2.Sound := by
  cases on with
  | some home => exact sound_openPinned hs hf m home
  | none => exact sound_openBalanced hs hf m t

/-- Opening a session with a value. If the value cannot be materialized, the session is closed. -/
theorem sound_openReplica (hs : h.Sound) (hf : h.sessions.size + 1 < 2 ^ 64) (n : ReplicaId)
    (on : Option InstanceId) (t : Thread) : (runOn h (openReplica n on t)).2.Sound := by
  have hrest (s : SessionId) : KeepsSound (do
      onFailure (do setCurrent s (← materialize s n)) (closeSession s)
      pure s) :=
    (((keepsSound_of_sameBooks (sameBooks_materialize s n)).bind fun r =>
      keepsSound_setCurrent s r).onFailure (keepsSound_closeSession s)).bind fun _ => within_pure _
  rw [openReplica_eq]
  rcases find_cases (fun h => h.replicas.get? n) h with ⟨-, hr⟩ | ⟨r, hg, hr⟩
  · rw [getReplica, runOn_bind_error hr]
    exact hs
  · rw [getReplica, runOn_bind_ok hr]
    unfold requireLoaded
    split
    · exact hs
    · have ho := bind_rel (R := fun h h' => h.Sound → h'.Sound) (x := openFor r.manager on t)
        (fun hs => sound_openFor hs hf r.manager on t) fun s h' _ => hrest s h'
      exact ho hs

theorem sound_buildManager (hs : h.Sound) (spec : ManagerSpec) :
    (runOn h (buildManager spec)).2.Sound := by
  rcases buildManager_cases spec h with ⟨e, h', hr, hb⟩ | ⟨registry, b, h₀, h₁, hs₀, hm, hb, hr⟩
  · rw [hr]
    exact hs.of_builds hb
  · rw [hr]
    have hn : h.instances.length ≤ h₀.instances.length :=
      Nat.le_of_eq (by rw [hs₀.instances])
    have hbuilds := loadMembers_builds spec registry [] 0 spec.count h₀ nofun hn
    rw [hm] at hbuilds
    have hs₁ : h₁.Sound := hs.of_builds (hs₀.toSameBooks.builds.trans hbuilds)
    obtain ⟨-, hlen⟩ := loadMembers_ok hm
    rw [hs₀.instances] at hlen
    have hteam (m : ManagerId) : h₁.team m = h.team m :=
      (hbuilds.team m).trans (hs₀.toSameBooks.team m)
    refine ⟨?_, ?_⟩
    · refine hs₁.toPlaced.addManager _ (N := h.instances.length) ?_ ?_
      · intro m team n ht hmem
        rw [hteam] at ht
        exact hs.member m team n ht hmem
      · intro n hmem
        have hrange := List.mem_range'_1.1 hmem
        rw [hlen]
        exact hrange
    · exact hs₁.toAccounted.addManager hs₁.toPlaced
        (by simpa only [List.length_range'] using hb) rfl

theorem keepsSound_loadInstance (number : Nat) (spec : ImageSpec) (env : EnvironmentId) :
    KeepsSound (loadInstance number spec env) := by
  intro h hs
  exact hs.of_builds (builds_loadInstance number spec env h (Nat.le_refl _))

/-- No session is on any of some instances. -/
def Vacant (ns : List InstanceId) (h : Host) : Prop :=
  ∀ s session n, h.sessions.get? s = some session → session.origin.home? = some n → n ∉ ns

theorem closeInstance_eq (n : InstanceId) (h : Host) :
    h.instances[n]? = none ∧ runOn h (closeInstance n) = (.error .unknownHandle, h) ∨
      ∃ i, h.instances[n]? = some i ∧ SameBooks { h with instances := h.instances.set n i.spent }
        (runOn h (closeInstance n)).2 := by
  rcases find_cases (fun h => h.instances[n]?) h with ⟨hn, hr⟩ | ⟨i, hi, hr⟩
  · exact .inl ⟨hn, by rw [closeInstance, getInstance, runOn_bind_error hr]⟩
  · refine .inr ⟨i, hi, ?_⟩
    rw [closeInstance, getInstance, runOn_bind_ok hr]
    exact i.sameBooks_close { h with instances := h.instances.set n i.spent }

/-- An instance can be torn down when there is no session on it. -/
theorem sound_closeInstance {ns : List InstanceId} {n : InstanceId} (hn : n ∈ ns) :
    Within (fun h h' => (h.Sound ∧ h.Vacant ns) → (h'.Sound ∧ h'.Vacant ns)) (closeInstance n) := by
  rintro h ⟨hs, hv⟩
  rcases closeInstance_eq n h with ⟨-, hr⟩ | ⟨i, hi, hb⟩
  · rw [hr]
    exact ⟨hs, hv⟩
  · have hp : Placed { h with instances := h.instances.set n i.spent } := by
      refine hs.toPlaced.transfer (fun s session hg => ⟨session, hg, rfl, rfl⟩) ?_ ?_
        (fun _ => rfl) rfl
      · intro s session home hg ho
        have hne : n ≠ home := by
          rintro rfl
          exact hv s session n hg ho hn
        exact List.getElem?_set_ne hne
      · simp only [List.length_set]
        exact Nat.le_refl _
    have ha : Accounted { h with instances := h.instances.set n i.spent } :=
      hs.toAccounted.transfer (fun _ => rfl) rfl rfl rfl
    refine ⟨Sound.of_sameBooks ⟨hp, ha⟩ hb, fun s session k hg => ?_⟩
    rw [hb.sessions] at hg
    exact hv s session k hg

theorem vacant_of_sessionsOn {n : InstanceId} (hn : h.sessionsOn n = []) : h.Vacant [n] := by
  intro s session k hg ho hk
  rw [List.mem_singleton] at hk
  subst hk
  unfold sessionsOn at hn
  rw [List.map_eq_nil_iff, List.filter_eq_nil_iff] at hn
  exact hn (s, session) (Table.mem_of_get? hg) (by simpa using ho)

theorem Placed.vacant (hp : h.Placed) {m : ManagerId} {manager : Manager}
    (hm : h.managers[m]? = some manager) (hn : h.sessionsOf m = []) :
    h.Vacant manager.instances := by
  intro s session n hg ho hmem
  unfold sessionsOf at hn
  rw [List.map_eq_nil_iff, List.filter_eq_nil_iff] at hn
  refine hn (s, session) (Table.mem_of_get? hg) ?_
  simp only [ho, Option.bind_some, hp.ownerOf hm hmem, decide_true]

theorem sound_ending (hs : h.Sound) {m : ManagerId} (hn : h.sessionsOf m = [])
    {x : List InstanceId → HostM Unit} (hx : ∀ ns, Within
      (fun h h' => (h.Sound ∧ h.Vacant ns) → (h'.Sound ∧ h'.Vacant ns)) (x ns)) :
    (runOn h (do
      let manager ← getManager m
      x manager.instances)).2.Sound := by
  rcases find_cases (fun h => h.managers[m]?) h with ⟨-, hr⟩ | ⟨manager, hm, hr⟩
  · rw [getManager, runOn_bind_error hr]
    exact hs
  · rw [getManager, runOn_bind_ok hr]
    exact (hx manager.instances h ⟨hs, hs.toPlaced.vacant hm hn⟩).1

theorem keepsSound_createReplica (s : SessionId) (r : Ref) : KeepsSound (createReplica s r) := by
  have hperform (op : Op) : KeepsSound (Host.perform s op) :=
    keepsSound_of_sameBooks (sameBooks_performIn s op)
  refine (within_find _).bind fun session => ?_
  split
  · exact within_throw _
  · rename_i m hm
    refine ((hperform _).bind fun _ => within_settle _).bind fun owned => ?_
    split
    · exact within_throw _
    · refine ((hperform _).bind fun _ => within_settle _).bind fun data => ?_
      refine Within.bind ?_ fun id => ?_
      · intro h hs
        rcases find_cases (fun h => h.managers[m]?) h with ⟨-, hr⟩ | ⟨manager, hm, hr⟩
        · rw [takeObjectId, getManager, runOn_bind_error hr]
          exact hs
        · rw [takeObjectId, getManager, runOn_bind_ok hr]
          refine ⟨?_, ?_⟩
          · exact hs.toPlaced.transfer (fun s session hg => ⟨session, hg, rfl, rfl⟩)
              (fun _ _ _ _ _ => rfl) (Nat.le_refl _) (map_getElem?_set hm rfl) rfl
          · exact hs.toAccounted.transfer (map_getElem?_set hm rfl) rfl rfl rfl
      · intro h hs
        exact ⟨hs.toPlaced.congr rfl rfl rfl rfl, hs.toAccounted.transfer (fun _ => rfl) rfl rfl rfl⟩

theorem keepsSound_setReplica (n : ReplicaId) (r : Replica) : KeepsSound (setReplica n r) :=
  fun _ hs =>
    ⟨hs.toPlaced.congr rfl rfl rfl rfl, hs.toAccounted.transfer (fun _ => rfl) rfl rfl rfl⟩

theorem keepsSound_unloadAll (n : ReplicaId) : KeepsSound (unloadAll n) :=
  (within_find _).bind fun r => (within_find _).bind fun manager =>
    (keepsSound_of_sameBooks (sameBooks_unloadFromEach r manager.instances)).bind fun _ =>
      keepsSound_setReplica n _

theorem keepsSound_unload (n : ReplicaId) (on : Option InstanceId) : KeepsSound (unload n on) := by
  cases on with
  | some home =>
    exact (within_find _).bind fun r => keepsSound_of_sameBooks (sameBooks_unloadFrom r home)
  | none => exact keepsSound_unloadAll n

theorem keepsSound_cloneReplica (n : ReplicaId) : KeepsSound (cloneReplica n) :=
  (within_find _).bind fun _ => (keepsSound_setReplica n _).bind fun _ => within_pure _

theorem keepsSound_dropReplica (n : ReplicaId) : KeepsSound (dropReplica n) := by
  have herase : KeepsSound (modify fun h => { h with replicas := h.replicas.erase n }) :=
    fun _ hs =>
      ⟨hs.toPlaced.congr rfl rfl rfl rfl, hs.toAccounted.transfer (fun _ => rfl) rfl rfl rfl⟩
  refine (within_find _).bind fun r => ?_
  split
  · exact keepsSound_setReplica n _
  · split
    · exact (keepsSound_unloadAll n).ignoring.bind fun _ => herase
    · exact herase

theorem sameBooks_register (m : ManagerId) (name source : String) :
    Within SameBooks (register m name source) :=
  (within_find _).bind fun _ => ((within_find _).bind fun _ => within_find _).bind fun _ _ =>
    ⟨rfl, rfl, rfl, rfl, rfl, rfl, rfl⟩

/-- Every action that can be taken keeps the books in order. -/
theorem Sound.step (hs : h.Sound) {a : Action} (ha : a.Allowed h) : (h.step a).Sound := by
  have hsame (hb : h.SameBooks (h.step a)) : (h.step a).Sound := hs.of_sameBooks hb
  -- An action whose result is lost does what it does with its result.
  have hlost {β : Type} {x : HostM β} (hx : (runOn h x).2.Sound) :
      (runOn h (do let _ ← x)).2.Sound :=
    bind_rel (R := fun h h' => h.Sound → h'.Sound) (fun _ => hx) (fun _ _ _ hs => hs) hs
  cases a with
  | addLoader loader => exact hsame ⟨rfl, rfl, rfl, rfl, rfl, rfl, rfl⟩
  | addSource source => exact hsame ⟨rfl, rfl, rfl, rfl, rfl, rfl, rfl⟩
  | addEnvironment environment => exact hsame ⟨rfl, rfl, rfl, rfl, rfl, rfl, rfl⟩
  | elsewhere machine channels => exact hsame ⟨rfl, rfl, rfl, rfl, rfl, rfl, rfl⟩
  | register m name source => exact hsame (sameBooks_register m name source h)
  | buildManager spec => exact hlost (sound_buildManager hs spec)
  | loadInstance number spec env => exact hlost (keepsSound_loadInstance number spec env h hs)
  | openBalanced m t => exact hlost (sound_openBalanced hs ha m t)
  | openPinned m n => exact hlost (sound_openPinned hs ha m n)
  | openAlone n => exact hlost (sound_openAlone hs ha n)
  | openReplica n on t => exact hlost (sound_openReplica hs ha n on t)
  | closeSession s => exact keepsSound_closeSession s h hs
  | perform s op => exact hlost (hs.of_sameBooks (sameBooks_performIn s op h))
  | setCurrent s r => exact keepsSound_setCurrent s r h hs
  | createReplica s r => exact hlost (keepsSound_createReplica s r h hs)
  | materialize s n => exact hlost (hs.of_sameBooks (sameBooks_materialize s n h))
  | unload n on => exact keepsSound_unload n on h hs
  | cloneReplica n => exact hlost (keepsSound_cloneReplica n h hs)
  | dropReplica n => exact keepsSound_dropReplica n h hs
  | shutdown m =>
    exact sound_ending hs ha.1 fun ns => within_closeInstances fun _ => sound_closeInstance
  | dropManager m =>
    exact sound_ending hs ha.1 fun ns => within_dropInstances fun _ => sound_closeInstance
  | closeInstance n =>
    exact (sound_closeInstance List.mem_cons_self h ⟨hs, vacant_of_sessionsOn ha.2⟩).1
  | dropInstance n =>
    exact (sound_closeInstance List.mem_cons_self h ⟨hs, vacant_of_sessionsOn ha.2⟩).1

/-- The books are in order after every run. -/
theorem sound_after {actions : List Action} (ha : Host.Permits Action.Allowed {} actions) :
    (Host.after {} actions).Sound :=
  after_of_step (fun _ _ hs ha => hs.step ha) sound_empty ha

theorem Sound.loads_ok (hs : h.Sound) {m : ManagerId} {manager : Manager}
    (hm : h.managers[m]? = some manager) :
    ∃ loads, (runOn h (Host.loads m)).1 = .ok loads ∧ loads.length = manager.instances.length ∧
      ∀ slot (hlt : slot < loads.length), (loads[slot]).toNat = h.holders m slot := by
  obtain ⟨b, hb, hsize, hcount⟩ := hs.slots m _ _ (desk_of_manager hm)
  refine ⟨b.loads, ?_, hsize, fun slot hlt => ?_⟩
  · simp only [Host.loads, getManager, runOn_bind, runOn_find, hm, Option.elim, Fleet.loads, hb,
      Option.map_some]
  · have hload : b.load slot = b.loads[slot] := by
      rw [Balancer.load, List.getElem?_eq_getElem hlt]
      rfl
    rw [← hload]
    exact hcount slot (hsize ▸ hlt)

/-- After every run, whatever succeeded and whatever failed in it, and whatever became of the
interpreters, the use counts of a manager's balancer are the numbers of open sessions that hold its
slots. Each of these sessions is on the instance at the position of its slot, sessions that were
opened in another way hold none, and no slot was ever given back that was not in use. -/
theorem loads_eq_holders (actions : List Action) (ha : Host.Permits Action.Allowed {} actions) :
    let h := Host.after {} actions
    (∀ m manager, h.managers[m]? = some manager →
      ∃ loads, (runOn h (Host.loads m)).1 = .ok loads ∧ loads.length = manager.instances.length ∧
        ∀ slot (hlt : slot < loads.length), (loads[slot]).toNat = h.holders m slot) ∧
    (∀ s session m home slot, h.sessions.get? s = some session →
      session.origin = .balanced m home slot →
      ∃ manager i, h.managers[m]? = some manager ∧ manager.instances[slot]? = some home ∧
        h.instances[home]? = some i ∧ i.link = some session.link) ∧
    (∀ s session, h.sessions.get? s = some session →
      (∀ m home slot, session.origin ≠ .balanced m home slot) →
      ∀ m slot, session.holdsSlot m slot = false) ∧
    h.fleet.complaints = [] := by
  intro h
  have hs : h.Sound := sound_after ha
  refine ⟨fun m manager hm => hs.loads_ok hm, ?_, ?_, hs.calm⟩
  · intro s session m home slot hg ho
    obtain ⟨team, ht, hhome⟩ := hs.seated s session m home slot hg ho
    obtain ⟨manager, hm, rfl⟩ := Option.map_eq_some_iff.1 ht
    obtain ⟨i, hi, hl⟩ := hs.linked s session home hg (by rw [ho]; rfl)
    exact ⟨manager, i, hm, hhome, hi, hl⟩
  · intro s session hg ho m slot
    rw [Bool.eq_false_iff]
    intro hholds
    obtain ⟨home, he⟩ := origin_of_holdsSlot hholds
    exact ho m home slot he

end Host

/-- A run in which sessions are opened in every way by two threads. A value is unloaded before it is
asked for again, and at last all interpreters are gone. -/
def Action.busyRun : List Action :=
  [.addSource (.stock { rule := (Stock.simulated 0 none).rule }), .addLoader (.simulated {}),
    .addEnvironment {},
    .buildManager { count := 2, image := { source := 0, loader := 0 }, environment := 0 },
    .openBalanced 0 none, .openBalanced 0 (some "worker"), .openBalanced 0 (some "worker"),
    .openPinned 0 1, .openAlone 0, .perform 0 (.eval "[1]"), .createReplica 0 ⟨⟨3⟩, 0⟩,
    .openReplica 0 none none, .unload 0 none, .openReplica 0 none none, .closeSession 1,
    .elsewhere {} [], .openBalanced 0 none, .openReplica 0 (some 1) none, .closeSession 0]

/-- What is left of that run: one session for each slot, and two that hold none. -/
theorem Host.loads_eq_holders_busy :
    Host.Permits Action.Allowed {} Action.busyRun ∧
      (runOn (Host.after {} Action.busyRun) (Host.loads 0)).1.toOption = some [1, 1] ∧
      (Host.after {} Action.busyRun).holders 0 0 = 1 ∧
      (Host.after {} Action.busyRun).holders 0 1 = 1 ∧
      (Host.after {} Action.busyRun).sessions.size = 4 ∧
      (Host.after {} Action.busyRun).fleet.complaints = [] :=
  have hp : Host.Permits Action.Allowed {} Action.busyRun := by decide +kernel
  ⟨hp, by decide +kernel, by decide +kernel, by decide +kernel, by decide +kernel,
    (Host.loads_eq_holders Action.busyRun hp).2.2.2⟩

end InstancePool
