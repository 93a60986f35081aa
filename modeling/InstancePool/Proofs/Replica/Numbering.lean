import InstancePool.Proofs.Session.ReturnedReferences

/-!
The numbers that managers give to values. A manager begins with zero and goes on by one with each value that
a session of it makes. Nothing else touches its count, whatever happens on the host.
-/

namespace InstancePool

open HostM

namespace Host

/-- Each session is of a manager that there is, or of none. -/
def Employed (h : Host) : Prop :=
  ∀ s session m, h.sessions.get? s = some session → session.origin.manager? = some m →
    m < h.managers.length

/-- From a host to a later one: no manager gave out a number, and those that were added begin with zero. -/
structure Staffs (h h' : Host) : Prop where
  managers : ∃ more, h'.managers = h.managers ++ more ∧ ∀ manager ∈ more, manager.nextObject = 0
  employed : h.Employed → h'.Employed

variable {α : Type} {h h' h₁ h₂ h₃ : Host} {s : SessionId} {m : ManagerId} {manager : Manager}

theorem Staffs.refl (h : Host) : h.Staffs h := ⟨⟨[], (List.append_nil _).symm, nofun⟩, id⟩

theorem Staffs.trans (hs : h₁.Staffs h₂) (hs' : h₂.Staffs h₃) : h₁.Staffs h₃ := by
  obtain ⟨more, hmore, hzero⟩ := hs.managers
  obtain ⟨more', hmore', hzero'⟩ := hs'.managers
  refine ⟨⟨more ++ more', ?_, fun manager hmem => ?_⟩, fun he => hs'.employed (hs.employed he)⟩
  · rw [hmore', hmore, List.append_assoc]
  · exact (List.mem_append.1 hmem).elim (hzero manager) (hzero' manager)

instance : Frame Staffs := ⟨.refl, .trans⟩

/-- The managers are the same, and sessions come from where sessions came from. -/
theorem staffs_of_managers (hm : h'.managers = h.managers)
    (hs : h.Employed → ∀ s session m, h'.sessions.get? s = some session →
      session.origin.manager? = some m → m < h.managers.length) : h.Staffs h' where
  managers := ⟨[], by rw [hm, List.append_nil], nofun⟩
  employed he s session m hg ho := hm ▸ hs he s session m hg ho

theorem staffs_of_same (hm : h'.managers = h.managers) (hs : h'.sessions = h.sessions) : h.Staffs h' :=
  staffs_of_managers hm fun he s session m hg ho => he s session m (hs ▸ hg) ho

theorem SameBooks.staffs (hb : h.SameBooks h') : h.Staffs h' := staffs_of_same hb.managers hb.sessions

theorem Builds.staffs {N : Nat} (hb : h.Builds N h') : h.Staffs h' :=
  staffs_of_same hb.books.managers hb.books.sessions

theorem staffs_of_sameBooks {x : HostM α} (hx : Within SameBooks x) : Within Staffs x :=
  hx.mono fun _ _ hb => hb.staffs

theorem staffs_of_builds {x : HostM α} (hx : Within (BuildsAbove 0) x) : Within Staffs x :=
  hx.mono fun _ _ hb => (hb (Nat.zero_le _)).staffs

/-- A session was added that is of a manager that there is, or of none. -/
theorem SameBooks.staffs_keep (hb : h.SameBooks h₁) {session : Session}
    (hm : ∀ m, session.origin.manager? = some m → m < h.managers.length) :
    h.Staffs (h₁.keep session) := by
  refine staffs_of_managers hb.managers fun he s' other m hg ho => ?_
  rcases Table.get?_insert_eq_some.1 hg with ⟨-, rfl⟩ | ⟨-, hg⟩
  · exact hm m ho
  · exact he s' other m (hb.sessions ▸ hg) ho

theorem lt_of_manager (hm : h.managers[m]? = some manager) : m < h.managers.length :=
  (List.getElem?_eq_some_iff.1 hm).1

theorem staffs_openBare (link : Link) : Within Staffs (openBare link) := by
  intro h
  have hb := sameBooks_openSession link h
  rw [openBare]
  rcases hr : runOn h link.openSession with ⟨e | key, h₁⟩
  · rw [hr] at hb
    rw [runOn_bind_error hr]
    exact hb.staffs
  · rw [hr] at hb
    rw [runOn_bind_ok hr]
    exact hb.staffs_keep nofun

theorem staffs_openAlone (n : InstanceId) : Within Staffs (openAlone n) := by
  intro h
  rcases openAlone_cases (S := fun _ => True) (T := fun _ => True) n h with
    ⟨e, h', hr, hs⟩ | ⟨i, link, key, h', -, -, hs, hr⟩ <;> rw [hr]
  · exact hs.toSameBooks.staffs
  · exact hs.toSameBooks.staffs_keep nofun

theorem staffs_openPinned (m : ManagerId) (n : InstanceId) : Within Staffs (openPinned m n) := by
  intro h
  rcases openPinned_cases (S := fun _ => True) (T := fun _ => True) m n h with
    ⟨e, h', hr, hs⟩ | ⟨manager, i, link, key, h', hm, -, -, -, hs, hr⟩ <;> rw [hr]
  · exact hs.toSameBooks.staffs
  · refine hs.toSameBooks.staffs_keep fun m' he => ?_
    cases he
    exact lt_of_manager hm

theorem staffs_freeSlot (balancer slot : Nat) : Within Staffs (freeSlot balancer slot) := by
  intro h
  obtain ⟨fleet, hr⟩ := freeSlot_eq balancer slot h
  rw [hr]
  exact staffs_of_same rfl rfl

theorem staffs_openBalanced (m : ManagerId) (t : Thread) : Within Staffs (openBalanced m t) := by
  intro h
  rcases openBalanced_cases (S := fun _ => True) (T := fun _ => True) m t h with
    ⟨e, hr⟩ | ⟨manager, slot, fleet, hm, -, ⟨e, h', hr, hs⟩ | ⟨n, i, link, key, h', -, -, -, hs, hr⟩⟩ <;>
    rw [hr]
  · exact .refl h
  · have hfleet : h.Staffs { h with fleet } := staffs_of_same rfl rfl
    exact (hfleet.trans hs.toSameBooks.staffs).trans (staffs_freeSlot _ slot h')
  · have hfleet : h.Staffs { h with fleet } := staffs_of_same rfl rfl
    refine hfleet.trans (hs.toSameBooks.staffs_keep fun m' he => ?_)
    cases he
    exact lt_of_manager hm

theorem staffs_openFor (m : ManagerId) (on : Option InstanceId) (t : Thread) :
    Within Staffs (openFor m on t) := by
  cases on with
  | some n => exact staffs_openPinned m n
  | none => exact staffs_openBalanced m t

theorem staffs_closeSession (s : SessionId) : Within Staffs (closeSession s) := by
  refine (within_find _).bind fun session => Within.bind (fun h => ?_) fun _ => ?_
  · refine staffs_of_managers rfl fun he s' other m hg ho => ?_
    exact he s' other m (Table.get?_erase_eq_some.1 hg).2 ho
  · have hclose : Within Staffs (session.link.closeSession session.key) :=
      staffs_of_sameBooks (sameBooks_closeSession session.link session.key)
    split
    · exact (within_find _).bind fun _ => (staffs_freeSlot _ _).bind fun _ => hclose
    · exact hclose

theorem staffs_setCurrent (s : SessionId) (r : Ref) : Within Staffs (setCurrent s r) := by
  intro h
  rcases find_cases (fun h => h.sessions.get? s) h with ⟨-, hr⟩ | ⟨session, hs, -⟩
  · rw [Host.setCurrent, getSession, runOn_bind_error hr]
    exact .refl h
  · rw [Host.setCurrent, runOn_bind_ok (getSession_ok hs)]
    refine staffs_of_managers rfl fun he s' other m hg ho => ?_
    rcases Table.get?_insert_eq_some.1 hg with ⟨-, rfl⟩ | ⟨-, hg⟩
    · exact he s session m hs ho
    · exact he s' other m hg ho

theorem staffs_attach (n : ReplicaId) (s : SessionId) : Within Staffs (attach n s) :=
  (((staffs_of_sameBooks (sameBooks_materialize s n)).bind fun r => staffs_setCurrent s r).onFailure
    (staffs_closeSession s)).bind fun _ => within_pure s

theorem staffs_openReplica (n : ReplicaId) (on : Option InstanceId) (t : Thread) :
    Within Staffs (openReplica n on t) := by
  rw [openReplica_eq]
  exact (within_find _).bind fun r => (within_requireLoaded r).bind fun _ =>
    (staffs_openFor r.manager on t).bind fun s => staffs_attach n s

theorem staffs_buildManager (spec : ManagerSpec) : Within Staffs (buildManager spec) := by
  intro h
  rcases buildManager_cases spec h with
    ⟨e, h', hr, hb⟩ | ⟨registry, b, h₀, h₁, hs, hload, -, hr⟩ <;> rw [hr]
  · exact hb.staffs
  · have hb := loadMembers_builds spec registry [] 0 spec.count h₀ nofun (Nat.zero_le _)
    rw [hload] at hb
    have hsame := hs.toSameBooks.staffs.trans hb.staffs
    refine hsame.trans ⟨⟨_, rfl, fun manager hmem => ?_⟩, fun he s session m hg ho => ?_⟩
    · cases List.mem_singleton.1 hmem
      rfl
    · rw [List.length_append]
      exact Nat.lt_of_lt_of_le (he s session m hg ho) (Nat.le_add_right _ _)

theorem staffs_unloadAll (n : ReplicaId) : Within Staffs (unloadAll n) :=
  (within_find _).bind fun r => (within_find _).bind fun manager =>
    (staffs_of_sameBooks (sameBooks_unloadFromEach r manager.instances)).bind fun _ _ =>
      staffs_of_same rfl rfl

theorem staffs_dropReplica (n : ReplicaId) : Within Staffs (dropReplica n) := by
  refine (within_find _).bind fun r => ?_
  split
  · exact fun _ => staffs_of_same rfl rfl
  · split
    · exact (staffs_unloadAll n).ignoring.bind fun _ _ => staffs_of_same rfl rfl
    · exact fun _ => staffs_of_same rfl rfl


/-- To ask for what changes no books makes no difference to them. -/
theorem sameBooks_performBool (s : SessionId) (op : Op) : Within SameBooks (performBool s op) :=
  (sameBooks_performIn s op).bind fun _ => within_settle _

theorem sameBooks_performBytes (s : SessionId) (op : Op) : Within SameBooks (performBytes s op) :=
  (sameBooks_performIn s op).bind fun _ => within_settle _

/-- A value is made by a session of a manager, with the next number of that. If none is made, the books
are the same. -/
theorem createReplica_makes (h : Host) (s : SessionId) (o : Ref) :
    (∃ e h', runOn h (createReplica s o) = (.error e, h') ∧ h.SameBooks h') ∨
      ∃ session m manager data h₁, h.sessions.get? s = some session ∧
        session.origin.manager? = some m ∧ h.managers[m]? = some manager ∧ h.SameBooks h₁ ∧
        runOn h (createReplica s o) = (.ok h.nextReplica, { h₁ with
          managers := h.managers.set m { manager with nextObject := manager.nextObject + 1 }
          replicas := h.replicas.insert h.nextReplica { id := ⟨manager.nextObject⟩, data, manager := m }
          nextReplica := h.nextReplica + 1 }) := by
  rcases createReplica_steps (sameBooks_performBool s (.isOwner o))
    (fun receiver => sameBooks_performBytes s (.serialize receiver o)) h with
    ⟨e, h', hr, hb⟩ | ⟨session, m, manager, data, h₀, h₁, hs, horigin, hm, -, -, hb, hr⟩
  · exact .inl ⟨e, h', hr, hb⟩
  · refine .inr ⟨session, m, manager, data, h₁, hs, horigin, hb.managers ▸ hm, hb, ?_⟩
    rw [hr, hb.managers, hb.replicas, hb.nextReplica]

end Host

namespace Deed

/-- How many values of a manager a deed makes. -/
def mints (h : Host) (m : ManagerId) : Deed → Nat
  | act (.createReplica s o) =>
    match (runOn h (Host.createReplica s o)).1 with
    | .ok _ => if (h.sessions.get? s).bind (fun session => session.origin.manager?) = some m then 1 else 0
    | .error _ => 0
  | _ => 0

end Deed

namespace Host

variable {α : Type} {h h' : Host} {m : ManagerId} {d : Deed}

/-- How many values of a manager were made in the course of some deeds. -/
def minted (h : Host) (m : ManagerId) : List Deed → Nat
  | [] => 0
  | d :: deeds => d.mints h m + (h.doing d).minted m deeds

/-- From a host to a later one, with so many values made in between of each manager: its count went up by as
many, and the managers that were added begin with zero. -/
structure Counts (made : ManagerId → Nat) (h h' : Host) : Prop where
  kept : ∀ m manager, h.managers[m]? = some manager → ∃ manager' : Manager,
    h'.managers[m]? = some manager' ∧ manager'.nextObject = manager.nextObject + UInt64.ofNat (made m)
  added : ∀ m, h.managers[m]? = none →
    made m = 0 ∧ ∀ manager', h'.managers[m]? = some manager' → manager'.nextObject = 0
  employed : h.Employed → h'.Employed

theorem Staffs.counts {made : ManagerId → Nat} (hs : h.Staffs h') (hz : ∀ m, made m = 0) :
    h.Counts made h' := by
  obtain ⟨more, hmore, hzero⟩ := hs.managers
  refine ⟨fun m manager hm => ⟨manager, ?_, ?_⟩, fun m hm => ⟨hz m, fun manager' hm' => ?_⟩, hs.employed⟩
  · rw [hmore, List.getElem?_append_left (lt_of_manager hm), hm]
  · rw [hz]
    exact (UInt64.add_zero _).symm
  · rw [hmore, List.getElem?_append_right (List.getElem?_eq_none_iff.1 hm)] at hm'
    exact hzero manager' (List.mem_of_getElem? hm')

theorem doing_createReplica (h : Host) (s : SessionId) (o : Ref) :
    h.doing (.act (.createReplica s o)) = (runOn h (createReplica s o)).2 :=
  runOn_lost h (createReplica s o)

/-- A session's attempt to make a value counts if it succeeds. -/
theorem counts_createReplica (h : Host) (s : SessionId) (o : Ref) :
    h.Counts ((Deed.act (.createReplica s o)).mints h) (runOn h (createReplica s o)).2 := by
  rcases createReplica_makes h s o with
    ⟨e, h', hr, hb⟩ | ⟨session, m, manager, data, h₁, hs, ho, hm, hb, hr⟩
  · rw [hr]
    exact hb.staffs.counts fun m => by simp only [Deed.mints, hr]
  -- The value counts for the manager of the session, which numbers it.
  have hmints (m' : ManagerId) :
      (Deed.act (.createReplica s o)).mints h m' = if m' = m then 1 else 0 := by
    simp only [Deed.mints, hr, hs, Option.bind_some, ho, Option.some.injEq, eq_comm]
  rw [hr]
  refine ⟨fun m' manager' hm' => ?_, fun m' hm' => ⟨?_, fun manager' hset => ?_⟩,
    fun he s' other m' hg ho' => ?_⟩
  · by_cases hne : m' = m
    · subst hne
      obtain rfl := Option.some.inj (hm.symm.trans hm')
      refine ⟨_, List.getElem?_set_self (lt_of_manager hm), ?_⟩
      rw [hmints, if_pos rfl]
      rfl
    · refine ⟨manager', by rw [List.getElem?_set_ne (Ne.symm hne), hm'], ?_⟩
      rw [hmints, if_neg hne]
      exact (UInt64.add_zero _).symm
  · rw [hmints, if_neg]
    rintro rfl
    rw [hm] at hm'
    cases hm'
  · have hle := List.getElem?_eq_none_iff.1 hm'
    rw [List.getElem?_eq_none (by rwa [List.length_set])] at hset
    cases hset
  · rw [List.length_set]
    exact he s' other m' (hb.sessions ▸ hg) ho'

/-- No other action gives out a number. -/
theorem staffs_run {a : Action} (ha : (Deed.act a).Told) (hc : ∀ s o, a ≠ .createReplica s o) :
    Within Staffs a.run := by
  cases a with
  | addLoader | addSource | addEnvironment => exact fun _ => staffs_of_same rfl rfl
  | buildManager spec => exact (staffs_buildManager spec).lost
  | loadInstance number spec env => exact (staffs_of_builds (builds_loadInstance number spec env)).lost
  | register m name source => exact staffs_of_sameBooks (sameBooks_register m name source)
  | openBalanced m t => exact (staffs_openBalanced m t).lost
  | openPinned m n => exact (staffs_openPinned m n).lost
  | openAlone n => exact (staffs_openAlone n).lost
  | openReplica n on t => exact (staffs_openReplica n on t).lost
  | closeSession s => exact staffs_closeSession s
  | perform s op => exact (staffs_of_sameBooks (sameBooks_performIn s op)).lost
  | setCurrent s r => exact staffs_setCurrent s r
  | createReplica s o => exact absurd rfl (hc s o)
  | materialize s n => exact (staffs_of_sameBooks (sameBooks_materialize s n)).lost
  | unload n on =>
    cases on with
    | some home => exact (within_find _).bind fun r => staffs_of_sameBooks (sameBooks_unloadFrom r home)
    | none => exact staffs_unloadAll n
  | cloneReplica n =>
    exact Within.lost ((within_find _).bind fun _ =>
      Within.bind (fun _ => staffs_of_same rfl rfl) fun _ => within_pure _)
  | dropReplica n => exact staffs_dropReplica n
  | shutdown m =>
    exact (within_find _).bind fun _ => staffs_of_builds (builds_closeInstances fun _ _ => Nat.zero_le _)
  | dropManager m =>
    exact (within_find _).bind fun _ => staffs_of_builds (builds_dropInstances fun _ _ => Nat.zero_le _)
  | closeInstance n => exact staffs_of_builds (builds_closeInstance (Nat.zero_le n))
  | dropInstance n => exact (staffs_of_builds (builds_closeInstance (Nat.zero_le n))).ignoring
  | elsewhere m cs => exact ha.elim

theorem staffs_onChannel (c : Nat) (f : ChannelStep α) : Within Staffs (onChannel c f) := by
  intro h
  unfold onChannel
  rw [runOn_of]
  split <;> exact staffs_of_same rfl rfl

/-- Every deed counts the values that it makes. -/
theorem counts_doing (hd : d.Told) : h.Counts (d.mints h) (h.doing d) := by
  have hnone (hs : Within Staffs d.run) (hz : ∀ m, d.mints h m = 0) : h.Counts (d.mints h) (h.doing d) :=
    (hs h).counts hz
  cases d with
  | act a =>
    by_cases hc : ∃ s o, a = .createReplica s o
    · obtain ⟨s, o, rfl⟩ := hc
      rw [doing_createReplica]
      exact counts_createReplica h s o
    · refine hnone (staffs_run hd fun s o he => hc ⟨s, o, he⟩) fun m => ?_
      cases a with
      | createReplica s o => exact absurd ⟨s, o, rfl⟩ hc
      | _ => rfl
  | addInterp | exportInterp | addScript | installAnswers =>
    exact hnone (fun _ => staffs_of_same rfl rfl) fun _ => rfl
  | openBare link => exact hnone (staffs_openBare link).lost fun _ => rfl
  | setResolver link r =>
    refine hnone (fun h => ?_) fun _ => rfl
    exact (link.within_setResolver (S := fun _ => True) (T := fun _ => True) r h).toSameBooks.staffs
  | finalize link =>
    refine hnone (fun h => ?_) fun _ => rfl
    exact (Link.spares_finalize (S := fun _ => False) (T := fun _ => False) (fun _ _ => id)
      fun _ _ => id).toSameBooks.staffs
  | dispatch c bytes => exact hnone (staffs_onChannel c _).lost fun _ => rfl
  | finalizeImage c => exact hnone (staffs_onChannel c _).lost fun _ => rfl

/-- Each manager is at the number of its next value, and each session is of a manager that there is. -/
structure Numbering (made : ManagerId → Nat) (h : Host) : Prop where
  next : ∀ m manager, h.managers[m]? = some manager → manager.nextObject = UInt64.ofNat (made m)
  absent : ∀ m, h.managers[m]? = none → made m = 0
  employed : h.Employed

theorem numbering_empty : Numbering (fun _ => 0) {} := ⟨nofun, fun _ _ => rfl, nofun⟩

theorem Numbering.counts {made more : ManagerId → Nat} (hn : h.Numbering made) (hc : h.Counts more h') :
    h'.Numbering (fun m => made m + more m) where
  next m manager' hm' := by
    cases hm : h.managers[m]? with
    | none =>
      obtain ⟨hmore, hzero⟩ := hc.added m hm
      rw [hzero manager' hm', hn.absent m hm, hmore]
      rfl
    | some manager =>
      obtain ⟨manager'', hm'', hnext⟩ := hc.kept m manager hm
      obtain rfl := Option.some.inj (hm'.symm.trans hm'')
      rw [hnext, hn.next m manager hm, UInt64.ofNat_add]
  absent m hm' := by
    cases hm : h.managers[m]? with
    | none => rw [hn.absent m hm, (hc.added m hm).1]
    | some manager =>
      obtain ⟨manager', hm'', -⟩ := hc.kept m manager hm
      rw [hm'] at hm''
      cases hm''
  employed := hc.employed hn.employed

theorem Numbering.afterDeeds {made : ManagerId → Nat} {deeds : List Deed} (hn : h.Numbering made)
    (hd : ∀ d ∈ deeds, d.Told) : (h.afterDeeds deeds).Numbering (fun m => made m + h.minted m deeds) := by
  induction deeds generalizing h made with
  | nil => exact hn
  | cons d deeds ih =>
    have hfirst := hn.counts (counts_doing (hd d List.mem_cons_self))
    have hrest := ih hfirst fun d' hmem => hd d' (List.mem_cons_of_mem _ hmem)
    simp only [Nat.add_assoc] at hrest
    exact hrest

end Host

end InstancePool
