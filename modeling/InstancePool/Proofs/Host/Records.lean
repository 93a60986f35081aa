import InstancePool.Proofs.Instance.LoadFrame

/-!
What the actions of a host write into its books.
-/

namespace InstancePool

open HostM

/-- Instances from `N` on come and go; the rest of the books is the same. -/
structure Host.Builds (N : Nat) (h h' : Host) : Prop where
  books : h.SameBooks { h' with instances := h.instances }
  length_le : h.instances.length ≤ h'.instances.length
  below : ∀ n < N, h'.instances[n]? = h.instances[n]?

/-- The host with one more session. -/
def Host.keep (h : Host) (s : Session) : Host :=
  { h with sessions := h.sessions.insert h.nextSession s, nextSession := h.nextSession + 1 }

namespace Host

variable {α : Type} {N : Nat} {S T : Nat → Prop} {h h₁ h₂ h₃ : Host}

theorem Builds.refl (h : Host) : h.Builds N h := ⟨.refl h, Nat.le_refl _, fun _ _ => rfl⟩

theorem Builds.trans (hb : h₁.Builds N h₂) (hb' : h₂.Builds N h₃) : h₁.Builds N h₃ where
  books :=
    { instances := rfl
      managers := hb'.books.managers.trans hb.books.managers
      fleet := hb'.books.fleet.trans hb.books.fleet
      sessions := hb'.books.sessions.trans hb.books.sessions
      nextSession := hb'.books.nextSession.trans hb.books.nextSession
      replicas := hb'.books.replicas.trans hb.books.replicas
      nextReplica := hb'.books.nextReplica.trans hb.books.nextReplica }
  length_le := Nat.le_trans hb.length_le hb'.length_le
  below n hn := (hb'.below n hn).trans (hb.below n hn)

theorem SameBooks.builds (hb : h₁.SameBooks h₂) : h₁.Builds N h₂ where
  books := { hb with instances := rfl }
  length_le := Nat.le_of_eq (by rw [hb.instances])
  below _ _ := by rw [hb.instances]

/-- Building starts where the instances end. -/
def BuildsAbove (N : Nat) (h h' : Host) : Prop := N ≤ h.instances.length → h.Builds N h'

instance : Frame (Builds N) where
  refl := .refl
  trans := .trans

instance : Frame (BuildsAbove N) where
  refl h _ := .refl h
  trans hb hb' hn := (hb hn).trans (hb' (Nat.le_trans hn (hb hn).length_le))

theorem SparesBelow.sameBooks (hs : h₁.SparesBelow 0 0 h₂) : h₁.SameBooks h₂ :=
  (hs ⟨Nat.zero_le _, Nat.zero_le _, fun _ _ _ _ _ => Nat.zero_le _⟩).2.toSameBooks

end Host

namespace Instance

open Host

theorem sameBooks_load (number : Nat) (spec : ImageSpec) (env : EnvironmentId) :
    Within SameBooks (Instance.load number spec env) :=
  (below_load number spec env).mono fun _ _ => SparesBelow.sameBooks

theorem sameBooks_close (i : Instance) : Within SameBooks i.close := by
  refine (below_close fun l _ => ?_).mono fun _ _ => SparesBelow.sameBooks
  cases l <;> exact Nat.zero_le _

theorem within_withSession {R : Host → Host → Prop} [Frame R] {α : Type} {i : Instance}
    {f : Link → SessionKey → HostM α} (ho : ∀ l : Link, Within R l.openSession)
    (hc : ∀ (l : Link) key, Within R (l.closeSession key)) (hf : ∀ l key, Within R (f l key)) :
    Within R (i.withSession f) := by
  unfold withSession
  split
  · exact within_throw _
  · rename_i link hl
    exact Link.within_withSession (ho link) (hc link) (hf link)

theorem within_adopt {S T : Nat → Prop} (registry : Nat) (i : Instance) :
    Within (Host.Spares S T) (i.adopt registry) := by
  refine Within.bind ?_ fun _ => ?_
  · refine within_withSession Link.within_openSession
      (fun l key => l.within_closeSession key) fun l key => ?_
    exact (Link.within_performRef rfl l).bind fun version =>
      (Link.within_performRef rfl l).bind fun number =>
        (Link.within_perform rfl l).bind fun _ => within_pure _
  · unfold setResolver
    split
    · exact within_throw _
    · rename_i link hl
      exact link.within_setResolver _

end Instance

namespace Host

variable {N : Nat}

theorem builds_addInstance (i : Instance) : Within (BuildsAbove N) (addInstance i) := by
  intro h hn
  refine ⟨⟨rfl, rfl, rfl, rfl, rfl, rfl, rfl⟩, ?_, fun n hlt => ?_⟩
  · simp only [addInstance, runOn_of, List.length_append]
    omega
  · simp only [addInstance, runOn_of]
    rw [List.getElem?_append_left (by omega)]

theorem builds_of_sameBooks {α : Type} {x : HostM α} (hx : Within SameBooks x) :
    Within (BuildsAbove N) x :=
  hx.mono fun _ _ hb _ => hb.builds

theorem builds_closeInstance {n : InstanceId} (hn : N ≤ n) :
    Within (BuildsAbove N) (closeInstance n) := by
  refine (within_find _).bind fun i => Within.bind ?_ fun _ =>
    builds_of_sameBooks i.sameBooks_close
  intro h _
  refine ⟨⟨rfl, rfl, rfl, rfl, rfl, rfl, rfl⟩, ?_, fun k hk => ?_⟩
  · simp only [runOn_modify, List.length_set]
    exact Nat.le_refl _
  · simp only [runOn_modify]
    rw [List.getElem?_set_ne (by omega)]

/-- Whatever holds of closing each of some instances holds of closing all of them, and of dropping
them. -/
theorem within_closeInstances {R : Host → Host → Prop} [Frame R] {ns : List InstanceId}
    (hn : ∀ n ∈ ns, Within R (closeInstance n)) : Within R (closeInstances ns) := by
  induction ns with
  | nil => exact within_pure _
  | cons n ns ih =>
    have hfirst := hn n List.mem_cons_self
    have hrest := ih fun k hk => hn k (List.mem_cons_of_mem n hk)
    exact hfirst.outcome.bind fun _ => hrest.outcome.bind fun _ =>
      (within_settle _).bind fun _ => within_settle _

theorem within_dropInstances {R : Host → Host → Prop} [Frame R] {ns : List InstanceId}
    (hn : ∀ n ∈ ns, Within R (closeInstance n)) : Within R (dropInstances ns) := by
  induction ns with
  | nil => exact within_pure _
  | cons n ns ih =>
    have hfirst := hn n List.mem_cons_self
    exact hfirst.ignoring.bind fun _ => ih fun k hk => hn k (List.mem_cons_of_mem n hk)

theorem builds_closeInstances {ns : List InstanceId} (hn : ∀ n ∈ ns, N ≤ n) :
    Within (BuildsAbove N) (closeInstances ns) :=
  within_closeInstances fun n hmem => builds_closeInstance (hn n hmem)

theorem builds_dropInstances {ns : List InstanceId} (hn : ∀ n ∈ ns, N ≤ n) :
    Within (BuildsAbove N) (dropInstances ns) :=
  within_dropInstances fun n hmem => builds_closeInstance (hn n hmem)

theorem builds_loadMember (spec : ManagerSpec) (registry number : Nat) :
    Within (BuildsAbove N) (loadMember spec registry number) := by
  refine (builds_of_sameBooks (Instance.sameBooks_load _ _ _)).bind fun i => ?_
  have hadopt : Within SameBooks (i.adopt registry) :=
    (i.within_adopt (S := fun _ => True) (T := fun _ => True) registry).mono
      fun _ _ hs => hs.toSameBooks
  exact (builds_of_sameBooks (hadopt.onFailure i.sameBooks_close.ignoring)).bind fun _ =>
    builds_addInstance i

theorem builds_loadInstance (number : Nat) (spec : ImageSpec) (env : EnvironmentId) :
    Within (BuildsAbove N) (loadInstance number spec env) :=
  (builds_of_sameBooks (Instance.sameBooks_load _ _ _)).bind fun i => builds_addInstance i

/-- The instance of a member comes last. -/
theorem loadMember_ok {spec : ManagerSpec} {registry number : Nat} {h h' : Host} {n : InstanceId}
    (hr : runOn h (loadMember spec registry number) = (.ok n, h')) :
    n = h.instances.length ∧ h'.instances.length = h.instances.length + 1 := by
  obtain ⟨i, h₁, hload, hr⟩ := bind_ok hr
  obtain ⟨_, h₂, hadopt, hr⟩ := bind_ok hr
  have hb₁ := (Instance.sameBooks_load _ _ _).of_eq hload
  have hb₂ := (i.within_adopt (S := fun _ => True) (T := fun _ => True) registry).of_eq
    (onFailure_ok hadopt)
  have hi : h₂.instances = h.instances := hb₂.instances.trans hb₁.instances
  cases hr
  exact ⟨congrArg List.length hi, by rw [List.length_append, hi]; rfl⟩

/-- Loading members either gives them the next numbers, or leaves nothing new in the books but
instances that are torn down. -/
theorem loadMembers_builds (spec : ManagerSpec) (registry : Nat) (loaded : List InstanceId)
    (number count : Nat) (h : Host) (hl : ∀ n ∈ loaded, N ≤ n) (hn : N ≤ h.instances.length) :
    h.Builds N (runOn h (loadMembers spec registry loaded number count)).2 := by
  induction count generalizing loaded number h with
  | zero => exact .refl h
  | succ count ih =>
    refine bind_rel ?_ fun n h' hr => ?_
    · exact ((builds_loadMember _ _ _).onFailure (builds_dropInstances hl)) h hn
    · have hb := (builds_loadMember spec registry number).of_eq (onFailure_ok hr) hn
      obtain ⟨rfl, -⟩ := loadMember_ok (onFailure_ok hr)
      refine ih _ _ h' (fun k hk => ?_) (Nat.le_trans hn hb.length_le)
      rcases List.mem_append.1 hk with hk | hk
      · exact hl k hk
      · rw [List.mem_singleton] at hk
        rw [hk]
        exact hn

theorem loadMembers_ok {spec : ManagerSpec} {registry : Nat} {loaded ns : List InstanceId}
    {number count : Nat} {h h' : Host}
    (hr : runOn h (loadMembers spec registry loaded number count) = (.ok ns, h')) :
    ns = loaded ++ List.range' h.instances.length count ∧
      h'.instances.length = h.instances.length + count := by
  induction count generalizing loaded number h with
  | zero =>
    cases hr
    exact ⟨(List.append_nil _).symm, rfl⟩
  | succ count ih =>
    obtain ⟨n, h₁, hm, hr⟩ := bind_ok hr
    obtain ⟨rfl, hlen⟩ := loadMember_ok (onFailure_ok hm)
    obtain ⟨rfl, hlen'⟩ := ih hr
    rw [hlen] at hlen' ⊢
    refine ⟨?_, by omega⟩
    rw [List.append_assoc, List.range'_succ]
    rfl

/-- With at least one member there is a balancer for them. -/
theorem addBalancer_ok {n : Nat} (hn : n ≠ 0) (h : Host) :
    ∃ b : Balancer, Balancer.create n = .ok b ∧ b.loads = List.replicate n 0 ∧
      runOn h (addBalancer n) = (.ok h.fleet.balancers.length, { h with
        fleet := { h.fleet with balancers := h.fleet.balancers ++ [b] } }) := by
  have hcreate : Balancer.create n = .ok ⟨List.replicate n 0,
      fun e => hn ((List.replicate_eq_nil_iff _).1 e)⟩ := dif_neg hn
  refine ⟨_, hcreate, rfl, ?_⟩
  simp only [addBalancer, runOn_of, Fleet.add, hcreate]
  rfl

/-- A manager is started, or all that is new are instances that are torn down. -/
theorem buildManager_cases (spec : ManagerSpec) (h : Host) :
    (∃ e h', runOn h (buildManager spec) = (.error e, h') ∧ h.Builds h.instances.length h') ∨
      ∃ registry b h₀ h₁, h.Spares (fun _ => True) (fun _ => True) h₀ ∧
        runOn h₀ (loadMembers spec registry [] 0 spec.count) =
          (.ok (List.range' h.instances.length spec.count), h₁) ∧
        Balancer.create spec.count = .ok b ∧
        runOn h (buildManager spec) = (.ok h₁.managers.length, { h₁ with
          fleet := { h₁.fleet with balancers := h₁.fleet.balancers ++ [b] }
          managers := h₁.managers ++ [{
            instances := List.range' h.instances.length spec.count
            registry
            balancer := h₁.fleet.balancers.length
            environment := spec.environment }] }) := by
  unfold buildManager
  by_cases hc : spec.count = 0
  · exact .inl ⟨_, h, by rw [if_pos hc]; rfl, .refl h⟩
  · rw [if_neg hc]
    -- The registry comes first. It stays when the members cannot be loaded.
    obtain ⟨h₀, hr, hs⟩ : ∃ h₀, runOn h (addRegistry (Registry.create spec.modules)) =
        (.ok h.registries.length, h₀) ∧ h.Spares (fun _ => True) (fun _ => True) h₀ :=
      ⟨_, rfl, SameBooks.spares ⟨rfl, rfl, rfl, rfl, rfl, rfl, rfl⟩ (.refl _) rfl⟩
    rw [runOn_bind_ok hr]
    have hn : h.instances.length ≤ h₀.instances.length := Nat.le_of_eq (by rw [hs.instances])
    have hb := loadMembers_builds spec h.registries.length [] 0 spec.count h₀ nofun hn
    rcases hm : runOn h₀ (loadMembers spec h.registries.length [] 0 spec.count) with ⟨e | ns, h₁⟩
    · rw [hm] at hb
      exact .inl ⟨e, h₁, runOn_bind_error hm _, hs.toSameBooks.builds.trans hb⟩
    · obtain ⟨rfl, -⟩ := loadMembers_ok hm
      obtain ⟨b, hcreate, -, hbal⟩ := addBalancer_ok hc h₁
      refine .inr ⟨h.registries.length, b, h₀, h₁, hs, ?_, hcreate, ?_⟩
      · rw [hm, hs.instances, List.nil_append]
      · rw [runOn_bind_ok hm, hs.instances, List.nil_append, runOn_bind_ok hbal]
        rfl

theorem getSession_ok {s : SessionId} {session : Session} {h : Host}
    (hs : h.sessions.get? s = some session) : runOn h (getSession s) = (.ok session, h) := by
  simp only [getSession, runOn_find, hs, Option.elim]

theorem getManager_ok {m : ManagerId} {manager : Manager} {h : Host}
    (hm : h.managers[m]? = some manager) : runOn h (getManager m) = (.ok manager, h) := by
  simp only [getManager, runOn_find, hm, Option.elim]

theorem getReplica_ok {k : ReplicaId} {r : Replica} {h : Host} (hr : h.replicas.get? k = some r) :
    runOn h (getReplica k) = (.ok r, h) := by
  simp only [getReplica, runOn_find, hr, Option.elim]

theorem getReplica_none {k : ReplicaId} {h : Host} (hr : h.replicas.get? k = none) :
    runOn h (getReplica k) = (.error .unknownHandle, h) := by
  simp only [getReplica, runOn_find, hr, Option.elim]

theorem requireLoaded_ok {r : Replica} (hu : r.unloaded = false) (h : Host) :
    runOn h (requireLoaded r) = (.ok (), h) := by
  rw [requireLoaded, if_neg (by rw [hu]; exact Bool.false_ne_true)]
  rfl

theorem requireLoaded_unloaded {r : Replica} (hu : r.unloaded = true) (h : Host) :
    runOn h (requireLoaded r) = (.error (.objectNotFound r.id), h) := by
  rw [requireLoaded, if_pos hu]
  rfl

/-- What a session performs is performed through its link. -/
theorem runOn_perform {s : SessionId} {session : Session} {h : Host}
    (hs : h.sessions.get? s = some session) (op : Op) :
    runOn h (perform s op) = runOn h (session.link.perform session.key op) := by
  rw [perform, runOn_bind_ok (getSession_ok hs)]

/-- A value is made of what two operations of the session say. Up to there a relation holds that both of them
keep to, and then the value gets the next numbers of the host and of the manager. -/
theorem createReplica_steps {R : Host → Host → Prop} [Frame R] {s : SessionId} {o : Ref}
    (hasks : Within R (performBool s (.isOwner o)))
    (hwrites : ∀ receiver, Within R (performBytes s (.serialize receiver o))) (h : Host) :
    (∃ e h', runOn h (createReplica s o) = (.error e, h') ∧ R h h') ∨
      ∃ session m manager data h₀ h₁, h.sessions.get? s = some session ∧
        session.origin.manager? = some m ∧ h₁.managers[m]? = some manager ∧
        runOn h (performBool s (.isOwner o)) = (.ok true, h₀) ∧
        runOn h₀ (performBytes s (.serialize session.current o)) = (.ok data, h₁) ∧ R h h₁ ∧
        runOn h (createReplica s o) = (.ok h₁.nextReplica, { h₁ with
          managers := h₁.managers.set m { manager with nextObject := manager.nextObject + 1 }
          replicas := h₁.replicas.insert h₁.nextReplica
            { id := ⟨manager.nextObject⟩, data, manager := m }
          nextReplica := h₁.nextReplica + 1 }) := by
  unfold createReplica
  rcases find_cases (fun h => h.sessions.get? s) h with ⟨-, hr⟩ | ⟨session, hsession, hr⟩
  · rw [getSession, runOn_bind_error hr]
    exact .inl ⟨_, h, rfl, Frame.refl h⟩
  rw [getSession, runOn_bind_ok hr]
  split
  · exact .inl ⟨_, h, rfl, Frame.refl h⟩
  rename_i m horigin
  rcases howner : runOn h (performBool s (.isOwner o)) with ⟨e | owner, h₀⟩
  · exact .inl ⟨e, h₀, runOn_bind_error howner _, hasks.of_eq howner⟩
  have hasked : R h h₀ := hasks.of_eq howner
  rw [runOn_bind_ok howner]
  cases owner with
  | false => exact .inl ⟨_, h₀, rfl, hasked⟩
  | true =>
    simp only [not_true_eq_false, if_false]
    -- Until the data is there nothing was numbered.
    rcases hdata : runOn h₀ (performBytes s (.serialize session.current o)) with ⟨e | data, h₁⟩
    · exact .inl ⟨e, h₁, runOn_bind_error hdata _, Frame.trans hasked ((hwrites _).of_eq hdata)⟩
    have hwritten : R h h₁ := Frame.trans hasked ((hwrites _).of_eq hdata)
    rw [runOn_bind_ok hdata, takeObjectId, bind_assoc]
    rcases find_cases (fun h => h.managers[m]?) h₁ with ⟨-, hr⟩ | ⟨manager, hm, hr⟩
    · exact .inl ⟨.unknownHandle, h₁, runOn_bind_error hr _, hwritten⟩
    · refine .inr ⟨session, m, manager, data, h₀, h₁, hsession, horigin, hm, rfl, hdata, hwritten, ?_⟩
      rw [getManager, runOn_bind_ok hr]
      rfl

theorem requireOwned_cases (m : ManagerId) (n : InstanceId) (h : Host) :
    (∃ e, runOn h (requireOwned m n) = (.error e, h)) ∨
      ∃ manager, h.managers[m]? = some manager ∧ n ∈ manager.instances ∧
        runOn h (requireOwned m n) = (.ok (), h) := by
  unfold requireOwned owns getManager
  rcases find_cases (fun h => h.managers[m]?) h with ⟨-, hr⟩ | ⟨manager, hm, hr⟩
  · exact .inl ⟨.unknownHandle, by simp only [runOn_bind, hr]⟩
  · by_cases hn : n ∈ manager.instances
    · refine .inr ⟨manager, hm, hn, ?_⟩
      simp only [runOn_bind, hr, runOn_pure, List.contains_iff_mem, hn, not_true, if_false]
    · refine .inl ⟨.usage .foreignInstance, ?_⟩
      simp only [runOn_bind, hr, runOn_pure, List.contains_iff_mem, hn, not_false_eq_true, if_true,
        runOn_throw]

end Host

namespace Instance

open Host

variable {S T : Nat → Prop}

theorem openSession_cases (i : Instance) (h : Host) :
    (∃ e h', runOn h i.openSession = (.error e, h') ∧ h.Spares S T h') ∨
      ∃ link key h', i.link = some link ∧ h.Spares S T h' ∧
        runOn h i.openSession = (.ok (link, key), h') := by
  unfold openSession
  cases hl : i.link with
  | none => exact .inl ⟨.closed, h, rfl, .refl h⟩
  | some link =>
    have hs := link.within_openSession (S := S) (T := T) h
    rcases hr : runOn h link.openSession with ⟨e | key, h'⟩
    · rw [hr] at hs
      exact .inl ⟨e, h', runOn_bind_error hr _, hs⟩
    · rw [hr] at hs
      exact .inr ⟨link, key, h', rfl, hs, runOn_bind_ok hr _⟩

end Instance

namespace Host

variable {S T : Nat → Prop}

/-- Opening a session on an instance that is known. -/
theorem openOn_cases (n : InstanceId) (origin : Origin) (h : Host) :
    (∃ e h', runOn h (do
        let i ← getInstance n
        let (link, key) ← i.openSession
        addSession { link, key, origin }) = (.error e, h') ∧ h.Spares S T h') ∨
      ∃ i link key h', h.instances[n]? = some i ∧ i.link = some link ∧ h.Spares S T h' ∧
        runOn h (do
          let i ← getInstance n
          let (link, key) ← i.openSession
          addSession { link, key, origin }) =
            (.ok h'.nextSession, h'.keep { link, key, origin }) := by
  rcases find_cases (fun h => h.instances[n]?) h with ⟨-, hr⟩ | ⟨i, hi, hr⟩
  · exact .inl ⟨_, h, runOn_bind_error hr _, .refl h⟩
  · rw [getInstance, runOn_bind_ok hr]
    rcases i.openSession_cases (S := S) (T := T) h with ⟨e, h', ho, hs⟩ | ⟨link, key, h', hl, hs, ho⟩
    · exact .inl ⟨e, h', runOn_bind_error ho _, hs⟩
    · exact .inr ⟨i, link, key, h', hi, hl, hs, runOn_bind_ok ho _⟩

theorem openAlone_cases (n : InstanceId) (h : Host) :
    (∃ e h', runOn h (openAlone n) = (.error e, h') ∧ h.Spares S T h') ∨
      ∃ i link key h', h.instances[n]? = some i ∧ i.link = some link ∧ h.Spares S T h' ∧
        runOn h (openAlone n) =
          (.ok h'.nextSession, h'.keep { link, key, origin := .alone n }) :=
  openOn_cases n (.alone n) h

theorem openPinned_cases (m : ManagerId) (n : InstanceId) (h : Host) :
    (∃ e h', runOn h (openPinned m n) = (.error e, h') ∧ h.Spares S T h') ∨
      ∃ manager i link key h', h.managers[m]? = some manager ∧ n ∈ manager.instances ∧
        h.instances[n]? = some i ∧ i.link = some link ∧ h.Spares S T h' ∧
        runOn h (openPinned m n) =
          (.ok h'.nextSession, h'.keep { link, key, origin := .pinned m n }) := by
  unfold openPinned
  rcases requireOwned_cases m n h with ⟨e, hr⟩ | ⟨manager, hm, hn, hr⟩
  · exact .inl ⟨e, h, runOn_bind_error hr _, .refl h⟩
  · rw [runOn_bind_ok hr]
    rcases openOn_cases (S := S) (T := T) n (.pinned m n) h with
      ho | ⟨i, link, key, h', hi, hl, hs, ho⟩
    · exact .inl ho
    · exact .inr ⟨manager, i, link, key, h', hm, hn, hi, hl, hs, ho⟩

theorem openSlot_cases (instances : List InstanceId) (slot : Nat) (origin : InstanceId → Origin)
    (h : Host) :
    (∃ e h', runOn h (do
        let n ← find fun _ => instances[slot]?
        let i ← getInstance n
        let (link, key) ← i.openSession
        addSession { link, key, origin := origin n }) = (.error e, h') ∧ h.Spares S T h') ∨
      ∃ n i link key h', instances[slot]? = some n ∧ h.instances[n]? = some i ∧
        i.link = some link ∧ h.Spares S T h' ∧
        runOn h (do
          let n ← find fun _ => instances[slot]?
          let i ← getInstance n
          let (link, key) ← i.openSession
          addSession { link, key, origin := origin n }) =
            (.ok h'.nextSession, h'.keep { link, key, origin := origin n }) := by
  rcases find_cases (fun _ => instances[slot]?) h with ⟨hn, hr⟩ | ⟨n, hn, hr⟩
  · exact .inl ⟨_, h, runOn_bind_error hr _, .refl h⟩
  · rw [runOn_bind_ok hr]
    rcases openOn_cases (S := S) (T := T) n (origin n) h with
      ho | ⟨i, link, key, h', hi, hl, hs, ho⟩
    · exact .inl ho
    · exact .inr ⟨n, i, link, key, h', hn, hi, hl, hs, ho⟩

/-- A slot is taken first. If no session can be opened, it is given back. -/
theorem openBalanced_cases (m : ManagerId) (t : Thread) (h : Host) :
    (∃ e, runOn h (openBalanced m t) = (.error e, h)) ∨
      ∃ manager slot fleet, h.managers[m]? = some manager ∧
        h.fleet.acquire manager.balancer t = some (slot, fleet) ∧
        ((∃ e h', runOn h (openBalanced m t) =
            (.error e, (runOn h' (freeSlot manager.balancer slot)).2) ∧
            { h with fleet }.Spares S T h') ∨
          ∃ n i link key h', manager.instances[slot]? = some n ∧ h.instances[n]? = some i ∧
            i.link = some link ∧ { h with fleet }.Spares S T h' ∧
            runOn h (openBalanced m t) =
              (.ok h'.nextSession, h'.keep { link, key, origin := .balanced m n slot })) := by
  unfold openBalanced getManager
  rcases find_cases (fun h => h.managers[m]?) h with ⟨-, hr⟩ | ⟨manager, hm, hr⟩
  · exact .inl ⟨_, runOn_bind_error hr _⟩
  · rw [runOn_bind_ok hr]
    rcases acquireSlot_cases manager.balancer t h with ⟨-, hacquire⟩ | ⟨slot, fleet, ha, hacquire⟩
    · exact .inl ⟨_, runOn_bind_error hacquire _⟩
    · refine .inr ⟨manager, slot, fleet, hm, ha, ?_⟩
      rw [runOn_bind_ok hacquire]
      rcases openSlot_cases (S := S) (T := T) manager.instances slot (.balanced m · slot)
        { h with fleet } with ⟨e, h', ho, hs⟩ | ⟨n, i, link, key, h', hn, hi, hl, hs, ho⟩
      · obtain ⟨e', he⟩ := onFailure_of_error ho (freeSlot manager.balancer slot)
        exact .inl ⟨e', h', he, hs⟩
      · exact .inr ⟨n, i, link, key, h', hn, hi, hl, hs, onFailure_of_ok ho _⟩

/-- Closing a session that holds no slot. -/
theorem closeSession_plain {s : SessionId} {session : Session} {h : Host}
    (hs : h.sessions.get? s = some session) (ho : session.origin.slot? = none) :
    { h with sessions := h.sessions.erase s }.Spares S T (runOn h (closeSession s)).2 := by
  rw [closeSession, runOn_bind_ok (getSession_ok hs)]
  rcases session with ⟨link, key, origin, current⟩
  cases origin with
  | balanced m home slot => cases ho
  | _ => exact link.within_closeSession key { h with sessions := h.sessions.erase s }

/-- Closing a session that holds a slot. -/
theorem closeSession_balanced {s : SessionId} {session : Session} {h : Host} {m : ManagerId}
    {home : InstanceId} {slot : Nat} {manager : Manager} {r : Except BalancerError Unit}
    {fleet : Fleet} (hs : h.sessions.get? s = some session)
    (ho : session.origin = .balanced m home slot) (hm : h.managers[m]? = some manager)
    (hf : h.fleet.free manager.balancer slot = some (r, fleet)) :
    { h with sessions := h.sessions.erase s, fleet }.Spares S T
      (runOn h (closeSession s)).2 := by
  rw [closeSession, runOn_bind_ok (getSession_ok hs)]
  rcases session with ⟨link, key, origin, current⟩
  obtain rfl : origin = .balanced m home slot := ho
  have hmanager : runOn { h with sessions := h.sessions.erase s } (getManager m) =
      (.ok manager, { h with sessions := h.sessions.erase s }) := getManager_ok hm
  have hfree : runOn { h with sessions := h.sessions.erase s } (freeSlot manager.balancer slot) =
      (.ok (), { h with sessions := h.sessions.erase s, fleet }) := by
    simp only [freeSlot, runOn_of, hf]
  have hclose := link.within_closeSession (S := S) (T := T) key
    { h with sessions := h.sessions.erase s, fleet }
  simp only [runOn_bind, runOn_modify, hmanager, hfree]
  exact hclose

end Host

end InstancePool
