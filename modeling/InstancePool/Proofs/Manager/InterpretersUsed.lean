import InstancePool.Host.Boundary
import InstancePool.Proofs.Host.InterpretersUsed

/-!
Which interpreters the actions of a host put to work that go through managers, sessions and replicated
values: those of the instances that they are about.
-/

namespace InstancePool

open HostM

namespace Host

variable {S : Nat → Prop}

/-- The interpreters of a manager's instances are in `S`. -/
def Crew (S : Nat → Prop) (m : ManagerId) (h : Host) : Prop :=
  ∀ manager, h.managers[m]? = some manager → h.Homes S (· ∈ manager.instances)

variable {h h' : Host}

theorem works_closeInstances (ns : List InstanceId) :
    Within (WorksIf (Homes S (· ∈ ns)) S) (closeInstances ns) :=
  within_closeInstances fun _ hn => works_closeInstance_of_mem hn

theorem works_dropInstances (ns : List InstanceId) :
    Within (WorksIf (Homes S (· ∈ ns)) S) (dropInstances ns) :=
  within_dropInstances fun _ hn => works_closeInstance_of_mem hn

/-- What follows a look at a manager. -/
theorem works_getManager {α : Type} {m : ManagerId} {f : Manager → HostM α}
    (hf : ∀ manager, h.managers[m]? = some manager → h.Works S (runOn h (f manager)).2) :
    h.Works S (runOn h (getManager m >>= f)).2 := by
  rcases find_cases (fun h => h.managers[m]?) h with ⟨-, hr⟩ | ⟨manager, hm, hr⟩
  · rw [getManager, runOn_bind_error hr]
    exact .refl h
  · rw [getManager, runOn_bind_ok hr]
    exact hf manager hm

theorem works_shutdown (m : ManagerId) : Within (WorksIf (Crew S m) S) (shutdown m) :=
  fun h hp => works_getManager fun manager hm => works_closeInstances _ h (hp manager hm)

theorem works_dropManager (m : ManagerId) : Within (WorksIf (Crew S m) S) (dropManager m) :=
  fun h hp => works_getManager fun manager hm => works_dropInstances _ h (hp manager hm)

/-- A session is kept whose link leads into `S`. -/
theorem works_addSession (session : Session) :
    Within (WorksIf (LeadsInto S session.link) S) (addSession session) := by
  intro h hl
  refine ⟨.refl, Nat.le_refl _, fun c live e hc => ⟨live, e, hc, rfl, fun _ => ⟨rfl, rfl⟩⟩,
    fun c live e hc => .inl ⟨live, e, hc, rfl⟩, fun n l hl => .inl hl, fun s session' hs => ?_⟩
  rcases Table.get?_insert_eq_some.1 hs with ⟨-, rfl⟩ | ⟨-, hs⟩
  · exact .inr hl
  · exact .inl ⟨session', hs, rfl⟩

/-- The interpreters in `S` alone are at work, and a session that is opened runs on one of them. -/
def Opens (S : Nat → Prop) (x : HostM SessionId) (h : Host) : Prop :=
  h.Works S (runOn h x).2 ∧ ∀ s, (runOn h x).1 = .ok s → (runOn h x).2.Runs S s

theorem Opens.of_error {x : HostM SessionId} {e : Error} (hr : runOn h x = (.error e, h')) (hw : h.Works S h') :
    Opens S x h := by
  refine ⟨by rw [hr]; exact hw, fun s hs => ?_⟩
  rw [hr] at hs
  cases hs

/-- Something comes before a session is opened. -/
theorem Opens.after {α : Type} {x : HostM α} {f : α → HostM SessionId} {a : α}
    (hr : runOn h x = (.ok a, h')) (hw : h.Works S h') (hf : Opens S (f a) h') :
    Opens S (x >>= f) h := by
  unfold Opens
  rw [runOn_bind_ok hr]
  exact ⟨hw.trans hf.1, hf.2⟩

theorem opens_openOn {n : InstanceId} (origin : Origin) (hp : h.Homes S (· = n)) :
    Opens S (do
      let i ← getInstance n
      let (link, key) ← i.openSession
      addSession { link, key, origin }) h := by
  rcases find_cases (fun h => h.instances[n]?) h with ⟨-, hr⟩ | ⟨i, hi, hr⟩
  · exact .of_error (runOn_bind_error hr _) (.refl h)
  refine .after hr (.refl h) ?_
  unfold Instance.openSession
  cases hl : i.link with
  | none => exact .of_error rfl (.refl h)
  | some link =>
    have hlink : h.LeadsInto S link := hp n link rfl (by rw [linkOf, hi]; exact hl)
    have hw := Link.works_openSession hlink
    rcases ho : runOn h link.openSession with ⟨e | key, h₁⟩
    · rw [ho] at hw
      exact .of_error (runOn_bind_error (runOn_bind_error ho _) _) hw
    · rw [ho] at hw
      have hlink₁ : h₁.LeadsInto S link := hw.leadsInto hlink
      refine .after (runOn_bind_ok ho _) hw ⟨works_addSession _ h₁ hlink₁, fun s hs => ?_⟩
      cases hs
      intro session hs
      obtain rfl := Option.some.inj ((Table.get?_insert_self ..).symm.trans hs)
      exact hlink₁

theorem works_openAlone (n : InstanceId) : Within (WorksIf (Homes S (· = n)) S) (openAlone n) :=
  fun _ hp => (opens_openOn (.alone n) hp).1

theorem opens_openPinned (m : ManagerId) {n : InstanceId} (hp : h.Homes S (· = n)) :
    Opens S (openPinned m n) h := by
  rcases requireOwned_cases m n h with ⟨e, hr⟩ | ⟨manager, -, -, hr⟩
  · exact .of_error (runOn_bind_error hr _) (.refl h)
  · exact .after hr (.refl h) (opens_openOn (.pinned m n) hp)

theorem works_freeSlot (balancer slot : Nat) : Within (Works S) (freeSlot balancer slot) := by
  intro h
  unfold freeSlot
  rw [runOn_of]
  split
  · exact .refl h
  · exact .of_books .refl rfl rfl rfl

theorem opens_openBalanced {m : ManagerId} (t : Thread) (hp : h.Crew S m) :
    Opens S (openBalanced m t) h := by
  rcases find_cases (fun h => h.managers[m]?) h with ⟨-, hr⟩ | ⟨manager, hm, hr⟩
  · exact .of_error (runOn_bind_error hr _) (.refl h)
  refine .after hr (.refl h) ?_
  rcases acquireSlot_cases manager.balancer t h with ⟨-, hacq⟩ | ⟨slot, fleet, -, hacq⟩
  · exact .of_error (runOn_bind_error hacq _) (.refl h)
  · refine .after hacq (.of_books .refl rfl rfl rfl) ?_
    have hopen : Opens S (do
        let n ← find fun _ => manager.instances[slot]?
        let i ← getInstance n
        let (link, key) ← i.openSession
        addSession { link, key, origin := .balanced m n slot }) { h with fleet } := by
      rcases find_cases (fun _ => manager.instances[slot]?) { h with fleet } with
        ⟨-, hr⟩ | ⟨n, hn, hr⟩
      · exact .of_error (runOn_bind_error hr _) (.refl _)
      · refine .after hr (.refl _) (opens_openOn _ fun k l hk hl => ?_)
        subst hk
        have hlink := hp manager hm k l (List.mem_of_getElem? hn) hl
        exact fun j hj => hlink j hj
    -- A failure gives the slot back, which is no interpreter's business.
    unfold Opens at hopen ⊢
    rw [runOn_onFailure]
    generalize runOn { h with fleet } _ = r at hopen ⊢
    rcases r with ⟨e | s, h₁⟩
    · simp only []
      have hfree := works_freeSlot (S := S) manager.balancer slot h₁
      generalize runOn h₁ (freeSlot manager.balancer slot) = r' at hfree ⊢
      rcases r' with ⟨e' | u, h₂⟩
      · exact ⟨hopen.1.trans hfree, fun s hs => by cases hs⟩
      · exact ⟨hopen.1.trans hfree, fun s hs => by cases hs⟩
    · exact hopen

/-- What follows a look at a session. -/
theorem works_getSession {α : Type} {s : SessionId} {f : Session → HostM α}
    (hf : ∀ session, h.sessions.get? s = some session → h.Works S (runOn h (f session)).2) :
    h.Works S (runOn h (getSession s >>= f)).2 := by
  rcases find_cases (fun h => h.sessions.get? s) h with ⟨-, hr⟩ | ⟨session, hs, hr⟩
  · rw [getSession, runOn_bind_error hr]
    exact .refl h
  · rw [getSession, runOn_bind_ok hr]
    exact hf session hs

theorem works_perform (s : SessionId) (op : Op) :
    Within (WorksIf (Runs S s) S) (Host.perform s op) := fun _ hp =>
  works_getSession fun session hs => Link.works_perform session.key op (hp session hs)

theorem works_setCurrent (s : SessionId) (r : Ref) :
    Within (WorksIf (Runs S s) S) (setCurrent s r) := by
  intro h hp
  refine works_getSession fun session hs => ?_
  refine ⟨.refl, Nat.le_refl _, fun c live e hc => ⟨live, e, hc, rfl, fun _ => ⟨rfl, rfl⟩⟩,
    fun c live e hc => .inl ⟨live, e, hc, rfl⟩, fun n l hl => .inl hl, fun s' session' hs' => ?_⟩
  rcases Table.get?_insert_eq_some.1 hs' with ⟨rfl, rfl⟩ | ⟨-, hs'⟩
  · exact .inl ⟨session, hs, rfl⟩
  · exact .inl ⟨session', hs', rfl⟩

theorem works_closeSession (s : SessionId) :
    Within (WorksIf (Runs S s) S) (closeSession s) := by
  intro h hp
  refine works_getSession fun session hs => ?_
  have hl : h.LeadsInto S session.link := hp session hs
  -- The host forgets the session and gives its slot back, and only then closes it at the other end.
  have herase : h.Works S { h with sessions := h.sessions.erase s } := by
    refine ⟨.refl, Nat.le_refl _, fun c live e hc => ⟨live, e, hc, rfl, fun _ => ⟨rfl, rfl⟩⟩,
      fun c live e hc => .inl ⟨live, e, hc, rfl⟩, fun n l hl => .inl hl,
      fun s' session' hs' => ?_⟩
    exact .inl ⟨session', (Table.get?_erase_eq_some.1 hs').2, rfl⟩
  have hclose : Within (WorksIf (LeadsInto S session.link) S)
      (session.link.closeSession session.key) :=
    fun _ hl => Link.works_closeSession session.key hl
  refine bind_rel (R := Works S) herase fun _ h₁ hr => ?_
  obtain rfl : h₁ = { h with sessions := h.sessions.erase s } := by
    cases hr
    rfl
  have hl₁ := herase.leadsInto hl
  cases session.origin with
  | balanced m home slot =>
    refine Within.bind (R := WorksIf (LeadsInto S session.link) S) (within_find _) ?_ _ hl₁
    intro manager
    exact Within.bind ((works_freeSlot manager.balancer slot).mono fun _ _ hw _ => hw)
      fun _ => hclose
  | bare | alone | pinned => exact hclose _ hl₁

theorem works_createReplica (s : SessionId) (r : Ref) :
    Within (WorksIf (Runs S s) S) (createReplica s r) := by
  have hperform (op : Op) : Within (WorksIf (Runs S s) S) (Host.perform s op) := works_perform s op
  refine (within_find _).bind fun session => ?_
  split
  · exact within_throw _
  · refine ((hperform _).bind fun _ => within_settle _).bind fun owned => ?_
    split
    · exact within_throw _
    · refine ((hperform _).bind fun _ => within_settle _).bind fun data => ?_
      refine Within.bind ((within_find _).bind fun manager => ?_) fun id => ?_
      · exact Within.bind (fun _ _ => .of_books .refl rfl rfl rfl) fun _ => within_pure _
      · exact fun _ _ => .of_books .refl rfl rfl rfl

theorem works_materialize (s : SessionId) (n : ReplicaId) :
    Within (WorksIf (Runs S s) S) (materialize s n) :=
  (within_find _).bind fun r => (within_requireLoaded r).bind fun _ => (within_find _).bind fun _ =>
    (within_find _).bind fun home => (within_requireOwned r.manager home).bind fun _ =>
      (works_perform s _).bind fun _ => within_settle _

theorem works_unloadFrom (r : Replica) (n : InstanceId) :
    Within (WorksIf (Homes S (· = n)) S) (unloadFrom r n) := by
  refine (within_requireOwned r.manager n).bind fun _ => ?_
  intro h hp
  rcases find_cases (fun h => h.instances[n]?) h with ⟨-, hr⟩ | ⟨i, hi, hr⟩
  · rw [getInstance, runOn_bind_error hr]
    exact .refl h
  · rw [getInstance, runOn_bind_ok hr]
    refine Instance.works_withSession (fun l key => ?_) h fun l hl => ?_
    · exact Within.bind (fun _ hl => Link.works_perform key _ hl) fun _ => within_pure _
    · refine hp n l rfl ?_
      rw [linkOf, hi]
      exact hl

theorem works_unloadFromEach (r : Replica) {I : InstanceId → Prop} {ns : List InstanceId}
    (hn : ∀ n ∈ ns, I n) : Within (WorksIf (Homes S I) S) (unloadFromEach r ns) := by
  induction ns with
  | nil => exact within_pure _
  | cons n ns ih =>
    have hfirst : Within (WorksIf (Homes S I) S) (unloadFrom r n) := fun h hp =>
      works_unloadFrom r n h fun k l hk hl => hp k l (hk ▸ hn n List.mem_cons_self) hl
    have hrest := ih fun k hk => hn k (List.mem_cons_of_mem n hk)
    exact hfirst.outcome.bind fun _ => hrest.outcome.bind fun _ =>
      (within_settle _).bind fun _ => within_settle _

/-- The interpreters of the instances of a value's manager are in `S`. -/
def Stores (S : Nat → Prop) (n : ReplicaId) (h : Host) : Prop :=
  ∀ r, h.replicas.get? n = some r → h.Crew S r.manager

/-- What follows a look at a replicated value. -/
theorem works_getReplica {α : Type} {n : ReplicaId} {f : Replica → HostM α}
    (hf : ∀ r, h.replicas.get? n = some r → h.Works S (runOn h (f r)).2) :
    h.Works S (runOn h (getReplica n >>= f)).2 := by
  rcases find_cases (fun h => h.replicas.get? n) h with ⟨-, hr⟩ | ⟨r, hg, hr⟩
  · rw [getReplica, runOn_bind_error hr]
    exact .refl h
  · rw [getReplica, runOn_bind_ok hr]
    exact hf r hg

theorem works_unloadAll (n : ReplicaId) : Within (WorksIf (Stores S n) S) (unloadAll n) := by
  intro h hp
  refine works_getReplica fun r hr => works_getManager fun manager hm => ?_
  exact Within.bind (works_unloadFromEach r (I := (· ∈ manager.instances)) fun _ => id)
    (fun _ _ _ => .of_books .refl rfl rfl rfl) h (hp r hr manager hm)

theorem works_dropReplica (n : ReplicaId) : Within (WorksIf (Stores S n) S) (dropReplica n) := by
  intro h hp
  refine works_getReplica fun r hr => ?_
  have herase (h : Host) : h.Works S { h with replicas := h.replicas.erase n } :=
    .of_books .refl rfl rfl rfl
  split
  · exact .of_books .refl rfl rfl rfl
  · split
    · exact bind_rel (R := Works S) (works_unloadAll n h hp) fun _ h' _ => herase h'
    · exact herase h

/-- Opening a session with a value. If the value cannot be materialized, the session is closed. -/
theorem works_openReplica {n : ReplicaId} {on : Option InstanceId} (t : Thread)
    (hp : match on with
      | some home => h.Homes S (· = home)
      | none => h.Stores S n) : h.Works S (runOn h (openReplica n on t)).2 := by
  rw [openReplica_eq]
  refine works_getReplica fun r hr => ?_
  have hopens : Opens S (openFor r.manager on t) h := by
    cases on with
    | some home => exact opens_openPinned r.manager hp
    | none => exact opens_openBalanced t (hp r hr)
  refine bind_rel (R := Works S) (within_requireLoaded r h) fun _ h₁ hl => ?_
  obtain rfl : h₁ = h := by
    unfold requireLoaded at hl
    split at hl <;> cases hl
    rfl
  refine bind_rel hopens.1 fun s h₂ ho => ?_
  have hruns : h₂.Runs S s := by
    have hs := hopens.2 s (by rw [ho])
    rwa [ho] at hs
  exact Within.bind (R := WorksIf (Runs S s) S)
    (((works_materialize s n).bind fun r => works_setCurrent s r).onFailure (works_closeSession s))
    (fun _ => within_pure _) h₂ hruns

end Host

end InstancePool
