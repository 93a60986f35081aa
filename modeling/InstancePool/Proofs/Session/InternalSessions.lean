import InstancePool.Proofs.Session.SlotsKept

/-!
Managers and instances open sessions of their own, to tag an interpreter and to unload a value from it.
Each of them is a session more that was opened, and none of them is in the way of those that the host
knows.
-/

namespace InstancePool

open HostM

namespace Host

variable {α : Type} {n : Nat} {K : SessionKey → Prop} {h h' : Host}

/-- No session is opened to clean up. -/
theorem Keeps.onFailure {x : HostM α} {cleanup : HostM Unit} (hx : Within (Keeps n K) x)
    (hc : Within (Keeps 0 K) cleanup) : Within (Keeps n K) (onFailure x cleanup) := by
  refine Keeps.bind hx.outcome (fun r => ?_) (Nat.le_refl (n + 0))
  cases r with
  | ok a => exact within_pure a
  | error e => exact hc.bind fun _ => within_throw e

theorem keeps_newInterp (l : LoaderId) (image : Nat) (searchPaths plugins : List String) :
    Within (Keeps 0 K) (newInterp l image searchPaths plugins) := by
  unfold newInterp
  refine (within_useEntryPoint l image _ _).bind fun behaviour => ?_
  refine Within.bind (fun h => ?_) fun k => ?_
  · exact keeps_of_machine (Nat.le_refl 0) rfl rfl (enlists_of_eq rfl) rfl (UInt64.add_zero _).symm
      fun key _ _ => Machine.retains_create searchPaths behaviour.failFinalize (some ⟨l, image⟩)
  · split
    · refine Within.map (keeps_addChannel fun e he => ?_) Link.channel
      cases he
      rfl
    · exact within_pure _

end Host

namespace Instance

open Host

variable {α : Type} {K : SessionKey → Prop}

theorem keeps_withSession {i : Instance} {f : Link → SessionKey → HostM α}
    (hf : ∀ l key, Within (Uses l key) (f l key)) : Within (Keeps 1 K) (i.withSession f) := by
  unfold withSession
  split
  · exact fun h => .refl h
  · rename_i link hl
    exact Link.keeps_withSession (hf link)

theorem keeps_adopt (registry : Nat) (i : Instance) : Within (Keeps 1 K) (i.adopt registry) := by
  refine Keeps.bind (keeps_withSession fun l key => ?_) (fun _ => ?_) (Nat.le_refl (1 + 0))
  · exact (l.uses_performRef key _).bind fun version => (l.uses_performRef key _).bind fun number =>
      (l.uses_perform key _).bind fun _ => within_pure _
  · unfold setResolver
    split
    · exact within_throw _
    · rename_i link hl
      exact link.keeps_setResolver _

theorem keeps_close (i : Instance) : Within (Keeps 0 K) i.close :=
  within_close fun l _ => l.keeps_finalize

theorem keeps_load (number : Nat) (spec : ImageSpec) (env : EnvironmentId) :
    Within (Keeps 0 K) (Instance.load number spec env) :=
  within_load number spec env fun _ _ _ _ _ hcleanup hf =>
    ((keeps_newInterp _ _ _ _).onFailure hcleanup).bind fun link => hf link link.keeps_finalize

end Instance

namespace Host

variable {n : Nat} {K : SessionKey → Prop} {h h' : Host}

theorem keeps_loadMember (spec : ManagerSpec) (registry number : Nat) :
    Within (Keeps 1 K) (loadMember spec registry number) := by
  refine Keeps.bind (Instance.keeps_load _ _ _) (fun i => ?_) (Nat.le_refl (0 + 1))
  refine Keeps.bind ?_ (fun _ _ => keeps_of_books rfl rfl rfl rfl (enlists_of_eq rfl))
    (Nat.le_refl (1 + 0))
  exact Keeps.onFailure (i.keeps_adopt registry) i.keeps_close.ignoring

theorem keeps_closeInstance (n : InstanceId) : Within (Keeps 0 K) (closeInstance n) :=
  (within_find _).bind fun i =>
    Within.bind (fun _ => keeps_of_books rfl rfl rfl rfl (enlists_of_eq rfl)) fun _ => i.keeps_close

theorem keeps_closeInstances (ns : List InstanceId) : Within (Keeps 0 K) (closeInstances ns) :=
  within_closeInstances fun n _ => keeps_closeInstance n

theorem keeps_dropInstances (ns : List InstanceId) : Within (Keeps 0 K) (dropInstances ns) :=
  within_dropInstances fun n _ => keeps_closeInstance n

theorem keeps_loadMembers (spec : ManagerSpec) (registry : Nat) (loaded : List InstanceId)
    (number count : Nat) : Within (Keeps count K) (loadMembers spec registry loaded number count) := by
  induction count generalizing loaded number with
  | zero => exact fun h => .refl h
  | succ count ih =>
    have hmember : Within (Keeps 1 K) (onFailure (loadMember spec registry number)
        (dropInstances loaded)) :=
      Keeps.onFailure (keeps_loadMember spec registry number) (keeps_dropInstances loaded)
    exact Keeps.bind hmember (fun n => ih (loaded ++ [n]) (number + 1)) (by omega)

/-- A session is opened in each instance of a new manager. -/
theorem keeps_buildManager {spec : ManagerSpec} (hn : spec.count < 2 ^ 64) :
    Within (Keeps spec.count K) (buildManager spec) := by
  unfold buildManager
  split
  · exact fun h => .refl h
  · have hbalancer : Within (Keeps 0 K) (addBalancer spec.count) := by
      intro h
      simp only [addBalancer, runOn_of]
      split
      · exact .refl h
      · exact keeps_of_books rfl rfl rfl rfl (enlists_of_eq rfl)
    refine Keeps.bind (fun _ => keeps_of_books rfl rfl rfl rfl (enlists_of_eq rfl))
      (fun registry h => ?_) (Nat.le_of_eq (Nat.zero_add spec.count))
    refine Keeps.bind_rel (keeps_loadMembers spec registry [] 0 spec.count h)
      (fun instances h₁ hr => ?_) (Nat.le_refl (spec.count + 0))
    refine Keeps.bind_rel (hbalancer h₁) (fun balancer h₂ _ => ?_) (Nat.le_refl (0 + 0))
    refine keeps_of_books rfl rfl rfl rfl fun manager hmem => ?_
    rcases List.mem_append.1 hmem with hmem | hmem
    · exact .inr ⟨manager, hmem, rfl⟩
    · obtain ⟨rfl, -⟩ := loadMembers_ok hr
      rw [List.mem_singleton.1 hmem]
      simpa only [List.nil_append, List.length_range'] using .inl hn

theorem keeps_loadInstance (number : Nat) (spec : ImageSpec) (env : EnvironmentId) :
    Within (Keeps 0 K) (loadInstance number spec env) :=
  (Instance.keeps_load number spec env).bind fun _ _ =>
    keeps_of_books rfl rfl rfl rfl (enlists_of_eq rfl)

theorem keeps_unloadFrom (r : Replica) (n : InstanceId) : Within (Keeps 1 K) (unloadFrom r n) := by
  refine Keeps.bind (within_requireOwned r.manager n) (fun _ => ?_) (Nat.le_refl (0 + 1))
  refine Keeps.bind (within_find _) (fun i => ?_) (Nat.le_refl (0 + 1))
  exact Instance.keeps_withSession fun l key =>
    (l.uses_perform key _).bind fun _ => within_pure _

theorem keeps_unloadFromEach (r : Replica) (ns : List InstanceId) :
    Within (Keeps ns.length K) (unloadFromEach r ns) := by
  induction ns with
  | nil => exact fun h => .refl h
  | cons n ns ih =>
    rw [List.length_cons]
    refine Keeps.bind (keeps_unloadFrom r n).outcome (fun _ => ?_) (Nat.le_of_eq (Nat.add_comm ..))
    refine Keeps.bind ih.outcome (fun _ => ?_) (Nat.le_refl (ns.length + 0))
    exact (within_settle _).bind fun _ => within_settle _

/-- The number of instances that a value can be in. -/
def reachOf (h : Host) (n : ReplicaId) : Nat :=
  ((h.replicas.get? n).bind fun r => h.managers[r.manager]?).elim 0 fun m => m.instances.length

/-- A session is opened in each instance that the value can be in. -/
theorem keeps_unloadAll (n : ReplicaId) (h : Host) :
    h.Keeps (h.reachOf n) K (runOn h (unloadAll n)).2 := by
  unfold unloadAll
  cases hr : h.replicas.get? n with
  | none =>
    rw [runOn_bind_error (getReplica_none hr)]
    exact .refl h
  | some r =>
    rw [runOn_bind_ok (getReplica_ok hr)]
    rcases find_cases (fun h => h.managers[r.manager]?) h with ⟨-, hm⟩ | ⟨manager, hm, hrun⟩
    · rw [getManager, runOn_bind_error hm]
      exact .refl h
    · rw [getManager, runOn_bind_ok hrun]
      have hreach : h.reachOf n = manager.instances.length := by
        simp only [reachOf, hr, Option.bind_some, hm, Option.elim_some]
      rw [hreach]
      exact Keeps.bind (keeps_unloadFromEach r manager.instances)
        (fun _ _ => keeps_of_books rfl rfl rfl rfl (enlists_of_eq rfl)) (Nat.le_refl (_ + 0)) h

theorem keeps_dropReplica (n : ReplicaId) (h : Host) :
    h.Keeps (h.reachOf n) K (runOn h (dropReplica n)).2 := by
  unfold dropReplica
  cases hr : h.replicas.get? n with
  | none =>
    rw [runOn_bind_error (getReplica_none hr)]
    exact .refl h
  | some r =>
    rw [runOn_bind_ok (getReplica_ok hr)]
    split
    · exact keeps_of_books rfl rfl rfl rfl (enlists_of_eq rfl)
    · split
      · have hunload := keeps_unloadAll (K := K) n h
        rw [runOn_bind, runOn_ignoring]
        refine (hunload.trans (L := K) ?_ fun _ _ => id).mono (Nat.le_refl (_ + 0)) fun _ _ => id
        exact keeps_of_books rfl rfl rfl rfl (enlists_of_eq rfl)
      · exact keeps_of_books rfl rfl rfl rfl (enlists_of_eq rfl)

/-- How it goes to open a session: nothing is kept, or a session is that has the next key and has handed
out nothing. -/
inductive Opened (x : HostM SessionId) (h : Host) : Prop where
  | refused (e : Error) (h' : Host) (hr : runOn h x = (.error e, h'))
    (hk : h.Keeps 1 (fun _ => False) h')
  | kept (session : Session) (h' : Host) (hr : runOn h x = (.ok h'.nextSession, h'.keep session))
    (hk : h.Keeps 1 (fun _ => False) h') (hl : h'.Known session.link)
    (hi : ∀ k, h'.interpAt session.link = some k → session.key = ⟨h.machine.nextKey⟩ ∧
      (h.Fits h' → h.KeysGiven → h'.Issued session.link session.key []))

/-- Something comes before that has to do with the balancer alone. -/
theorem Opened.after {x : HostM α} {f : α → HostM SessionId} {a : α} {fleet : Fleet}
    (hr : runOn h x = (.ok a, { h with fleet })) (hf : Opened (f a) { h with fleet }) :
    Opened (x >>= f) h := by
  have hfleet : h.Keeps 0 (fun _ => False) { h with fleet } :=
    keeps_of_books rfl rfl rfl rfl (enlists_of_eq rfl)
  cases hf with
  | refused e h' hr' hk =>
    refine .refused e h' (by rw [runOn_bind_ok hr, hr']) ?_
    exact (hfleet.trans hk fun _ _ => id).mono (Nat.le_refl 1) fun _ _ => id
  | kept session h' hr' hk hl hi =>
    refine .kept session h' (by rw [runOn_bind_ok hr, hr']) ?_ hl hi
    exact (hfleet.trans hk fun _ _ => id).mono (Nat.le_refl 1) fun _ _ => id

/-- A session is opened through a link and kept. -/
theorem opened_openThrough (link : Link) (session : SessionKey → Session)
    (hs : ∀ key, (session key).link = link ∧ (session key).key = key) :
    Opened (do
      let key ← link.openSession
      addSession (session key)) h := by
  have hopen := link.keeps_openSession (K := fun _ => False) h
  rcases hr : runOn h link.openSession with ⟨e | key, h₁⟩
  · rw [hr] at hopen
    exact .refused e h₁ (runOn_bind_error hr _) hopen
  · rw [hr] at hopen
    obtain ⟨hl, hi⟩ := Link.openSession_issues hr
    obtain ⟨hlink, hkey⟩ := hs key
    refine .kept (session key) h₁ (runOn_bind_ok hr _) hopen (hlink ▸ hl) ?_
    rw [hlink, hkey]
    exact hi

theorem opened_openOn (n : InstanceId) (origin : Origin) :
    Opened (do
      let i ← getInstance n
      let (link, key) ← i.openSession
      addSession { link, key, origin }) h := by
  rcases find_cases (fun h => h.instances[n]?) h with ⟨-, hr⟩ | ⟨i, hi, hr⟩
  · exact .refused _ h (runOn_bind_error hr _) (.refl h)
  refine .after hr ?_
  unfold Instance.openSession
  cases i.link with
  | none => exact .refused .closed h rfl (.refl h)
  | some link =>
    have hopened := opened_openThrough (h := h) link (fun key => { link, key, origin })
      fun key => ⟨rfl, rfl⟩
    simpa only [bind_assoc, pure_bind] using hopened

theorem opened_openAlone (n : InstanceId) : Opened (openAlone n) h := opened_openOn n (.alone n)

theorem opened_openBare (link : Link) : Opened (openBare link) h :=
  opened_openThrough link (fun key => { link, key, origin := .bare }) fun _ => ⟨rfl, rfl⟩

theorem opened_openPinned (m : ManagerId) (n : InstanceId) : Opened (openPinned m n) h := by
  rcases requireOwned_cases m n h with ⟨e, hr⟩ | ⟨manager, -, -, hr⟩
  · exact .refused e h (runOn_bind_error hr _) (.refl h)
  · exact .after hr (opened_openOn n (.pinned m n))

theorem keeps_freeSlot (balancer slot : Nat) : Within (Keeps 0 K) (freeSlot balancer slot) := by
  intro h
  obtain ⟨fleet, hf⟩ := freeSlot_eq balancer slot h
  rw [hf]
  exact keeps_of_books rfl rfl rfl rfl (enlists_of_eq rfl)

theorem opened_openBalanced (m : ManagerId) (t : Thread) : Opened (openBalanced m t) h := by
  rcases find_cases (fun h => h.managers[m]?) h with ⟨-, hr⟩ | ⟨manager, hm, hr⟩
  · exact .refused _ h (runOn_bind_error hr _) (.refl h)
  refine .after hr ?_
  rcases acquireSlot_cases manager.balancer t h with ⟨-, hacq⟩ | ⟨slot, fleet, -, hacq⟩
  · exact .refused _ h (runOn_bind_error hacq _) (.refl h)
  · refine .after hacq ?_
    have hopened : Opened (do
        let n ← find fun _ => manager.instances[slot]?
        let i ← getInstance n
        let (link, key) ← i.openSession
        addSession { link, key, origin := .balanced m n slot }) { h with fleet } := by
      rcases find_cases (fun _ => manager.instances[slot]?) { h with fleet } with
        ⟨-, hr⟩ | ⟨n, hn, hr⟩
      · exact .refused _ _ (runOn_bind_error hr _) (.refl _)
      · exact .after hr (opened_openOn n _)
    -- A failure gives the slot back.
    cases hopened with
    | refused e h' hr' hk =>
      obtain ⟨e', he⟩ := onFailure_of_error hr' (freeSlot manager.balancer slot)
      exact .refused e' _ he
        ((hk.trans (keeps_freeSlot _ _ h') fun _ _ => id).mono (Nat.le_refl 1) fun _ _ => id)
    | kept session h' hr' hk hl hi =>
      exact .kept session h' (onFailure_of_ok hr' _) hk hl hi

theorem opened_openFor (m : ManagerId) (on : Option InstanceId) (t : Thread) :
    Opened (openFor m on t) h := by
  cases on with
  | some home => exact opened_openPinned m home
  | none => exact opened_openBalanced m t

end Host

end InstancePool
