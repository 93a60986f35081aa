import InstancePool.Proofs.Session.KnownSessions
import InstancePool.Proofs.Session.ReturnedReferences

/-!
No session is left behind. What a host does for itself, from the loading of an instance to the unloading of
a value, leaves no session open but those that were open before; and of the sessions that it opens for its
users it knows each, until the user closes it.
-/

namespace InstancePool

open HostM

namespace Table

variable {κ ν β : Type} [DecidableEq κ] {t : Table κ ν} {k : κ} {v w : ν}

theorem entries_insert_new (h : t.get? k = none) (v : ν) :
    (t.insert k v).entries = t.entries ++ [(k, v)] := by
  have hgo (es : List (κ × ν)) (hl : lookup k es = none) :
      insertEntry k v es = es ++ [(k, v)] := by
    induction es with
    | nil => rfl
    | cons e es ih =>
      unfold lookup at hl
      split at hl
      · cases hl
      · rename_i hne
        rw [insertEntry, if_neg hne, ih hl, List.cons_append]
  exact hgo t.entries h

theorem map_insert_old {f : κ × ν → β} (h : t.get? k = some w) (hf : f (k, v) = f (k, w)) :
    (t.insert k v).entries.map f = t.entries.map f := by
  have hgo (es : List (κ × ν)) (hl : lookup k es = some w) :
      (insertEntry k v es).map f = es.map f := by
    induction es with
    | nil => cases hl
    | cons e es ih =>
      unfold lookup at hl
      unfold insertEntry
      split at hl
      · rename_i he
        cases hl
        rw [if_pos he, List.map_cons, List.map_cons, hf, ← he]
      · rename_i hne
        rw [if_neg hne, List.map_cons, List.map_cons, ih hl]
  exact hgo t.entries h

theorem perm_erase [DecidableEq ν] (h : t.get? k = some v) :
    t.entries.Perm ((k, v) :: (t.erase k).entries) := by
  rw [List.perm_iff_count]
  intro e
  rw [List.count_cons]
  exact count_erase h (· == e)

end Table

namespace Host

/-- What is known of the sessions that a host has open. -/
def book (h : Host) : List (Link × SessionKey) := h.sessions.entries.map fun e => (e.2.link, e.2.key)

/-- A manager is there, and so is its balancer. -/
def Attended (h : Host) (m : ManagerId) (balancer : Nat) : Prop :=
  (∃ manager, h.managers[m]? = some manager ∧ manager.balancer = balancer) ∧
    balancer < h.fleet.balancers.length

/-- From a host to a later one with the same sessions: no other session is left open. -/
structure Tidies (h h' : Host) : Prop where
  sessions : h'.sessions = h.sessions
  nextSession : h'.nextSession = h.nextSession
  covers : ∀ p, h.Covers p → h'.Covers p
  attends : ∀ m k, h.Attended m k → h'.Attended m k

variable {α : Type} {h h' h₁ h₂ h₃ : Host}

instance : Frame Tidies where
  refl _ := ⟨rfl, rfl, fun _ => id, fun _ _ => id⟩
  trans ht ht' := ⟨ht'.sessions.trans ht.sessions, ht'.nextSession.trans ht.nextSession,
    fun p hp => ht'.covers p (ht.covers p hp), fun m k hm => ht'.attends m k (ht.attends m k hm)⟩

theorem Tidies.book_eq (hh : h.Tidies h') : h'.book = h.book := by
  rw [book, hh.sessions]
  rfl

theorem attended_of_eq (hm : h'.managers = h.managers)
    (hf : h'.fleet.balancers.length = h.fleet.balancers.length) (m : ManagerId) (k : Nat)
    (ha : h.Attended m k) : h'.Attended m k := by
  rwa [Attended, hm, hf]

theorem tidies_of_books (hb : h.SameBooks h') (hc : ∀ p, h.Covers p → h'.Covers p) : h.Tidies h' where
  sessions := hb.sessions
  nextSession := hb.nextSession
  covers := hc
  attends := attended_of_eq hb.managers (by rw [hb.fleet])

/-- Interpreters and channels are as they were. -/
theorem tidies_of_same (hm : h'.machine = h.machine) (hc : h'.channels = h.channels)
    (hs : h'.sessions = h.sessions) (hns : h'.nextSession = h.nextSession)
    (ha : ∀ m k, h.Attended m k → h'.Attended m k) : h.Tidies h' :=
  ⟨hs, hns, fun _ hp => hp.congr hm hc, ha⟩

instance : Aside Tidies where
  supplies _ _ _ _ := tidies_of_same rfl rfl rfl rfl fun _ _ => id
  record _ _ := tidies_of_books ⟨rfl, rfl, rfl, rfl, rfl, rfl, rfl⟩ fun _ hp =>
    hp.of_machine rfl (Machine.admits_of_eq rfl)

theorem tidies_addChannel {peer : Peer} (hp : ∀ e, peer = .exported e → e.served = []) :
    Within Tidies (addChannel peer) :=
  fun _ => tidies_of_books ⟨rfl, rfl, rfl, rfl, rfl, rfl, rfl⟩ fun _ hc => covers_addChannel hc hp

end Host

theorem HostM.runOn_ensuring {α : Type} (h : Host) (x : HostM α) (cleanup : HostM Unit) :
    (runOn h (ensuring x cleanup)).2 = (runOn (runOn h x).2 cleanup).2 := by
  unfold ensuring
  rw [runOn_bind, runOn_outcome]
  simp only [runOn_bind]
  rcases runOn (runOn h x).2 cleanup with ⟨e | u, h'⟩ <;> rfl

namespace Link

open Host

variable {α : Type} {l : Link}

theorem tidies_perform (key : SessionKey) (op : Op) (l : Link) : Within Tidies (l.perform key op) :=
  fun h => tidies_of_books (sameBooks_perform l key op h) fun _ => covers_perform key op l

theorem tidies_performRef (key : SessionKey) (op : Op) (l : Link) :
    Within Tidies (l.performRef key op) :=
  (tidies_perform key op l).bind fun _ => within_settle _

theorem tidies_setResolver (r : Resolver) (l : Link) : Within Tidies (l.setResolver r) :=
  fun h => tidies_of_books
    (l.within_setResolver (S := fun _ => True) (T := fun _ => True) r h).toSameBooks
    fun _ => covers_setResolver r l

theorem tidies_finalize (l : Link) : Within Tidies l.finalize :=
  fun _ => tidies_of_books
    (spares_finalize (S := fun _ => False) (T := fun _ => False) (fun _ _ => id)
      fun _ _ => id).toSameBooks fun _ => covers_finalize l

/-- A session that is opened for an action is closed after it, whatever comes of the action. -/
theorem tidies_withSession {f : SessionKey → HostM α} (hf : ∀ key, Within Tidies (f key)) :
    Within Tidies (l.withSession f) := by
  intro h
  have hopen := sameBooks_openSession l h
  unfold withSession
  rw [runOn_bind]
  rcases hr : runOn h l.openSession with ⟨e | key, h₁⟩
  · rw [hr] at hopen
    exact tidies_of_books hopen fun p hp => covers_openSession_error hp hr
  · rw [hr] at hopen
    have hbody := hf key h₁
    have hclose := sameBooks_closeSession l key (runOn h₁ (f key)).2
    simp only []
    rw [runOn_ensuring]
    -- For as long as it is open the session is on the list, at the head.
    refine ⟨?_, ?_, fun p hp => ?_, fun m k hm => ?_⟩
    · rw [hclose.sessions, hbody.sessions, hopen.sessions]
    · rw [hclose.nextSession, hbody.nextSession, hopen.nextSession]
    · exact covers_closeSession (hbody.covers _ (covers_openSession_ok hp hr))
    · have hm₁ := attended_of_eq hopen.managers (by rw [hopen.fleet]) m k hm
      exact attended_of_eq hclose.managers (by rw [hclose.fleet]) m k (hbody.attends m k hm₁)

end Link

namespace Host

theorem tidies_newInterp (l : LoaderId) (image : Nat) (searchPaths plugins : List String) :
    Within Tidies (newInterp l image searchPaths plugins) := by
  unfold newInterp
  refine (within_useEntryPoint l image _ _).bind fun behaviour => ?_
  refine Within.bind (fun h => ?_) fun k => ?_
  · exact tidies_of_books ⟨rfl, rfl, rfl, rfl, rfl, rfl, rfl⟩ fun _ hp =>
      hp.of_machine rfl (Machine.admits_create searchPaths behaviour.failFinalize _ h.machine)
  · split
    · refine Within.map (tidies_addChannel fun e he => ?_) Link.channel
      cases he
      rfl
    · exact within_pure _

end Host

namespace Instance

open Host

variable {α : Type}

theorem tidies_withSession {i : Instance} {f : Link → SessionKey → HostM α}
    (hf : ∀ l key, Within Tidies (f l key)) : Within Tidies (i.withSession f) := by
  unfold withSession
  split
  · exact within_throw _
  · rename_i link hl
    exact Link.tidies_withSession (hf link)

theorem tidies_adopt (registry : Nat) (i : Instance) : Within Tidies (i.adopt registry) := by
  refine Within.bind (tidies_withSession fun l key => ?_) fun _ => ?_
  · exact (l.tidies_performRef key _).bind fun version => (l.tidies_performRef key _).bind fun number =>
      (l.tidies_perform key _).bind fun _ => within_pure _
  · unfold setResolver
    split
    · exact within_throw _
    · rename_i link hl
      exact link.tidies_setResolver _

theorem tidies_close (i : Instance) : Within Tidies i.close :=
  within_close fun l _ => l.tidies_finalize

theorem tidies_load (number : Nat) (spec : ImageSpec) (env : EnvironmentId) :
    Within Tidies (Instance.load number spec env) :=
  within_load number spec env fun _ _ _ _ _ hcleanup hf =>
    ((tidies_newInterp _ _ _ _).onFailure hcleanup).bind fun link => hf link link.tidies_finalize

end Instance

namespace Host

variable {h h' : Host}

theorem tidies_addInstance (i : Instance) : Within Tidies (addInstance i) :=
  fun _ => tidies_of_same rfl rfl rfl rfl fun _ _ => id

theorem tidies_loadMember (spec : ManagerSpec) (registry number : Nat) :
    Within Tidies (loadMember spec registry number) := by
  refine (Instance.tidies_load _ _ _).bind fun i => Within.bind ?_ fun _ => tidies_addInstance i
  exact (i.tidies_adopt registry).onFailure i.tidies_close.ignoring

theorem tidies_closeInstance (n : InstanceId) : Within Tidies (closeInstance n) :=
  (within_find _).bind fun i =>
    Within.bind (fun _ => tidies_of_same rfl rfl rfl rfl fun _ _ => id) fun _ => i.tidies_close

theorem tidies_closeInstances (ns : List InstanceId) : Within Tidies (closeInstances ns) :=
  within_closeInstances fun n _ => tidies_closeInstance n

theorem tidies_dropInstances (ns : List InstanceId) : Within Tidies (dropInstances ns) :=
  within_dropInstances fun n _ => tidies_closeInstance n

theorem tidies_loadMembers (spec : ManagerSpec) (registry : Nat) (loaded : List InstanceId)
    (number count : Nat) : Within Tidies (loadMembers spec registry loaded number count) := by
  induction count generalizing loaded number with
  | zero => exact within_pure _
  | succ count ih =>
    refine Within.bind ?_ fun n => ih (loaded ++ [n]) (number + 1)
    exact (tidies_loadMember spec registry number).onFailure (tidies_dropInstances loaded)

theorem tidies_addBalancer (n : Nat) : Within Tidies (addBalancer n) := by
  intro h
  by_cases hn : n = 0
  · subst hn
    exact Frame.refl h
  · obtain ⟨b, -, -, hr⟩ := addBalancer_ok hn h
    rw [hr]
    refine tidies_of_same rfl rfl rfl rfl fun m k hm => ⟨hm.1, ?_⟩
    rw [List.length_append]
    exact Nat.lt_add_right _ hm.2

theorem tidies_addManager (manager : Manager) : Within Tidies (addManager manager) := by
  refine fun h => tidies_of_same rfl rfl rfl rfl fun m k hm => ?_
  obtain ⟨⟨old, hm, hk⟩, hlt⟩ := hm
  exact ⟨⟨old, (List.getElem?_append_left (List.getElem?_eq_some_iff.1 hm).1).trans hm, hk⟩, hlt⟩

theorem tidies_buildManager (spec : ManagerSpec) : Within Tidies (buildManager spec) := by
  unfold buildManager
  split
  · exact within_throw _
  · refine Within.bind (fun _ => tidies_of_same rfl rfl rfl rfl fun _ _ => id) fun registry => ?_
    exact (tidies_loadMembers spec registry [] 0 spec.count).bind fun instances =>
      (tidies_addBalancer spec.count).bind fun balancer => tidies_addManager _

theorem tidies_loadInstance (number : Nat) (spec : ImageSpec) (env : EnvironmentId) :
    Within Tidies (loadInstance number spec env) :=
  (Instance.tidies_load number spec env).bind fun i => tidies_addInstance i

theorem tidies_unloadFrom (r : Replica) (n : InstanceId) : Within Tidies (unloadFrom r n) :=
  (within_requireOwned r.manager n).bind fun _ => (within_find _).bind fun _ =>
    Instance.tidies_withSession fun l key => (l.tidies_perform key _).bind fun _ => within_pure _

theorem tidies_unloadFromEach (r : Replica) (ns : List InstanceId) :
    Within Tidies (unloadFromEach r ns) := by
  induction ns with
  | nil => exact within_pure _
  | cons n ns ih =>
    exact (tidies_unloadFrom r n).outcome.bind fun _ => ih.outcome.bind fun _ =>
      (within_settle _).bind fun _ => within_settle _

theorem tidies_unloadAll (n : ReplicaId) : Within Tidies (unloadAll n) :=
  (within_find _).bind fun r => (within_find _).bind fun manager =>
    (tidies_unloadFromEach r manager.instances).bind fun _ _ =>
      tidies_of_same rfl rfl rfl rfl fun _ _ => id

theorem tidies_unload (n : ReplicaId) (on : Option InstanceId) : Within Tidies (unload n on) := by
  cases on with
  | some home => exact (within_find _).bind fun r => tidies_unloadFrom r home
  | none => exact tidies_unloadAll n

theorem tidies_dropReplica (n : ReplicaId) : Within Tidies (dropReplica n) := by
  refine (within_find _).bind fun r => ?_
  have hforget : Within Tidies (modify fun h => { h with replicas := h.replicas.erase n }) :=
    fun _ => tidies_of_same rfl rfl rfl rfl fun _ _ => id
  split
  · exact fun _ => tidies_of_same rfl rfl rfl rfl fun _ _ => id
  · split
    · exact (tidies_unloadAll n).ignoring.bind fun _ => hforget
    · exact hforget

theorem tidies_perform (s : SessionId) (op : Op) : Within Tidies (Host.perform s op) :=
  (within_find _).bind fun session => Link.tidies_perform session.key op session.link

theorem tidies_takeObjectId (m : ManagerId) : Within Tidies (takeObjectId m) := by
  intro h
  rcases find_cases (fun h => h.managers[m]?) h with ⟨-, hr⟩ | ⟨manager, hm, hr⟩
  · rw [takeObjectId, getManager, runOn_bind_error hr]
    exact Frame.refl h
  · rw [takeObjectId, getManager, runOn_bind_ok hr]
    refine tidies_of_same rfl rfl rfl rfl fun m' k hm' => ⟨?_, hm'.2⟩
    obtain ⟨old, hold, hk⟩ := hm'.1
    by_cases he : m = m'
    · subst he
      obtain rfl := Option.some.inj (hm.symm.trans hold)
      exact ⟨_, List.getElem?_set_self (List.getElem?_eq_some_iff.1 hm).1, hk⟩
    · exact ⟨old, (List.getElem?_set_ne he).trans hold, hk⟩

theorem tidies_createReplica (s : SessionId) (r : Ref) : Within Tidies (createReplica s r) := by
  refine (within_find _).bind fun session => ?_
  split
  · exact within_throw _
  · refine ((tidies_perform s _).bind fun _ => within_settle _).bind fun owned => ?_
    split
    · exact within_throw _
    · refine ((tidies_perform s _).bind fun _ => within_settle _).bind fun data => ?_
      exact (tidies_takeObjectId _).bind fun _ _ => tidies_of_same rfl rfl rfl rfl fun _ _ => id

theorem tidies_materialize (s : SessionId) (n : ReplicaId) : Within Tidies (materialize s n) :=
  (within_find _).bind fun r => (within_requireLoaded r).bind fun _ => (within_find _).bind fun _ =>
    (within_find _).bind fun home => (within_requireOwned r.manager home).bind fun _ =>
      (tidies_perform s _).bind fun _ => within_settle _

/-- The sessions that are open are those that the host has, and each of them that holds a slot can give it
back. -/
structure Tidy (h : Host) : Prop where
  covers : h.Covers h.book
  fresh : ∀ s, h.nextSession ≤ s → h.sessions.get? s = none
  attended : ∀ s session m home slot, h.sessions.get? s = some session →
    session.origin = .balanced m home slot → ∃ k, h.Attended m k

variable {α : Type} {session : Session} {s : SessionId}

theorem tidy_empty : Tidy {} where
  covers :=
    { known := fun x hx => by cases hx
      seated := fun x hx => by cases hx
      opens := fun k key ho => by cases ho
      served := fun c e he => by cases he }
  fresh _ _ := rfl
  attended s session m home slot hs := by cases hs

theorem Tidy.of_tidies (ht : h.Tidy) (hh : h.Tidies h') : h'.Tidy where
  covers := by
    rw [hh.book_eq]
    exact hh.covers _ ht.covers
  fresh := by
    rw [hh.sessions, hh.nextSession]
    exact ht.fresh
  attended := by
    rw [hh.sessions]
    exact fun s session m home slot hs ho =>
      (ht.attended s session m home slot hs ho).imp fun k => hh.attends m k

/-- How it goes to open a session: none is left open, or one is that the host has then. -/
inductive Enters (x : HostM SessionId) (h : Host) : Prop where
  | refused (e : Error) (h' : Host) (hr : runOn h x = (.error e, h')) (ht : h.Tidies h')
  | kept (session : Session) (h' : Host) (hr : runOn h x = (.ok h'.nextSession, h'.keep session))
    (hs : h'.sessions = h.sessions) (hn : h'.nextSession = h.nextSession)
    (hc : ∀ p, h.Covers p → h'.Covers ((session.link, session.key) :: p))
    (ha : ∀ m k, h.Attended m k → h'.Attended m k)
    (ho : ∀ m home slot, session.origin = .balanced m home slot → ∃ k, h.Attended m k)

/-- Something comes before that has to do with the balancer alone. -/
theorem Enters.after {x : HostM α} {f : α → HostM SessionId} {a : α} {fleet : Fleet}
    (hr : runOn h x = (.ok a, { h with fleet }))
    (hl : fleet.balancers.length = h.fleet.balancers.length) (hf : Enters (f a) { h with fleet }) :
    Enters (x >>= f) h := by
  have hfleet : h.Tidies { h with fleet } :=
    tidies_of_same rfl rfl rfl rfl (attended_of_eq rfl hl)
  cases hf with
  | refused e h' hr' ht =>
    exact .refused e h' (by rw [runOn_bind_ok hr, hr']) (Frame.trans hfleet ht)
  | kept session h' hr' hs hn hc ha ho =>
    refine .kept session h' (by rw [runOn_bind_ok hr, hr']) hs hn (fun p hp => ?_)
      (fun m k hm => ?_) fun m home slot he => ?_
    · exact hc p (hfleet.covers p hp)
    · exact ha m k (hfleet.attends m k hm)
    · obtain ⟨k, hk⟩ := ho m home slot he
      exact ⟨k, hk.1, Nat.lt_of_lt_of_eq hk.2 hl⟩

/-- A session is opened through a link and kept. -/
theorem enters_openThrough (link : Link) (session : SessionKey → Session)
    (hs : ∀ key, (session key).link = link ∧ (session key).key = key)
    (ho : ∀ key m home slot, (session key).origin = .balanced m home slot → ∃ k, h.Attended m k) :
    Enters (do
      let key ← link.openSession
      addSession (session key)) h := by
  have hopen := sameBooks_openSession link h
  rcases hr : runOn h link.openSession with ⟨e | key, h₁⟩
  · rw [hr] at hopen
    exact .refused e h₁ (runOn_bind_error hr _)
      (tidies_of_books hopen fun p hp => Link.covers_openSession_error hp hr)
  · rw [hr] at hopen
    obtain ⟨hlink, hkey⟩ := hs key
    refine .kept (session key) h₁ (runOn_bind_ok hr _) hopen.sessions hopen.nextSession (fun p hp => ?_)
      (attended_of_eq hopen.managers (by rw [hopen.fleet])) (ho key)
    rw [hlink, hkey]
    exact Link.covers_openSession_ok hp hr

theorem enters_openOn (n : InstanceId) (origin : Origin)
    (ho : ∀ m home slot, origin = .balanced m home slot → ∃ k, h.Attended m k) :
    Enters (do
      let i ← getInstance n
      let (link, key) ← i.openSession
      addSession { link, key, origin }) h := by
  rcases find_cases (fun h => h.instances[n]?) h with ⟨-, hr⟩ | ⟨i, hi, hr⟩
  · exact .refused _ h (runOn_bind_error hr _) (Frame.refl h)
  refine .after hr rfl ?_
  unfold Instance.openSession
  cases i.link with
  | none => exact .refused .closed h rfl (Frame.refl h)
  | some link =>
    have hopened := enters_openThrough (h := h) link (fun key => { link, key, origin })
      (fun key => ⟨rfl, rfl⟩) fun _ => ho
    simpa only [bind_assoc, pure_bind] using hopened

theorem enters_openAlone (n : InstanceId) : Enters (openAlone n) h :=
  enters_openOn n (.alone n) fun m home slot he => by cases he

theorem enters_openBare (link : Link) : Enters (openBare link) h :=
  enters_openThrough link (fun key => { link, key, origin := .bare }) (fun _ => ⟨rfl, rfl⟩)
    fun key m home slot he => by cases he

theorem enters_openPinned (m : ManagerId) (n : InstanceId) : Enters (openPinned m n) h := by
  rcases requireOwned_cases m n h with ⟨e, hr⟩ | ⟨manager, -, -, hr⟩
  · exact .refused e h (runOn_bind_error hr _) (Frame.refl h)
  · exact .after hr rfl (enters_openOn n (.pinned m n) fun m home slot he => by cases he)

/-- A slot of a balancer that is there can be given back, whether the balancer complains or not. -/
theorem freeSlot_ok {k : Nat} (hk : k < h.fleet.balancers.length) (slot : Nat) :
    ∃ fleet, runOn h (freeSlot k slot) = (.ok (), { h with fleet }) ∧
      fleet.balancers.length = h.fleet.balancers.length := by
  simp only [freeSlot, runOn_of, Fleet.free, List.getElem?_eq_getElem hk, Option.map_some]
  rcases Balancer.free _ slot with ⟨e | u, b⟩
  · exact ⟨_, rfl, List.length_set⟩
  · exact ⟨_, rfl, List.length_set⟩

theorem tidies_freeSlot {k : Nat} (hk : k < h.fleet.balancers.length) (slot : Nat) :
    h.Tidies (runOn h (freeSlot k slot)).2 := by
  obtain ⟨fleet, hr, hl⟩ := freeSlot_ok hk slot
  rw [hr]
  exact tidies_of_same rfl rfl rfl rfl (attended_of_eq rfl hl)

theorem enters_openBalanced (m : ManagerId) (t : Thread) : Enters (openBalanced m t) h := by
  rcases find_cases (fun h => h.managers[m]?) h with ⟨-, hr⟩ | ⟨manager, hm, hr⟩
  · exact .refused _ h (runOn_bind_error hr _) (Frame.refl h)
  refine .after hr rfl ?_
  rcases acquireSlot_cases manager.balancer t h with ⟨-, hacq⟩ | ⟨slot, fleet, ha, hacq⟩
  · exact .refused _ h (runOn_bind_error hacq _) (Frame.refl h)
  · obtain ⟨b, hb, -, hset, -⟩ := Fleet.acquire_ok ha
    have hl : fleet.balancers.length = h.fleet.balancers.length := by rw [hset, List.length_set]
    have hlt : manager.balancer < fleet.balancers.length := by
      rw [hl]
      exact (List.getElem?_eq_some_iff.1 hb).1
    refine .after hacq hl ?_
    have hopened : Enters (do
        let n ← find fun _ => manager.instances[slot]?
        let i ← getInstance n
        let (link, key) ← i.openSession
        addSession { link, key, origin := .balanced m n slot }) { h with fleet } := by
      rcases find_cases (fun _ => manager.instances[slot]?) { h with fleet } with
        ⟨-, hr⟩ | ⟨n, hn, hr⟩
      · exact .refused _ _ (runOn_bind_error hr _) (Frame.refl _)
      · refine .after hr rfl (enters_openOn n _ fun m' home slot' he => ?_)
        cases he
        exact ⟨_, ⟨manager, hm, rfl⟩, hlt⟩
    -- A failure gives the slot back.
    cases hopened with
    | refused e h' hr' ht =>
      obtain ⟨e', he⟩ := onFailure_of_error hr' (freeSlot manager.balancer slot)
      obtain ⟨-, hlt'⟩ := ht.attends m _ ⟨⟨manager, hm, rfl⟩, hlt⟩
      exact .refused e' _ he (Frame.trans ht (tidies_freeSlot hlt' slot))
    | kept session h' hr' hs hn hc ha ho =>
      exact .kept session h' (onFailure_of_ok hr' _) hs hn hc ha ho

theorem enters_openFor (m : ManagerId) (on : Option InstanceId) (t : Thread) :
    Enters (openFor m on t) h := by
  cases on with
  | some home => exact enters_openPinned m home
  | none => exact enters_openBalanced m t

theorem Tidy.keep (ht : h.Tidy) (hs : h'.sessions = h.sessions) (hn : h'.nextSession = h.nextSession)
    (hc : ∀ p, h.Covers p → h'.Covers ((session.link, session.key) :: p))
    (ha : ∀ m k, h.Attended m k → h'.Attended m k)
    (ho : ∀ m home slot, session.origin = .balanced m home slot → ∃ k, h.Attended m k) :
    (h'.keep session).Tidy where
  covers := by
    have hnew : h'.sessions.get? h'.nextSession = none := by
      rw [hs, hn]
      exact ht.fresh _ (Nat.le_refl _)
    have hbook : (h'.keep session).book = h.book ++ [(session.link, session.key)] := by
      rw [book, Host.keep, Table.entries_insert_new hnew, List.map_append, hs]
      rfl
    have hcovers : (h'.keep session).Covers ((session.link, session.key) :: h.book) :=
      (hc _ ht.covers).congr rfl rfl
    rw [hbook]
    exact hcovers.perm (List.perm_append_singleton _ _).symm
  fresh s hle := by
    have hlt : h'.nextSession < s := hle
    rw [Host.keep, Table.get?_insert_of_ne (Nat.ne_of_gt hlt), hs]
    exact ht.fresh s (hn ▸ Nat.le_of_lt hlt)
  attended s other m home slot hs' he := by
    have hold : ∃ k, h.Attended m k := by
      rcases Table.get?_insert_eq_some.1 hs' with ⟨-, rfl⟩ | ⟨-, hs'⟩
      · exact ho m home slot he
      · exact ht.attended s other m home slot (hs ▸ hs') he
    exact hold.imp fun k => ha m k

theorem Tidy.enters {x : HostM SessionId} (ht : h.Tidy) (hx : Enters x h) : (runOn h x).2.Tidy := by
  cases hx with
  | refused e h' hr hh =>
    rw [hr]
    exact ht.of_tidies hh
  | kept session h' hr hs hn hc ha ho =>
    rw [hr]
    exact ht.keep hs hn hc ha ho

/-- The host has one session less. -/
theorem Tidy.erase (ht : h.Tidy) (hs : h.sessions.get? s = some session)
    (hsessions : h'.sessions = h.sessions.erase s) (hn : h'.nextSession = h.nextSession)
    (hc : ∀ p, h.Covers ((session.link, session.key) :: p) → h'.Covers p)
    (ha : ∀ m k, h.Attended m k → h'.Attended m k) : h'.Tidy where
  covers := by
    have hperm : h.book.Perm ((session.link, session.key) :: h'.book) := by
      rw [book, book, hsessions]
      exact (Table.perm_erase hs).map _
    exact hc _ (ht.covers.perm hperm)
  fresh s' hle := by
    rw [hsessions, Table.get?_erase, ht.fresh s' (hn ▸ hle), ite_self]
  attended s' other m home slot hs' ho := by
    rw [hsessions] at hs'
    obtain ⟨-, hs'⟩ := Table.get?_erase_eq_some.1 hs'
    exact (ht.attended s' other m home slot hs' ho).imp fun k => ha m k

/-- Of a session that is closed nothing is left open. -/
theorem Tidy.closeSession (ht : h.Tidy) (s : SessionId) : (runOn h (closeSession s)).2.Tidy := by
  rcases find_cases (fun h => h.sessions.get? s) h with ⟨-, hr⟩ | ⟨session, hs, -⟩
  · rw [Host.closeSession, getSession, runOn_bind_error hr]
    exact ht
  -- The slot is given back first. That cannot fail, or the session would stay open.
  · have hlast (fleet : Fleet) (hl : fleet.balancers.length = h.fleet.balancers.length) :
        (runOn { h with sessions := h.sessions.erase s, fleet }
          (session.link.closeSession session.key)).2.Tidy := by
      have hb := sameBooks_closeSession session.link session.key
        { h with sessions := h.sessions.erase s, fleet }
      refine ht.erase hs hb.sessions hb.nextSession (fun p hp => ?_) fun m k hm => ?_
      · have hp' : Covers ((session.link, session.key) :: p)
            { h with sessions := h.sessions.erase s, fleet } := hp.congr rfl rfl
        exact Link.covers_closeSession hp'
      · exact attended_of_eq hb.managers (by rw [hb.fleet]) m k ⟨hm.1, Nat.lt_of_lt_of_eq hm.2 hl.symm⟩
    have herase : runOn h (modify fun h => { h with sessions := h.sessions.erase s }) =
        (.ok (), { h with sessions := h.sessions.erase s }) := rfl
    rw [Host.closeSession, runOn_bind_ok (getSession_ok hs), runOn_bind_ok herase]
    cases ho : session.origin with
    | balanced m home slot =>
      obtain ⟨k, ⟨manager, hm, rfl⟩, hlt⟩ := ht.attended s session m home slot hs ho
      have hget : runOn { h with sessions := h.sessions.erase s } (getManager m) =
          (.ok manager, { h with sessions := h.sessions.erase s }) := getManager_ok hm
      obtain ⟨fleet, hfree, hl⟩ := freeSlot_ok (h := { h with
        sessions := h.sessions.erase s }) hlt slot
      simp only []
      rw [runOn_bind_ok hget, runOn_bind_ok hfree]
      exact hlast fleet hl
    | bare | alone | pinned => exact hlast h.fleet rfl

theorem Tidy.setCurrent (ht : h.Tidy) (s : SessionId) (r : Ref) :
    (runOn h (setCurrent s r)).2.Tidy ∧ (runOn h (setCurrent s r)).2.book = h.book := by
  rcases find_cases (fun h => h.sessions.get? s) h with ⟨-, hr⟩ | ⟨session, hs, -⟩
  · rw [Host.setCurrent, getSession, runOn_bind_error hr]
    exact ⟨ht, rfl⟩
  · rw [Host.setCurrent, runOn_bind_ok (getSession_ok hs)]
    have hbook : book { h with
        sessions := h.sessions.insert s { session with current := some r } } = h.book :=
      Table.map_insert_old hs rfl
    refine ⟨⟨?_, fun s' hle => ?_, fun s' other m home slot hs' ho => ?_⟩, hbook⟩
    · have hcovers : Covers h.book { h with
          sessions := h.sessions.insert s { session with current := some r } } :=
        ht.covers.congr rfl rfl
      exact hbook ▸ hcovers
    · have hne : s' ≠ s := by
        rintro rfl
        cases hs.symm.trans (ht.fresh s' hle)
      exact (Table.get?_insert_of_ne hne).trans (ht.fresh s' hle)
    · rcases Table.get?_insert_eq_some.1 hs' with ⟨-, rfl⟩ | ⟨-, hs'⟩
      · exact ht.attended s session m home slot hs ho
      · exact ht.attended s' other m home slot hs' ho

/-- What an action leaves open, the host has. -/
abbrev StaysTidy (h h' : Host) : Prop := h.Tidy → h'.Tidy

theorem staysTidy_of_tidies {x : HostM α} (hx : Within Tidies x) : Within StaysTidy x :=
  hx.mono fun _ _ hh ht => ht.of_tidies hh

theorem staysTidy_attach (n : ReplicaId) (s : SessionId) : Within StaysTidy (attach n s) := by
  have hset (r : Ref) : Within StaysTidy (setCurrent s r) := fun _ ht => (ht.setCurrent s r).1
  have hclose : Within StaysTidy (closeSession s) := fun _ ht => ht.closeSession s
  exact (((staysTidy_of_tidies (tidies_materialize s n)).bind hset).onFailure hclose).bind
    fun _ => within_pure s

theorem attach_error {n : ReplicaId} {e : Error} (hs : h.sessions.get? s = some session)
    (hr : runOn h (attach n s) = (.error e, h')) : h'.sessions = h.sessions.erase s := by
  have hbooks := sameBooks_materialize s n h
  unfold attach at hr
  rcases hm : runOn h (materialize s n) with ⟨e₁ | r, h₁⟩
  · rw [hm] at hbooks
    obtain ⟨e', he⟩ := onFailure_of_error (runOn_bind_error hm (Host.setCurrent s)) (closeSession s)
    rw [runOn_bind_error he] at hr
    obtain rfl := (Prod.mk.inj hr).2
    have hs₁ : h₁.sessions.get? s = some session := by rw [hbooks.sessions, hs]
    exact (closeSession_keeps hs₁).sessions.trans (congrArg (Table.erase · s) hbooks.sessions)
  · rw [hm] at hbooks
    have hs₁ : h₁.sessions.get? s = some session := by rw [hbooks.sessions, hs]
    have hset : runOn h₁ (setCurrent s r) = (.ok (), { h₁ with
        sessions := h₁.sessions.insert s { session with current := some r } }) := by
      rw [setCurrent, runOn_bind_ok (getSession_ok hs₁)]
      rfl
    rw [runOn_bind_ok (onFailure_of_ok ((runOn_bind_ok hm _).trans hset) _)] at hr
    cases hr

/-- Of a session for a value that could not be opened nothing is left open. -/
theorem Tidy.openReplica (ht : h.Tidy) (n : ReplicaId) (on : Option InstanceId) (t : Thread) :
    (runOn h (Host.openReplica n on t)).2.Tidy ∧ ∀ e,
      (runOn h (Host.openReplica n on t)).1 = .error e →
        (runOn h (Host.openReplica n on t)).2.book.Perm h.book := by
  have heq : Host.openReplica n on t = (do
      let r ← getReplica n
      requireLoaded r
      openFor r.manager on t >>= Host.attach n) := openReplica_eq n on t
  rw [heq]
  cases hr : h.replicas.get? n with
  | none =>
    rw [runOn_bind_error (getReplica_none hr)]
    exact ⟨ht, fun _ _ => .refl _⟩
  | some r =>
    rw [runOn_bind_ok (getReplica_ok hr)]
    cases hu : r.unloaded with
    | true =>
      rw [runOn_bind_error (requireLoaded_unloaded hu h)]
      exact ⟨ht, fun _ _ => .refl _⟩
    | false =>
      rw [runOn_bind_ok (requireLoaded_ok hu h)]
      cases enters_openFor (h := h) r.manager on t with
      | refused e h₁ hr₁ hh =>
        rw [runOn_bind_error hr₁]
        exact ⟨ht.of_tidies hh, fun _ _ => .of_eq hh.book_eq⟩
      | kept session h₁ hr₁ hs hn hc ha ho =>
        rw [runOn_bind_ok hr₁]
        have ht₁ : (h₁.keep session).Tidy := ht.keep hs hn hc ha ho
        refine ⟨staysTidy_attach n _ _ ht₁, fun e he => ?_⟩
        -- The session was added to the book and taken out again.
        have hget : (h₁.keep session).sessions.get? h₁.nextSession = some session := by
          rw [Host.keep, Table.get?_insert_self]
        have hsessions := attach_error hget (Prod.ext he rfl)
        have hnew : h₁.sessions.get? h₁.nextSession = none := by
          rw [hs, hn]
          exact ht.fresh _ (Nat.le_refl _)
        have hfirst : (h₁.keep session).sessions.entries =
            h.sessions.entries ++ [(h₁.nextSession, session)] := by
          rw [Host.keep, Table.entries_insert_new hnew, hs]
        have hperm := (List.perm_append_singleton _ _).symm.trans
          (hfirst ▸ Table.perm_erase hget)
        rw [← hsessions] at hperm
        exact (hperm.cons_inv.map _).symm

end Host

/-- Whether an action leaves the sessions as they are that a host has. -/
def Action.Errand : Action → Prop
  | register .. | perform .. | createReplica .. | materialize .. | unload .. | cloneReplica _
  | dropReplica _ => True
  | _ => False

/-- Whether a deed is proper and comes to interpreters through the host alone: no bytes reach one around
its channel. -/
def Deed.Hosted (h : Host) : Deed → Prop
  | dispatch c bytes =>
    (Deed.dispatch c bytes).Proper h ∧ ∀ live e, h.channels[c]? ≠ some ⟨live, .exported e⟩
  | d => d.Proper h

namespace Host

variable {α : Type} {h h' : Host}

theorem tidies_errand {a : Action} (ha : a.Errand) : Within Tidies a.run := by
  cases a with
  | register m name source =>
    exact (within_find _).bind fun _ => ((within_find _).bind fun _ => within_find _).bind
      fun _ _ => tidies_of_same rfl rfl rfl rfl fun _ _ => id
  | perform s op => exact (tidies_perform s op).lost
  | createReplica s r => exact (tidies_createReplica s r).lost
  | materialize s n => exact (tidies_materialize s n).lost
  | unload n on => exact tidies_unload n on
  | cloneReplica n =>
    exact Within.lost ((within_find _).bind fun r =>
      Within.bind (fun _ => tidies_of_same rfl rfl rfl rfl fun _ _ => id) fun _ => within_pure _)
  | dropReplica n => exact tidies_dropReplica n
  | _ => exact ha.elim

/-- Each action, whether it succeeds or fails, leaves open what the host has. -/
theorem staysTidy_run {a : Action} (ha : (Deed.act a).Told) : Within StaysTidy a.run := by
  have hadd {β : Type} {x : HostM β} (hx : Within Tidies x) : Within StaysTidy (do let _ ← x) :=
    (staysTidy_of_tidies hx).lost
  cases a with
  | addLoader | addSource | addEnvironment =>
    exact hadd fun _ => tidies_of_same rfl rfl rfl rfl fun _ _ => id
  | buildManager spec => exact hadd (tidies_buildManager spec)
  | loadInstance number spec env => exact hadd (tidies_loadInstance number spec env)
  | openBalanced m t => exact Within.lost fun _ ht => ht.enters (enters_openBalanced m t)
  | openPinned m n => exact Within.lost fun _ ht => ht.enters (enters_openPinned m n)
  | openAlone n => exact Within.lost fun _ ht => ht.enters (enters_openAlone n)
  | openReplica n on t => exact Within.lost fun _ ht => (ht.openReplica n on t).1
  | closeSession s => exact fun _ ht => ht.closeSession s
  | setCurrent s r => exact fun _ ht => (ht.setCurrent s r).1
  | shutdown m =>
    exact staysTidy_of_tidies ((within_find _).bind fun _ => tidies_closeInstances _)
  | dropManager m =>
    exact staysTidy_of_tidies ((within_find _).bind fun _ => tidies_dropInstances _)
  | closeInstance n => exact staysTidy_of_tidies (tidies_closeInstance n)
  | dropInstance n => exact staysTidy_of_tidies (tidies_closeInstance n).ignoring
  | elsewhere m cs => exact ha.elim
  | register | perform | createReplica | materialize | unload | cloneReplica | dropReplica =>
    exact staysTidy_of_tidies (tidies_errand trivial)

theorem tidies_onChannel {c : Nat} {f : ChannelStep α}
    (hf : ∀ live e, h.channels[c]? = some ⟨live, .exported e⟩ →
      Channel.Settles ⟨live, (h.machine, e)⟩
        (f (Endpoint.image h.texts) ⟨live, (h.machine, e)⟩).2) :
    h.Tidies (runOn h (onChannel c f)).2 := by
  refine tidies_of_books ?_ fun _ hp => covers_onChannel hp hf
  unfold onChannel
  rw [runOn_of]
  split <;> exact ⟨rfl, rfl, rfl, rfl, rfl, rfl, rfl⟩

/-- What is open after a deed, the host has. -/
theorem Tidy.doing {d : Deed} (ht : h.Tidy) (hd : d.Hosted h) : (h.doing d).Tidy := by
  have hlost {β : Type} {x : HostM β} (hx : h.Tidies (runOn h x).2) :
      (runOn h (do let _ ← x)).2.Tidy := by
    rw [runOn_lost]
    exact ht.of_tidies hx
  have hbooks {h' : Host} (hb : h.SameBooks h') (hc : h'.channels = h.channels)
      (hm : h.machine.Admits (fun _ _ => False) h'.machine) : h.Tidies h' :=
    tidies_of_books hb fun _ hp => hp.of_machine hc hm
  -- Most deeds leave the sessions of the host alone, and open none.
  cases d with
  | act a =>
    refine staysTidy_run ?_ h ht
    cases a with
    | elsewhere => exact hd
    | _ => trivial
  | addInterp =>
    exact hlost (hbooks ⟨rfl, rfl, rfl, rfl, rfl, rfl, rfl⟩ rfl (Machine.admits_create [] false none _))
  | exportInterp n =>
    refine hlost (tidies_addChannel (fun e he => ?_) h)
    cases he
    rfl
  | addScript script => exact hlost (tidies_addChannel (fun e he => by cases he) h)
  | openBare link =>
    have hstays : Within StaysTidy (do let _ ← openBare link) :=
      Within.bind (fun _ ht => ht.enters (enters_openBare link)) fun _ => within_pure _
    exact hstays h ht
  | setResolver link r => exact ht.of_tidies (link.tidies_setResolver r h)
  | finalize link => exact ht.of_tidies (link.tidies_finalize h)
  | dispatch c bytes =>
    exact hlost (tidies_onChannel fun live e hc => absurd hc (hd.2 live e))
  | finalizeImage c =>
    exact hlost (tidies_onChannel fun live e _ => Channel.settles_finalizeImage live h.machine e)
  | installAnswers n answers =>
    exact ht.of_tidies (hbooks ⟨rfl, rfl, rfl, rfl, rfl, rfl, rfl⟩ rfl (Machine.admits_setResolver n _ _))

/-- Every deed comes to interpreters through the host alone. -/
def AllHosted (h : Host) : List Deed → Prop
  | [] => True
  | d :: deeds => d.Hosted h ∧ (h.doing d).AllHosted deeds

theorem AllHosted.proper {deeds : List Deed} (hd : h.AllHosted deeds) : h.AllProper deeds := by
  induction deeds generalizing h with
  | nil => trivial
  | cons d deeds ih =>
    refine ⟨?_, ih hd.2⟩
    cases d with
    | dispatch c bytes => exact hd.1.1
    | _ => exact hd.1

theorem Tidy.afterDeeds {deeds : List Deed} (ht : h.Tidy) (hd : h.AllHosted deeds) :
    (h.afterDeeds deeds).Tidy := by
  induction deeds generalizing h with
  | nil => exact ht
  | cons d deeds ih => exact ih (ht.doing hd.1) hd.2

end Host
end InstancePool
