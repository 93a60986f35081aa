import InstancePool.Proofs.Host.RecordInvariants

/-!
What a host does from day to day: sessions are opened, used and closed, values come and go. A relation
that holds across each use of a link, and that does not care for books, holds across all of this. If it
does not hold where a session seeks a module or a text is registered, it holds across the rest.
-/

namespace InstancePool

open HostM

/-- Whether an operation seeks a module. -/
def Op.seeks : Op → Bool
  | .global .. => true
  | _ => false

/-- A relation that holds across each use of a link, short of finalization, in which no module is sought.
Slots, sessions and values may change as they like, and so may the numbers that managers give out. -/
class Routine (R : Host → Host → Prop) : Prop extends Frame R where
  openSession : ∀ l : Link, Within R l.openSession
  perform : ∀ (l : Link) (key : SessionKey) (op : Op), op.seeks = false → Within R (l.perform key op)
  closeSession : ∀ (l : Link) (key : SessionKey), Within R (l.closeSession key)
  books : ∀ h fleet sessions nextSession replicas nextReplica,
    R h { h with fleet, sessions, nextSession, replicas, nextReplica }
  counts : ∀ h m manager nextObject, h.managers[m]? = some manager →
    R h { h with managers := h.managers.set m { manager with nextObject } }

/-- A relation that holds across each use of a link, short of finalization. Slots, sessions, values and
module texts may change as they like, and so may the numbers that managers give out. -/
class Daily (R : Host → Host → Prop) : Prop extends Frame R where
  openSession : ∀ l : Link, Within R l.openSession
  perform : ∀ (l : Link) (key : SessionKey) (op : Op), Within R (l.perform key op)
  closeSession : ∀ (l : Link) (key : SessionKey), Within R (l.closeSession key)
  setResolver : ∀ (l : Link) (r : Resolver), Within R (l.setResolver r)
  books : ∀ h registries fleet sessions nextSession replicas nextReplica,
    R h { h with registries, fleet, sessions, nextSession, replicas, nextReplica }
  counts : ∀ h m manager nextObject, h.managers[m]? = some manager →
    R h { h with managers := h.managers.set m { manager with nextObject } }

instance {R : Host → Host → Prop} [Daily R] : Routine R where
  openSession := Daily.openSession
  perform l key op _ := Daily.perform l key op
  closeSession := Daily.closeSession
  books h := Daily.books h h.registries
  counts := Daily.counts

/-- Whether an action is of this kind. -/
def Action.Everyday : Action → Prop
  | register .. | openBalanced .. | openPinned .. | openAlone _ | openReplica .. | closeSession _
  | perform .. | setCurrent .. | createReplica .. | materialize .. | unload .. | cloneReplica _
  | dropReplica _ => True
  | addLoader _ | addSource _ | addEnvironment _ | buildManager _ | loadInstance .. | shutdown _
  | dropManager _ | closeInstance _ | dropInstance _ | elsewhere .. => False

variable {α : Type} {R : Host → Host → Prop}

section Routine

variable [Routine R]

namespace Instance

theorem routine_withSession {i : Instance} {f : Link → SessionKey → HostM α}
    (hf : ∀ l key, Within R (f l key)) : Within R (i.withSession f) :=
  within_withSession Routine.openSession Routine.closeSession hf

theorem routine_openSession (i : Instance) : Within R i.openSession := by
  unfold Instance.openSession
  cases i.link with
  | none => exact within_throw _
  | some l => exact (Routine.openSession l).bind fun _ => within_pure _

end Instance

namespace Host

theorem routine_addSession (session : Session) : Within R (addSession session) :=
  fun _ => Routine.books _ _ _ _ _ _

theorem routine_openOn (n : InstanceId) (origin : Origin) :
    Within R (do
      let i ← getInstance n
      let (link, key) ← i.openSession
      addSession { link, key, origin }) :=
  (within_find _).bind fun i => i.routine_openSession.bind fun _ => routine_addSession _

theorem routine_openBare (l : Link) : Within R (openBare l) :=
  (Routine.openSession l).bind fun _ => routine_addSession _

theorem routine_openPinned (m : ManagerId) (n : InstanceId) : Within R (openPinned m n) :=
  (within_requireOwned m n).bind fun _ => routine_openOn n (.pinned m n)

theorem routine_acquireSlot (balancer : Nat) (t : Thread) : Within R (acquireSlot balancer t) := by
  intro h
  rw [acquireSlot, runOn_of]
  cases h.fleet.acquire balancer t with
  | none => exact Frame.refl h
  | some x => exact Routine.books h _ _ _ _ _

theorem routine_freeSlot (balancer slot : Nat) : Within R (freeSlot balancer slot) := by
  intro h
  obtain ⟨fleet, hf⟩ := freeSlot_eq balancer slot h
  rw [hf]
  exact Routine.books h _ _ _ _ _

theorem routine_openBalanced (m : ManagerId) (t : Thread) : Within R (openBalanced m t) := by
  refine (within_find _).bind fun manager => (routine_acquireSlot _ t).bind fun slot => ?_
  exact ((within_find _).bind fun n => routine_openOn n _).onFailure (routine_freeSlot _ slot)

theorem routine_openFor (m : ManagerId) (on : Option InstanceId) (t : Thread) :
    Within R (openFor m on t) := by
  cases on with
  | some home => exact routine_openPinned m home
  | none => exact routine_openBalanced m t

theorem routine_closeSession (s : SessionId) : Within R (closeSession s) := by
  refine (within_find _).bind fun session => ?_
  refine Within.bind (fun _ => Routine.books _ _ _ _ _ _) fun _ => ?_
  have hclose : Within R (session.link.closeSession session.key) := Routine.closeSession _ _
  cases session.origin with
  | balanced m home slot =>
    exact (within_find _).bind fun manager => (routine_freeSlot _ slot).bind fun _ => hclose
  | bare | alone | pinned => exact hclose

theorem routine_perform (s : SessionId) (op : Op) (ho : op.seeks = false) :
    Within R (Host.perform s op) :=
  (within_find _).bind fun session => Routine.perform session.link session.key op ho

theorem routine_setCurrent (s : SessionId) (r : Ref) : Within R (setCurrent s r) :=
  (within_find _).bind fun _ _ => Routine.books _ _ _ _ _ _

theorem routine_createReplica (s : SessionId) (r : Ref) : Within R (createReplica s r) := by
  refine (within_find _).bind fun session => ?_
  split
  · exact within_throw _
  · rename_i m hm
    refine ((routine_perform s _ (by rfl)).bind fun _ => within_settle _).bind fun owned => ?_
    split
    · exact within_throw _
    · refine ((routine_perform s _ (by rfl)).bind fun _ => within_settle _).bind fun data => ?_
      refine Within.bind (fun h => ?_) fun id _ => Routine.books _ _ _ _ _ _
      rcases find_cases (fun h => h.managers[m]?) h with ⟨-, hr⟩ | ⟨manager, hm, hr⟩
      · rw [takeObjectId, getManager, runOn_bind_error hr]
        exact Frame.refl h
      · rw [takeObjectId, getManager, runOn_bind_ok hr]
        exact Routine.counts h m manager _ hm

theorem routine_materialize (s : SessionId) (n : ReplicaId) : Within R (materialize s n) :=
  (within_find _).bind fun r => (within_requireLoaded r).bind fun _ => (within_find _).bind fun _ =>
    (within_find _).bind fun home => (within_requireOwned r.manager home).bind fun _ =>
      (routine_perform s _ (by rfl)).bind fun _ => within_settle _

theorem routine_openReplica (n : ReplicaId) (on : Option InstanceId) (t : Thread) :
    Within R (openReplica n on t) := by
  rw [openReplica_eq]
  refine (within_find _).bind fun r => (within_requireLoaded r).bind fun _ =>
    (routine_openFor r.manager on t).bind fun s => ?_
  refine Within.bind (Within.onFailure ?_ (routine_closeSession s)) fun _ => within_pure _
  exact (routine_materialize s n).bind fun r => routine_setCurrent s r

theorem routine_unloadFrom (r : Replica) (n : InstanceId) : Within R (unloadFrom r n) :=
  (within_requireOwned r.manager n).bind fun _ => (within_find _).bind fun _ =>
    Instance.routine_withSession fun l key => (Routine.perform l key _ (by rfl)).bind fun _ => within_pure _

theorem routine_unloadFromEach (r : Replica) (ns : List InstanceId) :
    Within R (unloadFromEach r ns) := by
  induction ns with
  | nil => exact within_pure _
  | cons n ns ih =>
    exact (routine_unloadFrom r n).outcome.bind fun _ => ih.outcome.bind fun _ =>
      (within_settle _).bind fun _ => within_settle _

theorem routine_unloadAll (n : ReplicaId) : Within R (unloadAll n) :=
  (within_find _).bind fun r => (within_find _).bind fun manager =>
    (routine_unloadFromEach r manager.instances).bind fun _ _ => Routine.books _ _ _ _ _ _

theorem routine_dropReplica (n : ReplicaId) : Within R (dropReplica n) := by
  refine (within_find _).bind fun r => ?_
  split
  · exact fun _ => Routine.books _ _ _ _ _ _
  · split
    · exact (routine_unloadAll n).ignoring.bind fun _ _ => Routine.books _ _ _ _ _ _
    · exact fun _ => Routine.books _ _ _ _ _ _

/-- The relation holds across every such action that neither registers a text nor seeks a module. -/
theorem within_routine {a : Action} (ha : a.Everyday) (hr : ∀ m name source, a ≠ .register m name source)
    (hs : ∀ s op, a = .perform s op → op.seeks = false) : Within R a.run := by
  cases a with
  | register m name source => exact absurd rfl (hr m name source)
  | openBalanced m t => exact (routine_openBalanced m t).lost
  | openPinned m n => exact (routine_openPinned m n).lost
  | openAlone n => exact (routine_openOn n (.alone n)).lost
  | openReplica n on t => exact (routine_openReplica n on t).lost
  | closeSession s => exact routine_closeSession s
  | perform s op => exact (routine_perform s op (hs s op rfl)).lost
  | setCurrent s r => exact routine_setCurrent s r
  | createReplica s r => exact (routine_createReplica s r).lost
  | materialize s n => exact (routine_materialize s n).lost
  | unload n on =>
    cases on with
    | some home => exact (within_find _).bind fun r => routine_unloadFrom r home
    | none => exact routine_unloadAll n
  | cloneReplica n =>
    exact Within.lost ((within_find _).bind fun r =>
      Within.bind (fun _ => Routine.books _ _ _ _ _ _) fun _ => within_pure _)
  | dropReplica n => exact routine_dropReplica n
  | addLoader | addSource | addEnvironment | buildManager | loadInstance | shutdown | dropManager
  | closeInstance | dropInstance | elsewhere => exact ha.elim

end Host

end Routine

section Daily

variable [Daily R]

namespace Link

theorem daily_performRef (l : Link) (key : SessionKey) (op : Op) :
    Within R (l.performRef key op) :=
  (Daily.perform l key op).bind fun _ => within_settle _

end Link

namespace Instance

theorem daily_tag (i : Instance) : Within R i.tag :=
  routine_withSession fun l key => (l.daily_performRef key _).bind fun _ =>
    (l.daily_performRef key _).bind fun _ => (Daily.perform l key _).bind fun _ => within_pure _

theorem daily_setResolver (r : Resolver) (i : Instance) : Within R (i.setResolver r) := by
  unfold Instance.setResolver
  cases i.link with
  | none => exact within_throw _
  | some l => exact Daily.setResolver l r

theorem daily_adopt (registry : Nat) (i : Instance) : Within R (i.adopt registry) :=
  i.daily_tag.bind fun _ => i.daily_setResolver _

end Instance

namespace Host

/-- The relation holds across every such action. -/
theorem within_everyday {a : Action} (ha : a.Everyday) : Within R a.run := by
  cases a with
  | register m name source =>
    exact (within_find _).bind fun _ => ((within_find _).bind fun _ => within_find _).bind
      fun _ _ => Daily.books _ _ _ _ _ _ _
  | perform s op =>
    exact Within.lost ((within_find _).bind fun session => Daily.perform session.link session.key op)
  | _ => exact within_routine ha (fun _ _ _ he => by cases he) fun _ _ he => by cases he

end Host

end Daily

end InstancePool
