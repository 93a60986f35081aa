import InstancePool.Host.Inventory

/-!
Runs of a host: one action after another, by any threads, whether they succeed or fail. What borrows
from a manager or an instance keeps it from being ended.
-/

namespace InstancePool

/-- Something that the users of a host do, or that happens without the host. -/
inductive Action where
  | addLoader (loader : Loader)
  | addSource (source : Source)
  | addEnvironment (environment : Environment)
  | buildManager (spec : ManagerSpec)
  | loadInstance (number : Nat) (spec : ImageSpec) (environment : EnvironmentId)
  | register (manager : ManagerId) (name source : String)
  | openBalanced (manager : ManagerId) (thread : Thread)
  | openPinned (manager : ManagerId) (home : InstanceId)
  | openAlone (home : InstanceId)
  | openReplica (replica : ReplicaId) (on : Option InstanceId) (thread : Thread)
  | closeSession (session : SessionId)
  | perform (session : SessionId) (op : Op)
  | setCurrent (session : SessionId) (r : Ref)
  | createReplica (session : SessionId) (r : Ref)
  | materialize (session : SessionId) (replica : ReplicaId)
  | unload (replica : ReplicaId) (on : Option InstanceId)
  | cloneReplica (replica : ReplicaId)
  | dropReplica (replica : ReplicaId)
  | shutdown (manager : ManagerId)
  | dropManager (manager : ManagerId)
  | closeInstance (home : InstanceId)
  | dropInstance (home : InstanceId)
  /-- The interpreters and images change in some way of their own. -/
  | elsewhere (machine : Machine) (channels : List (Channel Peer))

namespace Action

open HostM Host

/-- Runs an action. Its outcome is lost. -/
def run : Action → HostM Unit
  | addLoader loader => do let _ ← Host.addLoader loader
  | addSource source => do let _ ← Host.addSource source
  | addEnvironment environment => do let _ ← Host.addEnvironment environment
  | buildManager spec => do let _ ← Host.buildManager spec
  | loadInstance number spec environment => do let _ ← Host.loadInstance number spec environment
  | register manager name source => Host.register manager name source
  | openBalanced manager thread => do let _ ← Host.openBalanced manager thread
  | openPinned manager home => do let _ ← Host.openPinned manager home
  | openAlone home => do let _ ← Host.openAlone home
  | openReplica replica on thread => do let _ ← Host.openReplica replica on thread
  | closeSession session => Host.closeSession session
  | perform session op => do let _ ← Host.perform session op
  | setCurrent session r => Host.setCurrent session r
  | createReplica session r => do let _ ← Host.createReplica session r
  | materialize session replica => do let _ ← Host.materialize session replica
  | unload replica on => Host.unload replica on
  | cloneReplica replica => do let _ ← Host.cloneReplica replica
  | dropReplica replica => Host.dropReplica replica
  | shutdown manager => Host.shutdown manager
  | dropManager manager => Host.dropManager manager
  | closeInstance home => Host.closeInstance home
  | dropInstance home => Host.dropInstance home
  | elsewhere machine channels => modify fun h => { h with machine, channels }

/-- The manager of a session. -/
def managerOf? (h : Host) (s : SessionId) : Option Manager := do
  let session ← h.sessions.get? s
  let m ← session.origin.manager?
  h.managers[m]?

/-- Whether an action can be taken. A manager cannot be ended as long as there are sessions on its
instances or values of it, nor an instance as long as a manager owns it or there are sessions on it.
There is room for one more session: a host holds fewer than `2 ^ 64` of them. -/
def Allowed (h : Host) : Action → Prop
  | openBalanced .. | openPinned .. | openAlone .. | openReplica .. => h.sessions.size + 1 < 2 ^ 64
  | shutdown manager | dropManager manager =>
    h.sessionsOf manager = [] ∧ h.replicasOf manager = []
  | closeInstance home | dropInstance home => h.ownerOf home = none ∧ h.sessionsOn home = []
  | _ => True

instance (h : Host) : DecidablePred (Allowed h)
  | openBalanced .. | openPinned .. | openAlone .. | openReplica .. =>
    inferInstanceAs (Decidable (h.sessions.size + 1 < 2 ^ 64))
  | shutdown manager | dropManager manager => inferInstanceAs (Decidable
      (h.sessionsOf manager = [] ∧ h.replicasOf manager = []))
  | closeInstance home | dropInstance home =>
    inferInstanceAs (Decidable (h.ownerOf home = none ∧ h.sessionsOn home = []))
  | addLoader .. | addSource .. | addEnvironment .. | buildManager .. | loadInstance .. | register ..
  | closeSession .. | perform .. | setCurrent .. | createReplica .. | materialize .. | unload ..
  | cloneReplica .. | dropReplica .. | elsewhere .. => inferInstanceAs (Decidable True)

/-- Whether an action goes through sessions, managers and replicated values alone: objects are loaded
and dropped only for values with a handle, and nothing happens elsewhere. A manager gives out fewer
than `2 ^ 64` numbers. -/
def Inside (h : Host) : Action → Prop
  | createReplica session _ =>
    ∀ manager ∈ managerOf? h session, manager.nextObject.toNat + 1 < 2 ^ 64
  | perform _ (.restore ..) | perform _ (.unload _) | elsewhere .. => False
  | _ => True

instance (h : Host) : DecidablePred (Inside h) := fun a => by
  unfold Inside
  split <;> infer_instance

end Action

namespace Host

/-- The host after an action. -/
def step (h : Host) (a : Action) : Host := (HostM.runOn h a.run).2

/-- The host after some actions. -/
def after (h : Host) (actions : List Action) : Host := actions.foldl step h

/-- Each action has a property where its turn comes. -/
def Permits (P : Host → Action → Prop) (h : Host) : List Action → Prop
  | [] => True
  | a :: actions => P h a ∧ (h.step a).Permits P actions

instance decidablePermits (P : Host → Action → Prop) [∀ h, DecidablePred (P h)] (h : Host)
    (actions : List Action) : Decidable (h.Permits P actions) :=
  match actions with
  | [] => isTrue trivial
  | a :: actions => @instDecidableAnd _ _ _ (decidablePermits P (h.step a) actions)

/-- What every step keeps holds after every run. -/
theorem after_of_step {P : Host → Action → Prop} {I : Host → Prop}
    (hs : ∀ h a, I h → P h a → I (h.step a)) {h : Host} (hh : I h) {actions : List Action}
    (ha : h.Permits P actions) : I (h.after actions) := by
  induction actions generalizing h with
  | nil => exact hh
  | cons a actions ih => exact ih (hs h a hh ha.1) ha.2

theorem permits_append {P : Host → Action → Prop} {h : Host} {earlier later : List Action} :
    h.Permits P (earlier ++ later) ↔ h.Permits P earlier ∧ (h.after earlier).Permits P later := by
  induction earlier generalizing h with
  | nil => exact (and_iff_right trivial).symm
  | cons a actions ih =>
    rw [List.cons_append, Permits, Permits, ih, and_assoc]
    rfl

theorem after_append (h : Host) (earlier later : List Action) :
    h.after (earlier ++ later) = (h.after earlier).after later :=
  List.foldl_append

end Host

end InstancePool
