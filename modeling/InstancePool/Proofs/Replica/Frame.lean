import InstancePool.Proofs.Host.RecordInvariants
import InstancePool.Proofs.Replica.LoadedObjects

/-!
Actions that have nothing to do with replicated values: the values stay as they are, and so does all
that is loaded for them.
-/

namespace InstancePool

open HostM

namespace Host

/-- The instances, the managers and the replicated values are the same. -/
structure SameValues (h h' : Host) : Prop where
  instances : h'.instances = h.instances
  managers : h'.managers = h.managers
  replicas : h'.replicas = h.replicas
  nextReplica : h'.nextReplica = h.nextReplica

/-- The values are the same, and the same objects are loaded for them. -/
structure Rests (h h' : Host) : Prop extends SameValues h h' where
  heap : h.machine.heap.Extends h'.machine.heap
  store : ∀ n, h'.store n = h.store n

/-- The instances stay wired, and nothing happens to the values. -/
def Idles (h h' : Host) : Prop := h.Wired → h'.Wired ∧ h.Rests h'

variable {α : Type} {h h' h₁ h₂ h₃ : Host}

theorem SameValues.refl (h : Host) : h.SameValues h := ⟨rfl, rfl, rfl, rfl⟩

theorem SameValues.trans (hv : h₁.SameValues h₂) (hv' : h₂.SameValues h₃) : h₁.SameValues h₃ where
  instances := hv'.instances.trans hv.instances
  managers := hv'.managers.trans hv.managers
  replicas := hv'.replicas.trans hv.replicas
  nextReplica := hv'.nextReplica.trans hv.nextReplica

theorem SameBooks.values (hb : h.SameBooks h') : h.SameValues h' :=
  ⟨hb.instances, hb.managers, hb.replicas, hb.nextReplica⟩

theorem SameValues.linkOf (hv : h.SameValues h') (n : InstanceId) : h'.linkOf n = h.linkOf n := by
  rw [Host.linkOf, Host.linkOf, hv.instances]

theorem Rests.refl (h : Host) : h.Rests h := ⟨.refl h, .refl _, fun _ => rfl⟩

theorem Rests.trans (hr : h₁.Rests h₂) (hr' : h₂.Rests h₃) : h₁.Rests h₃ where
  toSameValues := hr.toSameValues.trans hr'.toSameValues
  heap := hr.heap.trans hr'.heap
  store n := (hr'.store n).trans (hr.store n)

instance : Frame Idles where
  refl h hw := ⟨hw, .refl h⟩
  trans hi hi' hw := by
    obtain ⟨hw', hr⟩ := hi hw
    obtain ⟨hw'', hr'⟩ := hi' hw'
    exact ⟨hw'', hr.trans hr'⟩

theorem idles_of_spares (hs : h.Spares (fun _ => True) (fun _ => True) h') : h.Idles h' := by
  intro hw
  have hw' := (settles_of_spares (X := fun _ => False) hs hw).1
  exact ⟨hw', hs.toSameBooks.values, hs.machine.heap,
    fun _ => hw.store_of_spares hs fun _ _ => trivial⟩

theorem idles_within {x : HostM α} (hx : Within (Spares (fun _ => True) (fun _ => True)) x) :
    Within Idles x :=
  hx.mono fun _ _ => idles_of_spares

/-- What is said of interpreters, channels and values alone is not touched. -/
theorem idles_congr (hm : h'.machine = h.machine) (hc : h'.channels = h.channels)
    (hv : h.SameValues h') : h.Idles h' := by
  intro hw
  refine ⟨hw.congr hm hc hv.instances, hv, ?_, fun n => ?_⟩
  · rw [hm]
    exact .refl _
  · exact store_congr hm hc (hv.linkOf n)

theorem idles_openSession (i : Instance) : Within Idles i.openSession := by
  unfold Instance.openSession
  split
  · exact within_throw _
  · rename_i link hl
    exact (idles_within link.within_openSession).bind fun key => within_pure _

theorem idles_addSession (s : Session) : Within Idles (addSession s) :=
  fun _ => idles_congr rfl rfl ⟨rfl, rfl, rfl, rfl⟩

theorem idles_openOn (n : InstanceId) (origin : Origin) : Within Idles (do
    let i ← getInstance n
    let (link, key) ← i.openSession
    addSession { link, key, origin }) :=
  (within_find _).bind fun i => (idles_openSession i).bind fun _ => idles_addSession _

theorem idles_openAlone (n : InstanceId) : Within Idles (openAlone n) := idles_openOn n (.alone n)

theorem idles_openPinned (m : ManagerId) (n : InstanceId) : Within Idles (openPinned m n) :=
  (within_requireOwned m n).bind fun _ => idles_openOn n (.pinned m n)

theorem idles_freeSlot (k slot : Nat) : Within Idles (freeSlot k slot) := by
  intro h
  obtain ⟨fleet, he⟩ := freeSlot_eq k slot h
  rw [he]
  exact idles_congr rfl rfl ⟨rfl, rfl, rfl, rfl⟩

theorem idles_openBalanced (m : ManagerId) (t : Thread) : Within Idles (openBalanced m t) := by
  refine (within_find _).bind fun manager => Within.bind ?_ fun slot => ?_
  · intro h
    rw [acquireSlot, runOn_of]
    split
    · exact Frame.refl h
    · exact idles_congr rfl rfl ⟨rfl, rfl, rfl, rfl⟩
  · refine Within.onFailure ?_ (idles_freeSlot manager.balancer slot)
    exact (within_find _).bind fun n => idles_openOn n (.balanced m n slot)

theorem idles_closeSession (s : SessionId) : Within Idles (closeSession s) := by
  refine (within_find _).bind fun session => Within.bind ?_ fun _ => ?_
  · intro h
    exact idles_congr rfl rfl ⟨rfl, rfl, rfl, rfl⟩
  · have hclose : Within Idles (session.link.closeSession session.key) :=
      idles_within (session.link.within_closeSession session.key)
    split
    · rename_i m home slot ho
      exact (within_find _).bind fun manager : Manager =>
        (idles_freeSlot manager.balancer slot).bind fun _ => hclose
    · exact hclose

theorem idles_setCurrent (s : SessionId) (r : Ref) : Within Idles (setCurrent s r) :=
  (within_find _).bind fun _ _ => idles_congr rfl rfl ⟨rfl, rfl, rfl, rfl⟩

/-- Only loading and unloading change what is loaded. -/
theorem idles_perform (s : SessionId) (op : Op) (ho : op.loads = false) :
    Within Idles (perform s op) :=
  (within_find _).bind fun session => idles_within (Link.within_perform ho session.link)

theorem idles_performBool (s : SessionId) (op : Op) (ho : op.loads = false) :
    Within Idles (performBool s op) :=
  (idles_perform s op ho).bind fun _ => within_settle _

theorem idles_performBytes (s : SessionId) (op : Op) (ho : op.loads = false) :
    Within Idles (performBytes s op) :=
  (idles_perform s op ho).bind fun _ => within_settle _

theorem idles_register (m : ManagerId) (name source : String) :
    Within Idles (register m name source) :=
  (within_find _).bind fun _ => ((within_find _).bind fun _ => within_find _).bind fun _ _ =>
    idles_congr rfl rfl ⟨rfl, rfl, rfl, rfl⟩

end Host

end InstancePool
