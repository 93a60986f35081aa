import InstancePool.Proofs.Replica.Changes

/-!
What holds of replicated values in every state: their numbers are their own, the instances of their
managers can be reached, and whatever is loaded belongs to a value that has a handle, and has its
content.
-/

namespace InstancePool

open HostM

namespace Host

/-- Every value has a number of its own, and one in its manager; numbers are given out once. -/
structure Numbered (h : Host) : Prop where
  number_lt : ∀ k r, h.replicas.get? k = some r → k < h.nextReplica
  known : ∀ k r, h.replicas.get? k = some r →
    ∃ manager, h.managers[r.manager]? = some manager ∧ r.id.number < manager.nextObject
  unique : ∀ k k' r r', h.replicas.get? k = some r → h.replicas.get? k' = some r' →
    r.manager = r'.manager → r.id = r'.id → k = k'
  alive : ∀ k r, h.replicas.get? k = some r → 0 < r.handles

/-- Managers stand or fall as a whole. -/
def Whole (h : Host) : Prop :=
  ∀ (m : ManagerId) (manager : Manager), h.managers[m]? = some manager →
    (∀ n ∈ manager.instances, h.linkOf n ≠ none) ∨ ∀ n ∈ manager.instances, h.linkOf n = none

/-- An object belongs to a value of a manager that can be materialized, and has the content that the
data of the value spells. -/
def Backed (h : Host) (m : ManagerId) (id : ObjectId) (j : ObjectIndex) : Prop :=
  ∃ k r v, h.replicas.get? k = some r ∧ r.manager = m ∧ r.id = id ∧ r.unloaded = false ∧
    h.machine.heap.objects[j]? = some (.value v) ∧
    (r.data.length < 2 ^ 63 → Wire.decodeValue r.data = .ok v)

/-- What an instance has loaded for an identifier belongs to a value of its manager. -/
def Stocked (h : Host) : Prop :=
  ∀ (m : ManagerId) (manager : Manager) n t id j, h.managers[m]? = some manager →
    n ∈ manager.instances → h.store n = some t → t.get? id = some j → h.Backed m id j

/-- The books are in order, and so are the values. -/
structure Orderly (h : Host) : Prop extends h.Sound, h.Wired where
  numbered : h.Numbered
  whole : h.Whole
  standing : h.Standing
  stocked : h.Stocked

variable {h h' : Host} {log : List Event}

/-- All values were there before, with the same identity; handles come and go, and what was unloaded
stays so. -/
structure Inherits (h h' : Host) : Prop where
  managers : ∀ (m : ManagerId) (manager : Manager), h.managers[m]? = some manager →
    ∃ manager' : Manager, h'.managers[m]? = some manager' ∧
      manager'.instances = manager.instances ∧ manager'.nextObject = manager.nextObject
  replicas : ∀ k r', h'.replicas.get? k = some r' → ∃ r, h.replicas.get? k = some r ∧
    r'.id = r.id ∧ r'.data = r.data ∧ r'.manager = r.manager ∧
      (r'.unloaded = false → r.unloaded = false) ∧ (0 < r.handles → 0 < r'.handles)
  nextReplica : h'.nextReplica = h.nextReplica

theorem inherits_of_eq (managers : List Manager) (hm : h'.managers = h.managers ++ managers)
    (hr : h'.replicas = h.replicas) (hn : h'.nextReplica = h.nextReplica) : h.Inherits h' where
  managers m manager hg := by
    refine ⟨manager, ?_, rfl, rfl⟩
    rw [hm, List.getElem?_append_left (List.getElem?_eq_some_iff.1 hg).1, hg]
  replicas k r hg := ⟨r, hr ▸ hg, rfl, rfl, rfl, id, id⟩
  nextReplica := hn

theorem SameValues.inherits (hv : h.SameValues h') : h.Inherits h' :=
  inherits_of_eq [] (by rw [List.append_nil, hv.managers]) hv.replicas hv.nextReplica

/-- The record of a value is replaced by one of the same identity. -/
theorem SameValues.inherits_insert {h₁ : Host} (hv : h.SameValues h₁) {k : ReplicaId} {r : Replica}
    (r' : Replica) (hr : h.replicas.get? k = some r) (hid : r'.id = r.id) (hdata : r'.data = r.data)
    (hm : r'.manager = r.manager) (hu : r'.unloaded = false → r.unloaded = false)
    (hpos : 0 < r.handles → 0 < r'.handles) :
    h.Inherits { h₁ with replicas := h₁.replicas.insert k r' } where
  managers m manager hg := ⟨manager, by rw [hv.managers, hg], rfl, rfl⟩
  replicas k' r'' hg := by
    rw [hv.replicas] at hg
    rcases Table.get?_insert_eq_some.1 hg with ⟨rfl, rfl⟩ | ⟨-, hg⟩
    · exact ⟨r, hr, hid, hdata, hm, hu, hpos⟩
    · exact ⟨r'', hg, rfl, rfl, rfl, id, id⟩
  nextReplica := hv.nextReplica

/-- All that happens to the records of values: either one more is made, or they are inherited. -/
theorem Change.records {events : List Event} (hc : h.Change events h') :
    h.Inherits h' ∨ ∃ m manager data, h.Creates h' m manager data ∧ events = [] := by
  cases hc with
  | rested hr => exact .inl hr.inherits
  | grown hs managers hm hr hn hnew => exact .inl (inherits_of_eq managers hm hr hn)
  | ended X hs hm hr hn hx =>
    exact .inl (inherits_of_eq [] (by rw [List.append_nil, hm]) hr hn)
  | created m manager data hc => exact .inr ⟨m, manager, data, hc, rfl⟩
  | counted k r handles hr hpos =>
    exact .inl ((SameValues.refl h).inherits_insert { r with handles } hr rfl rfl rfl id fun _ => hpos)
  | loaded k r manager home n hr hu hm hmem hl => exact .inl hl.values.inherits
  | unloaded k r manager home hr hm hmem hp => exact .inl hp.values.inherits
  | retired k r manager hr hm hp =>
    exact .inl (hp.values.inherits_insert { r with unloaded := true } hr rfl rfl rfl nofun id)
  | dropped k r manager D replicas hr hm hp hD hget =>
    refine .inl ⟨hp.values.inherits.managers, fun k' r' hg => ?_, hp.values.nextReplica⟩
    rw [hget] at hg
    split at hg
    · cases hg
    · exact ⟨r', hg, rfl, rfl, rfl, id, id⟩

theorem lt_succ_of_room {x : UInt64} (hx : x.toNat + 1 < 2 ^ 64) : x < x + 1 := by
  rw [UInt64.lt_iff_toNat_lt, toNat_add_one hx]
  exact Nat.lt_succ_self _

section Creates

variable {m : ManagerId} {manager : Manager} {data : List UInt8}

theorem Creates.record (hc : h.Creates h' m manager data) {k : ReplicaId} {r : Replica}
    (hg : h'.replicas.get? k = some r) :
    k = h.nextReplica ∧ r = { id := ⟨manager.nextObject⟩, data, manager := m } ∨
      h.replicas.get? k = some r := by
  rw [hc.replicas] at hg
  exact (Table.get?_insert_eq_some.1 hg).imp (fun he => ⟨he.1, he.2.symm⟩) And.right

theorem Creates.successor (hc : h.Creates h' m manager data) :
    h'.managers[m]? = some { manager with nextObject := manager.nextObject + 1 } := by
  rw [hc.managers, List.getElem?_set_self (List.getElem?_eq_some_iff.1 hc.known).1]

/-- Managers keep their instances, and the numbers they have given out. -/
theorem Creates.manager_after (hc : h.Creates h' m manager data) {m' : ManagerId} {before : Manager}
    (hm : h.managers[m']? = some before) : ∃ after : Manager, h'.managers[m']? = some after ∧
      after.instances = before.instances ∧ ∀ x, x < before.nextObject → x < after.nextObject := by
  by_cases he : m = m'
  · subst he
    obtain rfl := Option.some.inj (hm.symm.trans hc.known)
    have hlt := lt_succ_of_room hc.room
    exact ⟨_, hc.successor, rfl, fun x hx => UInt64.lt_trans hx hlt⟩
  · exact ⟨before, by rw [hc.managers, List.getElem?_set_ne he, hm], rfl, fun x => id⟩

theorem Creates.manager_before (hc : h.Creates h' m manager data) {m' : ManagerId} {after : Manager}
    (hm : h'.managers[m']? = some after) :
    ∃ before : Manager, h.managers[m']? = some before ∧ after.instances = before.instances := by
  have hlen : h'.managers.length = h.managers.length := by rw [hc.managers, List.length_set]
  have hlt : m' < h.managers.length := hlen ▸ (List.getElem?_eq_some_iff.1 hm).1
  obtain ⟨after', hm', hinst, -⟩ := hc.manager_after (List.getElem?_eq_getElem hlt)
  obtain rfl := Option.some.inj (hm.symm.trans hm')
  exact ⟨_, List.getElem?_eq_getElem hlt, hinst⟩

/-- No older value of the manager has the number that it gives out now. -/
theorem Creates.id_ne (hc : h.Creates h' m manager data) (hn : h.Numbered) {k : ReplicaId}
    {r : Replica} (hg : h.replicas.get? k = some r) (hm : r.manager = m) :
    r.id ≠ ⟨manager.nextObject⟩ := by
  intro hid
  obtain ⟨manager', hm', hlt⟩ := hn.known k r hg
  rw [hm, hc.known] at hm'
  cases hm'
  rw [hid] at hlt
  exact UInt64.lt_irrefl _ hlt

theorem Creates.numbered (hc : h.Creates h' m manager data) (hn : h.Numbered) : h'.Numbered where
  number_lt k r hg := by
    rw [hc.nextReplica]
    rcases hc.record hg with ⟨rfl, -⟩ | hr
    · exact Nat.lt_succ_self _
    · exact Nat.lt_succ_of_lt (hn.number_lt k r hr)
  known k r hg := by
    rcases hc.record hg with ⟨-, rfl⟩ | hr
    · exact ⟨_, hc.successor, lt_succ_of_room hc.room⟩
    · obtain ⟨before, hm, hlt⟩ := hn.known k r hr
      obtain ⟨after, hm', -, hnext⟩ := hc.manager_after hm
      exact ⟨after, hm', hnext _ hlt⟩
  unique k₁ k₂ r₁ r₂ hg₁ hg₂ hm hid := by
    rcases hc.record hg₁ with ⟨rfl, rfl⟩ | hr₁ <;> rcases hc.record hg₂ with ⟨rfl, rfl⟩ | hr₂
    · rfl
    · exact absurd hid.symm (hc.id_ne hn hr₂ hm.symm)
    · exact absurd hid (hc.id_ne hn hr₁ hm)
    · exact hn.unique k₁ k₂ r₁ r₂ hr₁ hr₂ hm hid
  alive k r hg := by
    rcases hc.record hg with ⟨-, rfl⟩ | hr
    · exact Nat.one_pos
    · exact hn.alive k r hr

end Creates

theorem Inherits.numbered (hi : h.Inherits h') (hn : h.Numbered) : h'.Numbered where
  number_lt k r' hg := by
    obtain ⟨r, hr, -⟩ := hi.replicas k r' hg
    rw [hi.nextReplica]
    exact hn.number_lt k r hr
  known k r' hg := by
    obtain ⟨r, hr, hid, -, hm, -⟩ := hi.replicas k r' hg
    obtain ⟨manager, hmanager, hlt⟩ := hn.known k r hr
    obtain ⟨manager', hmanager', -, hnext⟩ := hi.managers r.manager manager hmanager
    exact ⟨manager', hm ▸ hmanager', by rw [hid, hnext]; exact hlt⟩
  unique k₁ k₂ r₁' r₂' hg₁ hg₂ hm hid := by
    obtain ⟨r₁, hr₁, hid₁, -, hm₁, -⟩ := hi.replicas k₁ r₁' hg₁
    obtain ⟨r₂, hr₂, hid₂, -, hm₂, -⟩ := hi.replicas k₂ r₂' hg₂
    exact hn.unique k₁ k₂ r₁ r₂ hr₁ hr₂ (hm₁.symm.trans (hm.trans hm₂))
      (hid₁.symm.trans (hid.trans hid₂))
  alive k r' hg := by
    obtain ⟨r, hr, -, -, -, -, hpos⟩ := hi.replicas k r' hg
    exact hpos (hn.alive k r hr)

theorem Numbered.of_change (hn : h.Numbered) {events : List Event} (hc : h.Change events h') :
    h'.Numbered := by
  rcases hc.records with hi | ⟨m, manager, data, hcreates, -⟩
  · exact hi.numbered hn
  · exact hcreates.numbered hn

theorem Wired.linkOf_none_iff (hw : h.Wired) (hw' : h'.Wired) {n : InstanceId}
    (hs : h'.store n = h.store n) : h'.linkOf n = none ↔ h.linkOf n = none := by
  constructor
  · intro hn
    exact hw.store_none (by rw [← hs, store_of_linkOf_none hn])
  · intro hn
    exact hw'.store_none (by rw [hs, store_of_linkOf_none hn])

/-- What becomes of the instances of a manager: they are as linked as before, or they are given up
together when there is no value of the manager, or the manager is new. -/
theorem Change.teams {events : List Event} (hc : h.Change events h') (hw : h.Wired) (hw' : h'.Wired)
    (hp : h.Placed) {m : ManagerId} {manager' : Manager} (hm' : h'.managers[m]? = some manager') :
    (∃ manager : Manager, h.managers[m]? = some manager ∧
        manager'.instances = manager.instances ∧
        ((∀ n ∈ manager.instances, h'.linkOf n = none ↔ h.linkOf n = none) ∨
          (∀ n ∈ manager.instances, h'.linkOf n = none) ∧
            ∀ k r, h'.replicas.get? k = some r → r.manager ≠ m)) ∨
      h.managers[m]? = none ∧
        ∀ n ∈ manager'.instances, h.instances.length ≤ n ∧ h'.linkOf n ≠ none := by
  have hsame {h₁ : Host} (hv : h.SameValues h₁) (hi : h'.instances = h₁.instances)
      (hmanagers : h'.managers = h₁.managers) : ∃ manager : Manager, h.managers[m]? = some manager ∧
        manager'.instances = manager.instances ∧
        ((∀ n ∈ manager.instances, h'.linkOf n = none ↔ h.linkOf n = none) ∨
          (∀ n ∈ manager.instances, h'.linkOf n = none) ∧
            ∀ k r, h'.replicas.get? k = some r → r.manager ≠ m) := by
    rw [hmanagers, hv.managers] at hm'
    refine ⟨manager', hm', rfl, .inl fun n _ => ?_⟩
    rw [linkOf, hi, hv.instances]
    rfl
  cases hc with
  | rested hr => exact .inl (hsame hr.toSameValues rfl rfl)
  | grown hs managers hm hr hn hnew =>
    rw [hm, List.getElem?_append] at hm'
    split at hm'
    · -- The manager was there before, and so were its instances.
      refine .inl ⟨manager', hm', rfl, .inl fun n hmem => ?_⟩
      have hlt := hp.member m _ n (team_of_manager hm') hmem
      exact hw.linkOf_none_iff hw' (hs.store n hlt id)
    · rename_i hge
      exact .inr ⟨List.getElem?_eq_none (Nat.le_of_not_lt hge),
        (hnew manager' (List.mem_of_getElem? hm')).2⟩
  | ended X hs hm hr hn hx =>
    rw [hm] at hm'
    -- No instance of the manager is given up, or all of them are.
    by_cases hhit : ∃ n ∈ manager'.instances, X n
    · obtain ⟨n, hmem, hXn⟩ := hhit
      obtain ⟨hnone, hvalues⟩ := hx m manager' n hm' hmem hXn
      exact .inl ⟨manager', hm', rfl, .inr ⟨hnone, fun k r hg => hvalues k r (hr ▸ hg)⟩⟩
    · refine .inl ⟨manager', hm', rfl, .inl fun n hmem => ?_⟩
      have hlt := hp.member m _ n (team_of_manager hm') hmem
      exact hw.linkOf_none_iff hw' (hs.store n hlt fun hXn => hhit ⟨n, hmem, hXn⟩)
  | created m₀ manager data hcreates =>
    obtain ⟨before, hm, hinst⟩ := hcreates.manager_before hm'
    refine .inl ⟨before, hm, hinst, .inl fun n _ => ?_⟩
    rw [linkOf, hcreates.instances]
    rfl
  | counted k r handles hr hpos => exact .inl (hsame (.refl h) rfl rfl)
  | loaded k r manager home n hr hu hm hmem hl => exact .inl (hsame hl.values rfl rfl)
  | unloaded k r manager home hr hm hmem hp => exact .inl (hsame hp.values rfl rfl)
  | retired k r manager hr hm hp => exact .inl (hsame hp.values rfl rfl)
  | dropped k r manager D replicas hr hm hp hD hget => exact .inl (hsame hp.values rfl rfl)

theorem Whole.of_change (hwhole : h.Whole) {events : List Event} (hc : h.Change events h')
    (hw : h.Wired) (hw' : h'.Wired) (hp : h.Placed) : h'.Whole := by
  intro m manager' hm'
  rcases hc.teams hw hw' hp hm' with ⟨manager, hm, hi, hlink | ⟨hnone, -⟩⟩ | ⟨-, hnew⟩
  · rw [hi]
    refine (hwhole m manager hm).imp (fun hl n hn => ?_) fun hl n hn => ?_
    · exact fun hnone => hl n hn ((hlink n hn).1 hnone)
    · exact (hlink n hn).2 (hl n hn)
  · rw [hi]
    exact .inr hnone
  · exact .inl fun n hn => (hnew n hn).2

theorem Standing.of_change (hst : h.Standing) (hwhole : h.Whole) {events : List Event}
    (hc : h.Change events h') (hw : h.Wired) (hw' : h'.Wired) (hp : h.Placed) : h'.Standing := by
  -- A value of a manager that is in use is a value of a manager that stands.
  have hstands {k : ReplicaId} {r : Replica} {manager manager' : Manager}
      (hg : h'.replicas.get? k = some r) (hm : h.managers[r.manager]? = some manager)
      (hm' : h'.managers[r.manager]? = some manager')
      (hl : ∀ n ∈ manager.instances, h.linkOf n ≠ none) :
      ∀ n ∈ manager'.instances, h'.linkOf n ≠ none := by
    rcases hc.teams hw hw' hp hm' with ⟨manager₀, hm₀, hi, hlink | ⟨-, hnone⟩⟩ | ⟨hnone, -⟩
    · obtain rfl := Option.some.inj (hm₀.symm.trans hm)
      rw [hi]
      exact fun n hn he => hl n hn ((hlink n hn).1 he)
    · exact absurd rfl (hnone k r hg)
    · rw [hm] at hnone
      cases hnone
  intro k r' hg
  rcases hc.records with hi | ⟨m, manager, data, hcreates, -⟩
  · obtain ⟨r, hr, -, -, hmr, -⟩ := hi.replicas k r' hg
    obtain ⟨manager, hm, hl⟩ := hst k r hr
    obtain ⟨manager', hm', -⟩ := hi.managers r.manager manager hm
    rw [← hmr] at hm hm'
    exact ⟨manager', hm', hstands hg hm hm' hl⟩
  · rcases hcreates.record hg with ⟨-, rfl⟩ | hr
    · -- The new value: one of the instances can be reached, so all can.
      refine ⟨_, hcreates.successor, hstands hg hcreates.known hcreates.successor ?_⟩
      rcases hwhole m manager hcreates.known with hl | hnone
      · exact hl
      · obtain ⟨n, hn, hl⟩ := hcreates.used
        exact absurd (hnone n hn) hl
    · obtain ⟨before, hm, hl⟩ := hst k r' hr
      obtain ⟨after, hm', -⟩ := hcreates.manager_after hm
      exact ⟨after, hm', hstands hg hm hm' hl⟩

theorem Backed.of_extends {m : ManagerId} {id : ObjectId} {j : ObjectIndex} (hb : h.Backed m id j)
    (hheap : h.machine.heap.Extends h'.machine.heap)
    (hkeep : ∀ k r, h.replicas.get? k = some r → r.manager = m → r.id = id → r.unloaded = false →
      ∃ r', h'.replicas.get? k = some r' ∧ r'.manager = r.manager ∧ r'.id = r.id ∧
        r'.unloaded = false ∧ r'.data = r.data) : h'.Backed m id j := by
  obtain ⟨k, r, v, hr, hm, hid, hu, hj, hv⟩ := hb
  obtain ⟨r', hr', hm', hid', hu', hdata⟩ := hkeep k r hr hm hid hu
  exact ⟨k, r', v, hr', hm'.trans hm, hid'.trans hid, hu', hheap.value hj, hdata ▸ hv⟩

theorem Backed.of_replicas {m : ManagerId} {id : ObjectId} {j : ObjectIndex} (hb : h.Backed m id j)
    (hheap : h.machine.heap.Extends h'.machine.heap) (hr : h'.replicas = h.replicas) :
    h'.Backed m id j :=
  hb.of_extends hheap fun _ r hg _ _ hu => ⟨r, hr ▸ hg, rfl, rfl, hu, rfl⟩

/-- After an instance was purged, nothing is loaded in it for the identifier; all else was before. -/
theorem Purges.entry {id id' : ObjectId} {D : InstanceId → Prop} {n : InstanceId}
    {t' : Table ObjectId ObjectIndex} {j : ObjectIndex} (hp : h.Purges id D h')
    (ht : h'.store n = some t') (hj : t'.get? id' = some j) :
    (D n → id' ≠ id) ∧ ∃ t, h.store n = some t ∧ t.get? id' = some j := by
  by_cases hD : D n
  · rw [hp.gone n hD] at ht
    obtain ⟨t, ht₀, rfl⟩ := Option.map_eq_some_iff.1 ht
    obtain ⟨hne, hj⟩ := Table.get?_erase_eq_some.1 hj
    exact ⟨fun _ => hne, t, ht₀, hj⟩
  · rw [hp.kept n hD] at ht
    exact ⟨fun hd => absurd hd hD, t', ht, hj⟩

/-- What is loaded was loaded before. -/
theorem Stocked.of_entries (hs : h.Stocked) (hm : h'.managers = h.managers)
    (hr : h'.replicas = h.replicas) (hheap : h.machine.heap.Extends h'.machine.heap)
    (hentry : ∀ (m : ManagerId) (manager : Manager) n t' id j, h.managers[m]? = some manager →
      n ∈ manager.instances → h'.store n = some t' → t'.get? id = some j →
        ∃ t, h.store n = some t ∧ t.get? id = some j) : h'.Stocked := by
  intro m manager n t' id j hg hmem ht hj
  rw [hm] at hg
  obtain ⟨t, ht₀, hj₀⟩ := hentry m manager n t' id j hg hmem ht hj
  exact (hs m manager n t id j hg hmem ht₀ hj₀).of_replicas hheap hr

theorem Stocked.of_grown (hs : h.Stocked) {managers : List Manager}
    (hg : h.Settled (fun _ => False) h') (hm : h'.managers = h.managers ++ managers)
    (hr : h'.replicas = h.replicas)
    (hnew : ∀ manager ∈ managers, ∀ n ∈ manager.instances, h.instances.length ≤ n) :
    h'.Stocked := by
  intro m manager n t id j hm' hmem ht hj
  by_cases hlt : n < h.instances.length
  · rw [hm, List.getElem?_append] at hm'
    split at hm'
    · rw [hg.store n hlt not_false] at ht
      exact (hs m manager n t id j hm' hmem ht hj).of_replicas hg.heap hr
    · have hle := hnew manager (List.mem_of_getElem? hm') n hmem
      exact absurd hlt (Nat.not_lt.2 hle)
  · obtain rfl := hg.fresh n t (Nat.le_of_not_lt hlt) ht
    cases hj

theorem Stocked.of_creates (hs : h.Stocked) (hn : h.Numbered) {m : ManagerId} {manager : Manager}
    {data : List UInt8} (hc : h.Creates h' m manager data) : h'.Stocked := by
  intro m' after n t id j hm' hmem ht hj
  obtain ⟨before, hm, hinst⟩ := hc.manager_before hm'
  rw [hinst] at hmem
  rw [hc.store] at ht
  refine (hs m' before n t id j hm hmem ht hj).of_extends hc.heap fun k r hg _ _ hu => ?_
  have hne : k ≠ h.nextReplica := Nat.ne_of_lt (hn.number_lt k r hg)
  exact ⟨r, by rw [hc.replicas, Table.get?_insert_of_ne hne, hg], rfl, rfl, hu, rfl⟩

theorem Stocked.of_counted (hs : h.Stocked) {k₀ : ReplicaId} {r₀ : Replica} (handles : Nat)
    (hr : h.replicas.get? k₀ = some r₀) :
    Stocked { h with replicas := h.replicas.insert k₀ { r₀ with handles } } := by
  intro m manager n t id j hm hmem ht hj
  refine (hs m manager n t id j hm hmem ht hj).of_extends (.refl _) fun k r hg _ _ hu => ?_
  by_cases he : k = k₀
  · subst he
    obtain rfl := Option.some.inj (hr.symm.trans hg)
    exact ⟨{ r₀ with handles }, Table.get?_insert_self .., rfl, rfl, hu, rfl⟩
  · exact ⟨r, by rw [Table.get?_insert_of_ne he, hg], rfl, rfl, hu, rfl⟩

theorem Stocked.of_loads (hs : h.Stocked) (hp : h.Placed) {k : ReplicaId} {r : Replica}
    {manager : Manager} {home : InstanceId} {o : ObjectIndex} (hr : h.replicas.get? k = some r)
    (hu : r.unloaded = false) (hm : h.managers[r.manager]? = some manager)
    (hhome : home ∈ manager.instances) (hl : h.Loads home r.id r.data o h') : h'.Stocked := by
  intro m manager' n t id j hm' hmem ht hj
  rw [hl.values.managers] at hm'
  -- Whatever was loaded before is backed as it was.
  have hbefore {t₀ : Table ObjectId ObjectIndex} (ht₀ : h.store n = some t₀)
      (hj₀ : t₀.get? id = some j) : h'.Backed m id j :=
    (hs m manager' n t₀ id j hm' hmem ht₀ hj₀).of_replicas hl.heap hl.values.replicas
  obtain ⟨t₀, t₁, ht₀, hfetch, hstore⟩ := hl.store
  rw [hstore] at ht
  split at ht
  · rename_i he
    subst he
    cases ht
    cases hfetch with
    | kept ho => exact hbefore ht₀ hj
    | made v ho hv hobj =>
      rcases Table.get?_insert_eq_some.1 hj with ⟨rfl, rfl⟩ | ⟨-, hj⟩
      · -- The object that was loaded just now.
        have hsame : m = r.manager := hp.disjoint m r.manager _ _ n (team_of_manager hm')
          (team_of_manager hm) hmem hhome
        exact ⟨k, r, v, by rw [hl.values.replicas, hr], hsame.symm, rfl, hu, hobj, hv⟩
      · exact hbefore ht₀ hj
  · exact hbefore ht hj

/-- A value is unloaded from wherever it may be loaded, and perhaps forgotten. -/
theorem Stocked.of_purges (hs : h.Stocked) {k₀ : ReplicaId} {r₀ : Replica} {manager : Manager}
    {D : InstanceId → Prop} {h₁ : Host} {replicas : Table ReplicaId Replica}
    (hr : h.replicas.get? k₀ = some r₀) (hm : h.managers[r₀.manager]? = some manager)
    (hp : h.Purges r₀.id D h₁) (hD : r₀.unloaded = false → ∀ n ∈ manager.instances, D n)
    (hget : ∀ k, k ≠ k₀ → replicas.get? k = h.replicas.get? k) :
    Stocked { h₁ with replicas } := by
  intro m manager' n t' id j hm' hmem ht hj
  obtain ⟨hother, t, ht₀, hj₀⟩ := hp.entry ht hj
  have hm₀ : h.managers[m]? = some manager' := by
    rw [← hp.values.managers]
    exact hm'
  refine (hs m manager' n t id j hm₀ hmem ht₀ hj₀).of_extends hp.heap fun k r hg hmr hid hu => ?_
  have hne : k ≠ k₀ := by
    rintro rfl
    obtain rfl := Option.some.inj (hr.symm.trans hg)
    rw [hmr, hm₀] at hm
    cases hm
    exact hother (hD hu n hmem) hid.symm
  exact ⟨r, by rw [hget k hne, hg], rfl, rfl, hu, rfl⟩

theorem Stocked.of_change (hs : h.Stocked) {events : List Event} (hc : h.Change events h')
    (hp : h.Placed) (hn : h.Numbered) : h'.Stocked := by
  cases hc with
  | rested hr =>
    refine hs.of_entries hr.managers hr.replicas hr.heap fun m manager n t' id j _ _ ht hj => ?_
    exact ⟨t', (hr.store n).symm.trans ht, hj⟩
  | grown hg managers hm hr hnext hnew =>
    exact hs.of_grown hg hm hr fun manager hmem n hn => ((hnew manager hmem).2 n hn).1
  | ended X hg hm hr hnext hx =>
    refine hs.of_entries hm hr hg.heap fun m manager n t' id j hm' hmem ht hj => ?_
    have hlt := hp.member m _ n (team_of_manager hm') hmem
    exact ⟨t', hg.torn n t' hlt ht, hj⟩
  | created m manager data hcreates => exact hs.of_creates hn hcreates
  | counted k r handles hr hpos => exact hs.of_counted handles hr
  | loaded k r manager home o hr hu hm hmem hl => exact hs.of_loads hp hr hu hm hmem hl
  | unloaded k r manager home hr hm hmem hp' =>
    refine hs.of_entries hp'.values.managers hp'.values.replicas hp'.heap ?_
    exact fun m manager n t' id j _ _ ht hj => (hp'.entry ht hj).2
  | retired k r manager hr hm hp' =>
    refine hs.of_purges hr hm hp' (fun _ n => id) fun k' hne => ?_
    rw [Table.get?_insert_of_ne hne, hp'.values.replicas]
  | dropped k r manager D replicas hr hm hp' hD hget =>
    refine hs.of_purges hr hm hp' (fun hu n hmem => (hD n).2 ⟨hu, hmem⟩) fun k' hne => ?_
    rw [hget, if_neg hne]

/-- Whether an action can be taken and goes through sessions, managers and values alone. -/
def Proper (h : Host) (a : Action) : Prop := a.Allowed h ∧ a.Inside h

instance (h : Host) : DecidablePred h.Proper := fun a =>
  inferInstanceAs (Decidable (a.Allowed h ∧ a.Inside h))

theorem Orderly.change (ho : h.Orderly) {a : Action} (ha : h.Proper a) :
    h.Change (h.events a) (h.step a) :=
  (change_step ho.toSound ho.toWired ho.standing ha.1 ha.2).2

/-- What is said of values lasts through every change. -/
theorem Orderly.of_change (ho : h.Orderly) {events : List Event} (hc : h.Change events h')
    (hs' : h'.Sound) (hw' : h'.Wired) : h'.Orderly :=
  have hp : h.Placed := ho.toPlaced
  { hs', hw' with
    numbered := ho.numbered.of_change hc
    whole := ho.whole.of_change hc ho.toWired hw' hp
    standing := ho.standing.of_change ho.whole hc ho.toWired hw' hp
    stocked := ho.stocked.of_change hc hp ho.numbered }

theorem Orderly.step (ho : h.Orderly) {a : Action} (ha : h.Proper a) : (h.step a).Orderly := by
  obtain ⟨hw', hc⟩ := change_step ho.toSound ho.toWired ho.standing ha.1 ha.2
  exact ho.of_change hc (ho.toSound.step ha.1) hw'

theorem orderly_empty : Orderly {} where
  toSound := sound_empty
  serves := nofun
  apart := nofun
  numbered := ⟨nofun, nofun, nofun, nofun⟩
  whole := nofun
  standing := nofun
  stocked := nofun

theorem orderly_after (ho : h.Orderly) {actions : List Action} (ha : h.Permits Proper actions) :
    (h.after actions).Orderly :=
  after_of_step (fun _ _ ho ha => ho.step ha) ho ha

/-- In the course of a run a value keeps its identity, and what was unloaded for good stays so. -/
theorem replica_before (ho : h.Orderly) {k : ReplicaId} (hk : k < h.nextReplica)
    {actions : List Action} (ha : h.Permits Proper actions) {r' : Replica}
    (hr' : (h.after actions).replicas.get? k = some r') :
    ∃ r, h.replicas.get? k = some r ∧ r'.id = r.id ∧ r'.data = r.data ∧ r'.manager = r.manager ∧
      (r'.unloaded = false → r.unloaded = false) := by
  induction actions generalizing h with
  | nil => exact ⟨r', hr', rfl, rfl, rfl, id⟩
  | cons a actions ih =>
    rcases (ho.change ha.1).records with hi | ⟨m, manager, data, hcreates, -⟩
    · obtain ⟨r₁, hr₁, hid₁, hdata₁, hm₁, hu₁⟩ :=
        ih (ho.step ha.1) (hi.nextReplica ▸ hk) ha.2 hr'
      obtain ⟨r, hr, hid, hdata, hm, hu, -⟩ := hi.replicas k r₁ hr₁
      exact ⟨r, hr, hid₁.trans hid, hdata₁.trans hdata, hm₁.trans hm, fun hback => hu (hu₁ hback)⟩
    · obtain ⟨r₁, hr₁, hsame⟩ := ih (ho.step ha.1)
        (hcreates.nextReplica ▸ Nat.lt_succ_of_lt hk) ha.2 hr'
      rw [hcreates.replicas, Table.get?_insert_of_ne (Nat.ne_of_lt hk)] at hr₁
      exact ⟨r₁, hr₁, hsame⟩

end Host

end InstancePool
