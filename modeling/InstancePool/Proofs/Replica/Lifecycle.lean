import InstancePool.Proofs.Replica.Invariants

/-!
The life of a replicated value. An instance holds an object for it exactly from the time when it is
materialized there to the time when it is unloaded from there, or its last handle goes.
-/

namespace InstancePool

open HostM

namespace Host

/-- Whether an instance holds an object for an identifier. -/
def holds (h : Host) (n : InstanceId) (id : ObjectId) : Bool :=
  ((h.seat n).bind fun k => h.machine.interps[k]?).any fun i => i.holds id

/-- What happens to values in the course of some actions. -/
def log (h : Host) : List Action → List Event
  | [] => []
  | a :: actions => h.events a ++ (h.step a).log actions

end Host

/-- A value was materialized in an instance, and not unloaded from it since. -/
def LoadedSince (log : List Event) (k : ReplicaId) (n : InstanceId) : Prop :=
  ∃ before after, log = before ++ .loaded k n :: after ∧
    .unloaded k (some n) ∉ after ∧ .unloaded k none ∉ after

section LoadedSince

variable {log : List Event} {k k' : ReplicaId} {n n' : InstanceId}

theorem loadedSince_append_loaded :
    LoadedSince (log ++ [.loaded k' n']) k n ↔ LoadedSince log k n ∨ k' = k ∧ n' = n := by
  constructor
  · rintro ⟨before, after, he, hone, hall⟩
    rcases List.eq_nil_or_concat after with rfl | ⟨after, e, rfl⟩
    · have hlast := (List.append_inj' he rfl).2
      cases hlast
      exact .inr ⟨rfl, rfl⟩
    · rw [List.concat_eq_append] at he hone hall
      rw [← List.cons_append, ← List.append_assoc] at he
      have hfirst := (List.append_inj' he rfl).1
      exact .inl ⟨before, after, hfirst, fun hm => hone (List.mem_append_left _ hm),
        fun hm => hall (List.mem_append_left _ hm)⟩
  · rintro (⟨before, after, rfl, hone, hall⟩ | ⟨rfl, rfl⟩)
    · refine ⟨before, after ++ [.loaded k' n'], by rw [List.append_assoc, List.cons_append], ?_, ?_⟩
      · intro hm
        rcases List.mem_append.1 hm with hm | hm
        · exact hone hm
        · cases List.mem_singleton.1 hm
      · intro hm
        rcases List.mem_append.1 hm with hm | hm
        · exact hall hm
        · cases List.mem_singleton.1 hm
    · exact ⟨log, [], rfl, List.not_mem_nil, List.not_mem_nil⟩

theorem loadedSince_append_unloaded {on : Option InstanceId} :
    LoadedSince (log ++ [.unloaded k' on]) k n ↔
      LoadedSince log k n ∧ ¬ (k' = k ∧ (on = none ∨ on = some n)) := by
  constructor
  · rintro ⟨before, after, he, hone, hall⟩
    rcases List.eq_nil_or_concat after with rfl | ⟨after, e, rfl⟩
    · cases (List.append_inj' he rfl).2
    · rw [List.concat_eq_append] at he hone hall
      rw [← List.cons_append, ← List.append_assoc] at he
      obtain ⟨hfirst, hlast⟩ := List.append_inj' he rfl
      cases hlast
      refine ⟨⟨before, after, hfirst, fun hm => hone (List.mem_append_left _ hm),
        fun hm => hall (List.mem_append_left _ hm)⟩, ?_⟩
      rintro ⟨rfl, rfl | rfl⟩
      · exact hall (List.mem_append_right _ List.mem_cons_self)
      · exact hone (List.mem_append_right _ List.mem_cons_self)
  -- The new event is about another value or another instance, so it does no harm.
  · rintro ⟨⟨before, after, rfl, hone, hall⟩, hother⟩
    refine ⟨before, after ++ [.unloaded k' on], by rw [List.append_assoc, List.cons_append], ?_, ?_⟩
    · intro hm
      rcases List.mem_append.1 hm with hm | hm
      · exact hone hm
      · cases List.mem_singleton.1 hm
        exact hother ⟨rfl, .inr rfl⟩
    · intro hm
      rcases List.mem_append.1 hm with hm | hm
      · exact hall hm
      · cases List.mem_singleton.1 hm
        exact hother ⟨rfl, .inl rfl⟩

end LoadedSince

namespace Host

/-- The log agrees with what is loaded for the values that can be materialized, and speaks of no value
before it is made. -/
structure Tracked (log : List Event) (h : Host) : Prop where
  current : ∀ k r (manager : Manager) n t, h.replicas.get? k = some r →
    h.managers[r.manager]? = some manager → n ∈ manager.instances → r.unloaded = false →
    h.store n = some t → (t.contains r.id = true ↔ LoadedSince log k n)
  future : ∀ k n, h.nextReplica ≤ k → ¬ LoadedSince log k n

variable {h h' : Host} {log : List Event}

theorem holds_iff_store {n : InstanceId} {id : ObjectId} :
    h.holds n id = true ↔ ∃ t, h.store n = some t ∧ t.contains id = true := by
  unfold holds
  rw [Option.any_eq_true]
  constructor
  · rintro ⟨i, hi, hid⟩
    obtain ⟨k, hk, hi⟩ := Option.bind_eq_some_iff.1 hi
    exact ⟨i.loaded, store_eq.2 ⟨k, i, hk, hi, rfl⟩, hid⟩
  · rintro ⟨t, ht, hid⟩
    obtain ⟨k, i, hk, hi, rfl⟩ := store_eq.1 ht
    exact ⟨i, by rw [hk]; exact hi, hid⟩

theorem contains_erase {t : Table ObjectId ObjectIndex} {id id' : ObjectId} :
    (t.erase id').contains id = (!decide (id = id') && t.contains id) := by
  rw [Table.contains, Table.get?_erase]
  split
  · rename_i he
    rw [decide_eq_true he]
    rfl
  · rename_i hne
    rw [decide_eq_false hne]
    rfl

/-- What a change does to the object of a value in an instance, and what its events say of it: nothing
in either, or it is loaded, or it is gone. -/
inductive Follows (events : List Event) (k : ReplicaId) (n : InstanceId) : Bool → Bool → Prop
  | kept (b : Bool) (hlog : ∀ log, LoadedSince (log ++ events) k n ↔ LoadedSince log k n) :
    Follows events k n b b
  | loaded (b : Bool) (hlog : ∀ log, LoadedSince (log ++ events) k n) : Follows events k n b true
  | gone (b : Bool) (hlog : ∀ log, ¬ LoadedSince (log ++ events) k n) : Follows events k n b false

theorem Follows.nil (k : ReplicaId) (n : InstanceId) (b : Bool) : Follows [] k n b b :=
  .kept b fun log => by rw [List.append_nil]

theorem Follows.tracked {events : List Event} {k : ReplicaId} {n : InstanceId} {b b' : Bool}
    (hf : Follows events k n b b') (hb : b = true ↔ LoadedSince log k n) :
    b' = true ↔ LoadedSince (log ++ events) k n := by
  cases hf with
  | kept hlog => rw [hlog, hb]
  | loaded hlog => exact iff_of_true rfl (hlog log)
  | gone hlog => exact iff_of_false Bool.false_ne_true (hlog log)

/-- Purging does away with the objects for the one identifier alone. -/
theorem Purges.contains {id : ObjectId} {D : InstanceId → Prop} (hp : h.Purges id D h')
    {n : InstanceId} {t' : Table ObjectId ObjectIndex} (ht' : h'.store n = some t') (id' : ObjectId) :
    ∃ t, h.store n = some t ∧ (¬ (D n ∧ id' = id) → t'.contains id' = t.contains id') ∧
      (D n → id' = id → t'.contains id' = false) := by
  by_cases hD : D n
  · rw [hp.gone n hD] at ht'
    obtain ⟨t, ht, rfl⟩ := Option.map_eq_some_iff.1 ht'
    refine ⟨t, ht, fun hother => ?_, fun _ hid => ?_⟩
    · have hne : id' ≠ id := fun hid => hother ⟨hD, hid⟩
      rw [contains_erase, decide_eq_false hne]
      rfl
    · rw [contains_erase, decide_eq_true hid]
      rfl
  · rw [hp.kept n hD] at ht'
    exact ⟨t', ht', fun _ => rfl, fun hd => absurd hd hD⟩

theorem Change.stored {events : List Event} (hc : h.Change events h') (hp : h.Placed)
    (hn : h.Numbered) {k : ReplicaId} {r r' : Replica} {manager : Manager} {n : InstanceId}
    {t' : Table ObjectId ObjectIndex} (hr : h.replicas.get? k = some r)
    (hm : h.managers[r.manager]? = some manager) (hmem : n ∈ manager.instances)
    (hr' : h'.replicas.get? k = some r') (ht' : h'.store n = some t') :
    ∃ t, h.store n = some t ∧ Follows events k n (t.contains r.id) (t'.contains r.id) := by
  have hlt := hp.member r.manager _ n (team_of_manager hm) hmem
  have hquiet (hs : h'.store n = h.store n) :
      ∃ t, h.store n = some t ∧ Follows [] k n (t.contains r.id) (t'.contains r.id) :=
    ⟨t', hs.symm.trans ht', .nil k n _⟩
  -- In an instance that two values share, they have different identifiers.
  have hunique {k₀ : ReplicaId} {r₀ : Replica} {manager₀ : Manager}
      (hr₀ : h.replicas.get? k₀ = some r₀) (hm₀ : h.managers[r₀.manager]? = some manager₀)
      (hmem₀ : n ∈ manager₀.instances) (hid : r.id = r₀.id) : k = k₀ := by
    have hsame := hp.disjoint _ _ _ _ n (team_of_manager hm) (team_of_manager hm₀) hmem hmem₀
    exact hn.unique k k₀ r r₀ hr hr₀ hsame hid
  cases hc with
  | rested hrests => exact hquiet (hrests.store n)
  | grown hs managers hm' hr' hn' hnew => exact hquiet (hs.store n hlt not_false)
  | ended X hs hm' hreplicas hn' hx =>
    have hX : ¬ X n := fun hXn => (hx r.manager manager n hm hmem hXn).2 k r hr rfl
    exact hquiet (hs.store n hlt hX)
  | created m₀ manager₀ data hcreates => exact hquiet (hcreates.store n)
  | counted k₀ r₀ handles hr₀ hpos => exact hquiet rfl
  | loaded k₀ r₀ manager₀ home o hr₀ hu hm₀ hmem₀ hl =>
    obtain ⟨t₀, t₁, ht₀, hfetch, hstore⟩ := hl.store
    obtain ⟨hin, hothers⟩ := hfetch.contains
    rw [hstore] at ht'
    split at ht'
    · rename_i he
      subst he
      cases ht'
      refine ⟨t₀, ht₀, ?_⟩
      by_cases hk : k = k₀
      · subst hk
        obtain rfl := Option.some.inj (hr.symm.trans hr₀)
        rw [hin]
        exact .loaded _ fun log => loadedSince_append_loaded.2 (.inr ⟨rfl, rfl⟩)
      · rw [hothers r.id fun hid => hk (hunique hr₀ hm₀ hmem₀ hid)]
        refine .kept _ fun log => ?_
        rw [loadedSince_append_loaded]
        exact or_iff_left fun he => hk he.1.symm
    · rename_i hne
      refine ⟨t', ht', .kept _ fun log => ?_⟩
      rw [loadedSince_append_loaded]
      exact or_iff_left fun he => hne he.2.symm
  | unloaded k₀ r₀ manager₀ home hr₀ hm₀ hmem₀ hp₀ =>
    obtain ⟨t, ht, hother, hgone⟩ := hp₀.contains ht' r.id
    refine ⟨t, ht, ?_⟩
    by_cases hhit : k = k₀ ∧ n = home
    · obtain ⟨rfl, rfl⟩ := hhit
      obtain rfl := Option.some.inj (hr.symm.trans hr₀)
      rw [hgone rfl rfl]
      exact .gone _ fun log hlog => (loadedSince_append_unloaded.1 hlog).2 ⟨rfl, .inr rfl⟩
    · have hsame : t'.contains r.id = t.contains r.id := by
        refine hother fun ⟨hhome, hid⟩ => hhit ⟨hunique hr₀ hm₀ ?_ hid, hhome⟩
        rw [hhome]
        exact hmem₀
      rw [hsame]
      refine .kept _ fun log => ?_
      rw [loadedSince_append_unloaded]
      refine and_iff_left ?_
      rintro ⟨rfl, hnone | hsome⟩
      · cases hnone
      · exact hhit ⟨rfl, (Option.some.inj hsome).symm⟩
  | retired k₀ r₀ manager₀ hr₀ hm₀ hp₀ =>
    obtain ⟨t, ht, hother, hgone⟩ := hp₀.contains ht' r.id
    refine ⟨t, ht, ?_⟩
    by_cases hk : k = k₀
    · subst hk
      obtain rfl := Option.some.inj (hr.symm.trans hr₀)
      obtain rfl := Option.some.inj (hm.symm.trans hm₀)
      rw [hgone hmem rfl]
      exact .gone _ fun log hlog => (loadedSince_append_unloaded.1 hlog).2 ⟨rfl, .inl rfl⟩
    · rw [hother fun hboth => hk (hunique hr₀ hm₀ hboth.1 hboth.2)]
      refine .kept _ fun log => ?_
      rw [loadedSince_append_unloaded]
      exact and_iff_left fun he => hk he.1.symm
  | dropped k₀ r₀ manager₀ D replicas hr₀ hm₀ hp₀ hD hget =>
    -- The value has a record afterwards, so it is another one.
    have hk : k ≠ k₀ := by
      rintro rfl
      rw [hget, if_pos rfl] at hr'
      cases hr'
    obtain ⟨t, ht, hother, -⟩ := hp₀.contains ht' r.id
    refine ⟨t, ht, ?_⟩
    rw [hother fun hboth => hk (hunique hr₀ hm₀ ((hD n).1 hboth.1).2 hboth.2)]
    exact .nil k n _

/-- Events are about values that are there. -/
theorem Change.recorded {events : List Event} (hc : h.Change events h') (hn : h.Numbered)
    {k : ReplicaId} {n : InstanceId} (hk : h.nextReplica ≤ k) (hlog : LoadedSince (log ++ events) k n) :
    LoadedSince log k n := by
  cases hc with
  | loaded k₀ r₀ manager home o hr hu hm hmem hl =>
    rcases loadedSince_append_loaded.1 hlog with hbefore | ⟨rfl, -⟩
    · exact hbefore
    · exact absurd (hn.number_lt k₀ r₀ hr) (Nat.not_lt.2 hk)
  | unloaded k₀ r₀ manager home hr hm hmem hp => exact (loadedSince_append_unloaded.1 hlog).1
  | retired k₀ r₀ manager hr hm hp => exact (loadedSince_append_unloaded.1 hlog).1
  | _ =>
    rw [List.append_nil] at hlog
    exact hlog

/-- A number that a manager has not given out yet is not loaded anywhere. -/
theorem Orderly.not_contains (ho : h.Orderly) {m : ManagerId} {manager : Manager} {n : InstanceId}
    {t : Table ObjectId ObjectIndex} (hm : h.managers[m]? = some manager)
    (hmem : n ∈ manager.instances) (ht : h.store n = some t) {id : ObjectId}
    (hid : manager.nextObject ≤ id.number) : t.contains id ≠ true := by
  intro hcontains
  obtain ⟨j, hj⟩ := Option.isSome_iff_exists.1 hcontains
  obtain ⟨k, r, -, hr, rfl, rfl, -⟩ := ho.stocked m manager n t id j hm hmem ht hj
  obtain ⟨manager', hm', hlt⟩ := ho.numbered.known k r hr
  obtain rfl := Option.some.inj (hm.symm.trans hm')
  exact UInt64.not_lt.2 hid hlt

theorem Tracked.of_change (ht : h.Tracked log) {events : List Event} (hc : h.Change events h')
    (ho : h.Orderly) : h'.Tracked (log ++ events) := by
  have hn := ho.numbered
  -- The records are inherited, or there is one more, of which the log does not know.
  rcases hc.records with hi | ⟨m₀, manager₀, data, hcreates, rfl⟩
  · constructor
    · intro k r' manager' n t' hr' hm' hmem hu' ht'
      obtain ⟨r, hr, hid, -, hmr, hu, -⟩ := hi.replicas k r' hr'
      obtain ⟨manager, hm, -⟩ := hn.known k r hr
      obtain ⟨manager'', hm'', hinst, -⟩ := hi.managers r.manager manager hm
      rw [hmr, hm''] at hm'
      cases hm'
      rw [hinst] at hmem
      rw [hid]
      obtain ⟨t, hs, hfollows⟩ := hc.stored ho.toPlaced hn hr hm hmem hr' ht'
      exact hfollows.tracked (ht.current k r manager n t hr hm hmem (hu hu') hs)
    · intro k n hk hlog
      rw [hi.nextReplica] at hk
      exact ht.future k n hk (hc.recorded hn hk hlog)
  · rw [List.append_nil]
    constructor
    · intro k r after n t hr hm' hmem hu hs
      rw [hcreates.store] at hs
      obtain ⟨before, hm, hinst⟩ := hcreates.manager_before hm'
      rw [hinst] at hmem
      rcases hcreates.record hr with ⟨rfl, rfl⟩ | hr
      · -- The new value is loaded nowhere, and the log does not know of it.
        obtain rfl := Option.some.inj (hm.symm.trans hcreates.known)
        refine iff_of_false ?_ (ht.future _ n (Nat.le_refl _))
        exact ho.not_contains hm hmem hs (UInt64.le_refl _)
      · exact ht.current k r before n t hr hm hmem hu hs
    · intro k n hk
      rw [hcreates.nextReplica] at hk
      exact ht.future k n (Nat.le_of_succ_le hk)

theorem tracked_empty : Tracked [] {} where
  current := nofun
  future k n _ := by
    rintro ⟨before, after, he, -⟩
    exact List.append_ne_nil_of_right_ne_nil before (List.cons_ne_nil _ after) he.symm

theorem tracked_after (ht : h.Tracked log) (ho : h.Orderly) {actions : List Action}
    (ha : h.Permits Proper actions) : (h.after actions).Tracked (log ++ h.log actions) := by
  induction actions generalizing h log with
  | nil =>
    rw [Host.log, List.append_nil]
    exact ht
  | cons a actions ih =>
    have hstep := ih (ht.of_change (ho.change ha.1) ho) (ho.step ha.1) ha.2
    rw [List.append_assoc] at hstep
    exact hstep

/-- An object is loaded in an instance of a manager just if it belongs to a value of the manager that
can be materialized, and was materialized there since it was last unloaded. -/
theorem holds_iff_loadedSince (ho : h.Orderly) (ht : h.Tracked log) {m : ManagerId} {manager : Manager}
    {n : InstanceId} (hm : h.managers[m]? = some manager) (hmem : n ∈ manager.instances)
    (id : ObjectId) : h.holds n id = true ↔ ∃ k r, h.replicas.get? k = some r ∧ r.manager = m ∧
      r.id = id ∧ 0 < r.handles ∧ r.unloaded = false ∧ LoadedSince log k n := by
  constructor
  · intro hholds
    obtain ⟨t, hs, hcontains⟩ := holds_iff_store.1 hholds
    obtain ⟨j, hj⟩ := Option.isSome_iff_exists.1 hcontains
    obtain ⟨k, r, -, hr, rfl, rfl, hu, -⟩ := ho.stocked m manager n t id j hm hmem hs hj
    have hlog := (ht.current k r manager n t hr hm hmem hu hs).1 hcontains
    exact ⟨k, r, hr, rfl, rfl, ho.numbered.alive k r hr, hu, hlog⟩
  · rintro ⟨k, r, hr, rfl, rfl, -, hu, hlog⟩
    -- The manager of a value stands, so there is a store to look at.
    obtain ⟨manager', hm', hlinked⟩ := ho.standing k r hr
    obtain rfl := Option.some.inj (hm.symm.trans hm')
    obtain ⟨t, hs⟩ := Option.ne_none_iff_exists'.1 fun hnone =>
      hlinked n hmem (ho.toWired.store_none hnone)
    exact holds_iff_store.2 ⟨t, hs, (ht.current k r manager n t hr hm hmem hu hs).2 hlog⟩

/-- An identifier was given out by a manager, and whatever value has it was unloaded for good. -/
structure Gone (h : Host) (m : ManagerId) (id : ObjectId) : Prop where
  given : ∃ manager, h.managers[m]? = some manager ∧ id.number < manager.nextObject
  retired : ∀ k r, h.replicas.get? k = some r → r.manager = m → r.id = id → r.unloaded = true

theorem Gone.not_holds {m : ManagerId} {id : ObjectId} (hg : h.Gone m id) (ho : h.Orderly)
    {manager : Manager} {n : InstanceId} (hm : h.managers[m]? = some manager)
    (hmem : n ∈ manager.instances) : h.holds n id = false := by
  rw [Bool.eq_false_iff]
  intro hholds
  obtain ⟨t, hs, hcontains⟩ := holds_iff_store.1 hholds
  obtain ⟨j, hj⟩ := Option.isSome_iff_exists.1 hcontains
  obtain ⟨k, r, -, hr, hmr, hid, hu, -⟩ := ho.stocked m manager n t id j hm hmem hs hj
  rw [hg.retired k r hr hmr hid] at hu
  cases hu

/-- What is gone stays so: no value comes back, and no new one has its identifier. -/
theorem Gone.of_change {m : ManagerId} {id : ObjectId} (hg : h.Gone m id) {events : List Event}
    (hc : h.Change events h') : h'.Gone m id := by
  obtain ⟨manager, hm, hlt⟩ := hg.given
  rcases hc.records with hi | ⟨m₀, manager₀, data, hcreates, -⟩
  · constructor
    · obtain ⟨manager', hm', -, hnext⟩ := hi.managers m manager hm
      exact ⟨manager', hm', hnext ▸ hlt⟩
    · intro k r' hr' hmr hid
      obtain ⟨r, hr, hid', -, hm', hu, -⟩ := hi.replicas k r' hr'
      have hbefore := hg.retired k r hr (hm'.symm.trans hmr) (hid'.symm.trans hid)
      rw [← Bool.not_eq_false]
      intro hback
      rw [hu hback] at hbefore
      cases hbefore
  · constructor
    · obtain ⟨after, hm', -, hnext⟩ := hcreates.manager_after hm
      exact ⟨after, hm', hnext _ hlt⟩
    · intro k r hr hmr hid
      rcases hcreates.record hr with ⟨-, rfl⟩ | hr
      · subst hmr hid
        obtain rfl := Option.some.inj (hm.symm.trans hcreates.known)
        exact absurd hlt (UInt64.lt_irrefl _)
      · exact hg.retired k r hr hmr hid

theorem gone_after {m : ManagerId} {id : ObjectId} (hg : h.Gone m id) (ho : h.Orderly)
    {actions : List Action} (ha : h.Permits Proper actions) :
    (h.after actions).Gone m id ∧ (h.after actions).Orderly :=
  after_of_step (I := fun h => h.Gone m id ∧ h.Orderly)
    (fun _ _ hg ha => ⟨hg.1.of_change (hg.2.change ha), hg.2.step ha⟩) ⟨hg, ho⟩ ha

/-- A value that was unloaded from all instances, or whose last handle was given up, is gone. -/
theorem Orderly.gone (ho : h.Orderly) {k : ReplicaId} {r : Replica} (hr : h.replicas.get? k = some r)
    (hrecord : ∀ r', h'.replicas.get? k = some r' → r'.unloaded = true)
    (hothers : ∀ k', k' ≠ k → h'.replicas.get? k' = h.replicas.get? k')
    (hm : h'.managers = h.managers) : h'.Gone r.manager r.id := by
  constructor
  · rw [hm]
    exact ho.numbered.known k r hr
  · intro k' r' hr' hmr hid
    by_cases he : k' = k
    · subst he
      exact hrecord r' hr'
    · rw [hothers k' he] at hr'
      exact absurd (ho.numbered.unique k' k r' r hr' hr hmr hid) he

theorem gone_unload (ho : h.Orderly) {k : ReplicaId} {r : Replica} (hr : h.replicas.get? k = some r) :
    (h.step (.unload k none)).Gone r.manager r.id ∧
      (h.step (.unload k none)).replicas.get? k = some { r with unloaded := true } := by
  obtain ⟨manager, h₁, -, -, hp, hall⟩ := unloadAll_ok ho.toWired ho.standing hr
  have hstep : h.step (.unload k none) =
      { h₁ with replicas := h₁.replicas.insert k { r with unloaded := true } } :=
    congrArg Prod.snd hall
  rw [hstep]
  have hself : (h₁.replicas.insert k { r with unloaded := true }).get? k =
      some { r with unloaded := true } := by
    rw [Table.get?_insert_self]
  refine ⟨ho.gone hr (fun r' hr' => ?_) (fun k' hk' => ?_) hp.values.managers, hself⟩
  · obtain rfl := Option.some.inj (hself.symm.trans hr')
    rfl
  · rw [Table.get?_insert_of_ne hk', hp.values.replicas]

theorem gone_dropReplica (ho : h.Orderly) {k : ReplicaId} {r : Replica}
    (hr : h.replicas.get? k = some r) (hlast : r.handles ≤ 1) :
    (h.step (.dropReplica k)).Gone r.manager r.id := by
  rcases dropReplica_cases ho.toWired ho.standing hr with
    ⟨hmany, -⟩ | ⟨-, manager, D, h₁, replicas, -, -, hp, -, hget, hdrop⟩
  · exact absurd hmany (Nat.not_lt.2 hlast)
  · have hstep : h.step (.dropReplica k) = { h₁ with replicas } := congrArg Prod.snd hdrop
    rw [hstep]
    refine ho.gone hr (fun r' hr' => ?_) (fun k' hk' => ?_) hp.values.managers
    · rw [hget, if_pos rfl] at hr'
      cases hr'
    · rw [hget, if_neg hk']

theorem dropReplica_shared (ho : h.Orderly) {k : ReplicaId} {r : Replica}
    (hr : h.replicas.get? k = some r) (hmany : 1 < r.handles) : h.step (.dropReplica k) =
      { h with replicas := h.replicas.insert k { r with handles := r.handles - 1 } } := by
  rcases dropReplica_cases ho.toWired ho.standing hr with ⟨-, hdrop⟩ | ⟨hlast, -⟩
  · exact congrArg Prod.snd hdrop
  · exact absurd hmany (Nat.not_lt.2 hlast)

/-- Attempts to materialize a value that was unloaded for good change nothing. -/
theorem materialize_unloaded {k : ReplicaId} {r : Replica} (hr : h.replicas.get? k = some r)
    (hu : r.unloaded = true) :
    (∀ s, runOn h (materialize s k) = (.error (.objectNotFound r.id), h)) ∧
      ∀ on t, runOn h (openReplica k on t) = (.error (.objectNotFound r.id), h) := by
  have hrequire := requireLoaded_unloaded hu h
  refine ⟨fun s => ?_, fun on t => ?_⟩
  · rw [materialize, runOn_bind_ok (getReplica_ok hr), runOn_bind_error hrequire]
  · rw [openReplica_eq, runOn_bind_ok (getReplica_ok hr), runOn_bind_error hrequire]

/-- After every run, an instance of a manager holds an object for an identifier just if a value that
has the identifier still has a handle, was not unloaded for good, and was materialized in the instance
since it was last unloaded from it. Once a value is unloaded from all instances, or its last handle is
given up, no instance holds its identifier ever again. To give up another handle changes nothing but
their number, and to materialize a value that was unloaded for good fails and changes nothing. -/
theorem holds_iff_materialized (earlier : List Action) (he : Host.Permits Proper {} earlier) :
    let h := Host.after {} earlier
    (∀ m manager n id, h.managers[m]? = some manager → n ∈ manager.instances →
      (h.holds n id = true ↔ ∃ k r, h.replicas.get? k = some r ∧ r.manager = m ∧ r.id = id ∧
        0 < r.handles ∧ r.unloaded = false ∧ LoadedSince (Host.log {} earlier) k n)) ∧
    ∀ k r, h.replicas.get? k = some r →
      (∀ a later, (a = .unload k none ∧ (runOn h (unload k none)).1 = .ok () ∨
          a = .dropReplica k ∧ r.handles ≤ 1) → (h.step a).Permits Proper later →
        ∀ (manager : Manager) n, ((h.step a).after later).managers[r.manager]? = some manager →
          n ∈ manager.instances → ((h.step a).after later).holds n r.id = false) ∧
      (1 < r.handles → h.step (.dropReplica k) =
        { h with replicas := h.replicas.insert k { r with handles := r.handles - 1 } }) ∧
      ((runOn h (unload k none)).1 = .ok () →
        (h.step (.unload k none)).replicas.get? k = some { r with unloaded := true }) ∧
      (r.unloaded = true → ∀ later, h.Permits Proper later →
        ∀ r', (h.after later).replicas.get? k = some r' →
          (∀ s, runOn (h.after later) (materialize s k) =
            (.error (.objectNotFound r.id), h.after later)) ∧
          ∀ on t, runOn (h.after later) (openReplica k on t) =
            (.error (.objectNotFound r.id), h.after later)) := by
  intro h
  have ho : h.Orderly := orderly_after orderly_empty he
  have ht : h.Tracked (Host.log {} earlier) := by
    have hlog := tracked_after tracked_empty orderly_empty he
    rw [List.nil_append] at hlog
    exact hlog
  refine ⟨fun m manager n id hm hmem => holds_iff_loadedSince ho ht hm hmem id, fun k r hr =>
    ⟨fun a later hend hlater manager n hm hmem => ?_, dropReplica_shared ho hr,
      fun _ => (gone_unload ho hr).2, fun hu later hlater r' hr' => ?_⟩⟩
  · have hgone : (h.step a).Gone r.manager r.id ∧ (h.step a).Orderly := by
      rcases hend with ⟨rfl, -⟩ | ⟨rfl, hlast⟩
      · exact ⟨(gone_unload ho hr).1, ho.step ⟨trivial, trivial⟩⟩
      · exact ⟨gone_dropReplica ho hr hlast, ho.step ⟨trivial, trivial⟩⟩
    -- What is gone comes back in no later action.
    obtain ⟨hgone', ho'⟩ := gone_after hgone.1 hgone.2 hlater
    exact hgone'.not_holds ho' hm hmem
  · obtain ⟨r₀, hr₀, hid, -, -, hu'⟩ := replica_before ho (ho.numbered.number_lt k r hr) hlater hr'
    obtain rfl := Option.some.inj (hr.symm.trans hr₀)
    -- The mark of a value is never taken away.
    have hstill : r'.unloaded = true := by
      rw [← Bool.not_eq_false]
      intro hback
      rw [hu' hback] at hu
      cases hu
    rw [← hid]
    exact materialize_unloaded hr' hstill

end Host

/-- A run in which a value is materialized in two instances and unloaded from one of them, and gets a
second handle. -/
def Action.shortLife : List Action :=
  [.addSource (.stock { rule := (Stock.simulated 0 none).rule }), .addLoader (.simulated {}),
    .addEnvironment {},
    .buildManager { count := 2, image := { source := 0, loader := 0 }, environment := 0 },
    .openBalanced 0 none, .perform 0 (.eval "[1]"), .createReplica 0 ⟨⟨3⟩, 0⟩, .openBalanced 0 none,
    .materialize 0 0, .openReplica 0 (some 1) none, .cloneReplica 0, .unload 0 (some 1)]

theorem Host.holds_iff_materialized_shortLife :
    Host.Permits Host.Proper {} Action.shortLife ∧
      (Host.after {} Action.shortLife).holds 0 ⟨0⟩ = true ∧
      (Host.after {} Action.shortLife).holds 1 ⟨0⟩ = false ∧
      (∃ k r, (Host.after {} Action.shortLife).replicas.get? k = some r ∧ r.id = ⟨0⟩ ∧
        r.unloaded = false ∧ LoadedSince (Host.log {} Action.shortLife) k 0) ∧
      ∀ later, (Host.after {} (Action.shortLife ++ [.unload 0 none])).Permits Host.Proper later →
        ∀ (manager : Manager) n,
          (Host.after {} (Action.shortLife ++ .unload 0 none :: later)).managers[0]? = some manager →
            n ∈ manager.instances →
              (Host.after {} (Action.shortLife ++ .unload 0 none :: later)).holds n ⟨0⟩ = false := by
  have hp : Host.Permits Host.Proper {} Action.shortLife := by decide +kernel
  have hhere : (Host.after {} Action.shortLife).holds 0 ⟨0⟩ = true := by decide +kernel
  have hthere : (Host.after {} Action.shortLife).holds 1 ⟨0⟩ = false := by decide +kernel
  have hteam : ((Host.after {} Action.shortLife).managers[0]?).map Manager.instances =
      some [0, 1] := by decide +kernel
  have hr : (Host.after {} Action.shortLife).replicas.get? 0 =
      some { id := ⟨0⟩, data := [5, 1, 2, 2], manager := 0, handles := 2 } := by decide +kernel
  have hdone : (runOn (Host.after {} Action.shortLife) (Host.unload 0 none)).1.toOption =
      some () := by decide +kernel
  obtain ⟨hiff, hlife⟩ := Host.holds_iff_materialized Action.shortLife hp
  refine ⟨hp, hhere, hthere, ?_, fun later hlater manager n hm hmem => ?_⟩
  · obtain ⟨manager, hm, hi⟩ := Option.map_eq_some_iff.1 hteam
    have hmem : 0 ∈ manager.instances := by
      rw [hi]
      exact List.mem_cons_self
    obtain ⟨k, r, hr, -, hid, -, hu, hlog⟩ := (hiff 0 manager 0 ⟨0⟩ hm hmem).1 hhere
    exact ⟨k, r, hr, hid, hu, hlog⟩
  · have hok := congrArg Prod.fst (runOn_of_toOption hdone)
    simp only [Host.after, List.foldl_append, List.foldl_cons, List.foldl_nil] at hlater hm ⊢
    exact (hlife 0 _ hr).1 (.unload 0 none) later (.inl ⟨rfl, hok⟩) hlater manager n hm hmem

end InstancePool
