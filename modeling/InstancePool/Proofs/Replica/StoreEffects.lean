import InstancePool.Proofs.Replica.Frame

/-!
What it does to the stores of the instances to materialize a value or to unload it.
-/

namespace InstancePool

open HostM

namespace Host

/-- The object `n` is loaded for an identifier in the instance `home`, made of the given bytes if it was
not there. -/
structure Loads (home : InstanceId) (id : ObjectId) (data : List UInt8) (n : ObjectIndex)
    (h h' : Host) : Prop where
  values : h.SameValues h'
  heap : h.machine.heap.Extends h'.machine.heap
  store : ∃ t t', h.store home = some t ∧ Fetched h'.machine.heap id data t n t' ∧
    ∀ i, h'.store i = if i = home then some t' else h.store i

/-- In the instances in `D` there is no longer an object for an identifier. -/
structure Purges (id : ObjectId) (D : InstanceId → Prop) (h h' : Host) : Prop where
  values : h.SameValues h'
  heap : h.machine.heap.Extends h'.machine.heap
  gone : ∀ n, D n → h'.store n = (h.store n).map fun t => t.erase id
  kept : ∀ n, ¬ D n → h'.store n = h.store n

/-- A value was materialized in a session, which handed out the object `n` for it. -/
structure Materialized (h : Host) (s : SessionId) (k : ReplicaId) (r : Replica) (session : Session)
    (home : InstanceId) (slots : List ObjectIndex) (n : ObjectIndex) (h' : Host) : Prop where
  record : h.replicas.get? k = some r
  loadable : r.unloaded = false
  opened : h.sessions.get? s = some session
  homed : session.origin.home? = some home
  member : ∃ team, h.team r.manager = some team ∧ home ∈ team
  wired : h'.Wired
  loads : h.Loads home r.id r.data n h'
  served : h'.Served session.link session.key
  before : h.slotsAt session.link session.key = some slots
  after : h'.slotsAt session.link session.key = some (slots ++ [n])

variable {h h' h₁ h₂ h₃ : Host} {id : ObjectId} {D D' : InstanceId → Prop}

theorem Purges.refl (hD : ∀ n, D n → h.store n = none) : h.Purges id D h where
  values := .refl h
  heap := .refl _
  gone n hn := by rw [hD n hn]; rfl
  kept _ _ := rfl

theorem Purges.trans (hp : h₁.Purges id D h₂) (hp' : h₂.Purges id D' h₃) :
    h₁.Purges id (fun n => D n ∨ D' n) h₃ where
  values := hp.values.trans hp'.values
  heap := hp.heap.trans hp'.heap
  gone n hn := by
    -- It does not matter whether an instance is purged once or twice.
    by_cases hd : D n
    · by_cases hd' : D' n
      · rw [hp'.gone n hd', hp.gone n hd, Option.map_map]
        congr 1
        funext t
        exact t.erase_erase id
      · rw [hp'.kept n hd', hp.gone n hd]
    · rw [hp'.gone n (hn.resolve_left hd), hp.kept n hd]
  kept n hn := by
    rw [hp'.kept n fun hd => hn (.inr hd), hp.kept n fun hd => hn (.inl hd)]

theorem Purges.congr (hp : h.Purges id D h') (hD : ∀ n, D' n ↔ D n) : h.Purges id D' h' where
  values := hp.values
  heap := hp.heap
  gone n hn := hp.gone n ((hD n).1 hn)
  kept n hn := hp.kept n fun hd => hn ((hD n).2 hd)

theorem Wired.purges_of_spares (hw : h.Wired)
    (hs : h.Spares (fun _ => True) (fun _ => True) h') : h.Purges id (fun _ => False) h' where
  values := hs.toSameBooks.values
  heap := hs.machine.heap
  gone _ := False.elim
  kept _ _ := hw.store_of_spares hs fun _ _ => trivial

theorem linkOf_of_session (hp : h.Placed) {s : SessionId} {session : Session} {home : InstanceId}
    (hs : h.sessions.get? s = some session) (ho : session.origin.home? = some home) :
    h.linkOf home = some session.link := by
  obtain ⟨i, hi, hl⟩ := hp.linked s session home hs ho
  rw [linkOf, hi]
  exact hl

theorem restore_cases (hw : h.Wired) {home : InstanceId} {l : Link} (hl : h.linkOf home = some l)
    (key : SessionKey) (id : ObjectId) (data : List UInt8) :
    (∃ e, runOn h (l.perform key (.restore id data)) = (.error e, h)) ∨
      ∃ slots n h', runOn h (l.perform key (.restore id data)) =
          (.ok (.ref ⟨key, UInt32.ofNat slots.length⟩), h') ∧ h'.Wired ∧
        h.Loads home id data n h' ∧ h'.Served l key ∧ h.slotsAt l key = some slots ∧
        h'.slotsAt l key = some (slots ++ [n]) := by
  obtain ⟨k, i, hk, -, hi, ht⟩ := hw.interp hl
  rcases Link.restore_cases key id data hk hi with
    ⟨e, he⟩ | ⟨hserved, slots, n, i', m', hslots, hr, hi', hf, hsess, hfetch⟩
  · exact .inl ⟨e, he⟩
  · have hspares : h.Spares (· ≠ k) (fun _ => True) { h with machine := m' } := by
      have hs := Link.spares_others hk key (.restore id data)
      rw [hr] at hs
      exact hs
    have hlive : i.finalized = false := by
      obtain ⟨j, hj, hf⟩ := hk.interp
      rw [hi] at hj
      cases hj
      exact hf
    obtain ⟨hw', hstore⟩ := hw.store_after hl hk hspares hi' (hf.trans hlive)
    refine .inr ⟨slots, n, _, hr, hw', ⟨hspares.toSameBooks.values, hspares.machine.heap, ?_⟩, hserved,
      ?_, ?_⟩
    · exact ⟨i.loaded, i'.loaded, ht, hfetch, hstore⟩
    · rw [slotsAt_eq hk.interpAt hi, hslots]
    · rw [slotsAt_eq (hspares.interpAt hk.interpAt) hi', hsess, Table.get?_insert_self]

/-- Materializing a value fails without a trace, or the value is loaded afterwards. -/
theorem materialize_cases (hp : h.Placed) (hw : h.Wired) (s : SessionId) (k : ReplicaId) :
    (∃ e, runOn h (materialize s k) = (.error e, h)) ∨
      ∃ r session home slots n h',
        runOn h (materialize s k) = (.ok ⟨session.key, UInt32.ofNat slots.length⟩, h') ∧
        h.Materialized s k r session home slots n h' := by
  unfold materialize getReplica getSession
  rcases find_cases (fun h => h.replicas.get? k) h with ⟨-, hr⟩ | ⟨r, hrecord, hr⟩
  · exact .inl ⟨_, runOn_bind_error hr _⟩
  rw [runOn_bind_ok hr]
  cases hu : r.unloaded with
  | true =>
    exact .inl ⟨.objectNotFound r.id, runOn_bind_error (requireLoaded_unloaded hu h) _⟩
  | false =>
    rw [runOn_bind_ok (requireLoaded_ok hu h)]
    rcases find_cases (fun h => h.sessions.get? s) h with ⟨-, hr⟩ | ⟨session, hsession, hr⟩
    · exact .inl ⟨_, runOn_bind_error hr _⟩
    rw [runOn_bind_ok hr]
    rcases find_cases (fun _ => session.origin.home?) h with ⟨-, hr⟩ | ⟨home, hhome, hr⟩
    · exact .inl ⟨_, runOn_bind_error hr _⟩
    rw [runOn_bind_ok hr]
    rcases requireOwned_cases r.manager home h with ⟨e, hr⟩ | ⟨manager, hm, hmem, hr⟩
    · exact .inl ⟨_, runOn_bind_error hr _⟩
    rw [runOn_bind_ok hr]
    have hl := linkOf_of_session hp hsession hhome
    -- The session is on an instance of the manager, so the value is restored there.
    rcases restore_cases hw hl session.key r.id r.data with
      ⟨e, hr⟩ | ⟨slots, n, h', hr, hw', hloads, hserved, hbefore, hafter⟩ <;>
      rw [← runOn_perform hsession] at hr
    · exact .inl ⟨_, runOn_bind_error hr _⟩
    · refine .inr ⟨r, session, home, slots, n, h', runOn_bind_ok hr _, ?_⟩
      exact ⟨hrecord, hu, hsession, hhome, ⟨_, team_of_manager hm, hmem⟩, hw', hloads, hserved,
        hbefore, hafter⟩

theorem unload_purges (hw : h.Wired) {n : InstanceId} {l : Link} {k : Nat} {key : SessionKey}
    {slots : List ObjectIndex} (id : ObjectId) (hl : h.linkOf n = some l) (hk : h.Serves l k)
    (hserved : h.Served l key) (hslots : h.slotsAt l key = some slots) :
    ∃ b h', runOn h (l.perform key (.unload id)) = (.ok (.bool b), h') ∧ h'.Wired ∧
      h.Purges id (· = n) h' := by
  obtain ⟨i, hi, hf⟩ := hk.interp
  have hlt : k < h.machine.interps.length := (List.getElem?_eq_some_iff.1 hi).1
  obtain ⟨b, hr⟩ := Link.unload_ok id hk hserved hslots hi
  have hs := Link.spares_others hk key (.unload id)
  rw [hr] at hs
  obtain ⟨hw', hstore⟩ := hw.store_after hl hk hs (List.getElem?_set_self hlt) hf
  refine ⟨b, _, hr, hw', hs.toSameBooks.values, hs.machine.heap, ?_, fun m hm => ?_⟩
  · rintro m rfl
    have hown : h.store m = some i.loaded := store_eq.2 ⟨k, i, seat_eq.2 ⟨l, hl, hk.interpAt⟩, hi, rfl⟩
    rw [hstore, if_pos rfl, hown]
    rfl
  · rw [hstore, if_neg hm]

theorem requireOwned_ok {m : ManagerId} {manager : Manager} {n : InstanceId}
    (hm : h.managers[m]? = some manager) (hn : n ∈ manager.instances) :
    runOn h (requireOwned m n) = (.ok (), h) := by
  rw [requireOwned, owns, bind_assoc, runOn_bind_ok (getManager_ok hm)]
  simp only [pure_bind, List.contains_iff_mem, hn, not_true, if_false]
  rfl

/-- A value is dropped from an instance of its manager. -/
theorem unloadFrom_ok (hw : h.Wired) {r : Replica} {manager : Manager} {n : InstanceId} {l : Link}
    (hm : h.managers[r.manager]? = some manager) (hn : n ∈ manager.instances)
    (hl : h.linkOf n = some l) :
    ∃ h', runOn h (unloadFrom r n) = (.ok (), h') ∧ h'.Wired ∧ h.Purges r.id (· = n) h' := by
  obtain ⟨i, hi, hlink⟩ := Option.bind_eq_some_iff.1 hl
  obtain ⟨k, hk⟩ := hw.serves n l hl
  have hget : runOn h (getInstance n) = (.ok i, h) := by
    simp only [getInstance, runOn_find, hi, Option.elim]
  rw [unloadFrom, runOn_bind_ok (requireOwned_ok hm hn), runOn_bind_ok hget, Instance.withSession,
    hlink]
  simp only []
  rw [Link.withSession]
  -- A session is opened for it, used and closed again.
  obtain ⟨key, h₁, hopen, hk₁, hserved, hslots⟩ := Link.openSession_ok hk
  have hs₁ := (l.within_openSession (S := fun _ => True) (T := fun _ => True)).of_eq hopen
  have hw₁ := (settles_of_spares (X := fun _ => False) hs₁ hw).1
  have hl₁ : h₁.linkOf n = some l := (hs₁.toSameBooks.linkOf n).trans hl
  obtain ⟨b, h₂, hr, hw₂, hp⟩ := unload_purges hw₁ r.id hl₁ hk₁ hserved hslots
  have hl₂ : h₂.linkOf n = some l := (hp.values.linkOf n).trans hl₁
  obtain ⟨k₂, hk₂⟩ := hw₂.serves n l hl₂
  obtain ⟨h₃, hclose⟩ := Link.closeSession_ok key hk₂
  have hs₃ := (l.within_closeSession (S := fun _ => True) (T := fun _ => True) key).of_eq hclose
  have hdone : runOn h₁ (outcome (do let _ ← l.perform key (.unload r.id))) =
      (.ok (.ok ()), h₂) := by
    rw [runOn_outcome, runOn_bind_ok hr]
    rfl
  refine ⟨h₃, ?_, (settles_of_spares (X := fun _ => False) hs₃ hw₂).1, ?_⟩
  · rw [runOn_bind_ok hopen, ensuring, runOn_bind_ok hdone, runOn_bind_ok hclose]
    rfl
  · have hpurges := ((hw.purges_of_spares hs₁).trans hp).trans (hw₂.purges_of_spares hs₃)
    exact hpurges.congr fun m => by simp only [false_or, or_false]

/-- Without a link there is nothing to drop a value from. -/
theorem unloadFrom_unlinked (r : Replica) {n : InstanceId} (hl : h.linkOf n = none) :
    ∃ e, runOn h (unloadFrom r n) = (.error e, h) := by
  unfold unloadFrom
  rcases requireOwned_cases r.manager n h with ⟨e, hr⟩ | ⟨manager, -, -, hr⟩
  · exact ⟨e, runOn_bind_error hr _⟩
  · rw [runOn_bind_ok hr]
    rcases find_cases (fun h => h.instances[n]?) h with ⟨-, hr⟩ | ⟨i, hi, hr⟩
    · exact ⟨_, runOn_bind_error hr _⟩
    · have hlink : i.link = none := by
        rw [linkOf, hi] at hl
        exact hl
      rw [getInstance, runOn_bind_ok hr, Instance.withSession, hlink]
      exact ⟨_, rfl⟩

/-- A value is dropped from all of some instances of its manager, and if they can be reached none of
this fails. -/
theorem unloadFromEach_purges {r : Replica} {manager : Manager} {ns : List InstanceId}
    (hw : h.Wired) (hm : h.managers[r.manager]? = some manager)
    (hn : ∀ n ∈ ns, n ∈ manager.instances) :
    (runOn h (unloadFromEach r ns)).2.Wired ∧
      h.Purges r.id (· ∈ ns) (runOn h (unloadFromEach r ns)).2 ∧
      ((∀ n ∈ ns, h.linkOf n ≠ none) → (runOn h (unloadFromEach r ns)).1 = .ok ()) := by
  induction ns generalizing h with
  | nil =>
    exact ⟨hw, Purges.refl fun n hn => absurd hn List.not_mem_nil, fun _ => rfl⟩
  | cons n ns ih =>
    obtain ⟨first, h₁, hr, hw₁, hp, hok⟩ : ∃ first h₁, runOn h (unloadFrom r n) = (first, h₁) ∧
        h₁.Wired ∧ h.Purges r.id (· = n) h₁ ∧ (h.linkOf n ≠ none → first = .ok ()) := by
      cases hl : h.linkOf n with
      | some l =>
        obtain ⟨h₁, hr, hw₁, hp⟩ := unloadFrom_ok hw hm (hn n List.mem_cons_self) hl
        exact ⟨_, h₁, hr, hw₁, hp, fun _ => rfl⟩
      | none =>
        obtain ⟨e, hr⟩ := unloadFrom_unlinked r hl
        refine ⟨_, h, hr, hw, Purges.refl ?_, fun hne => absurd rfl hne⟩
        rintro m rfl
        exact store_of_linkOf_none hl
    have hm₁ : h₁.managers[r.manager]? = some manager := by rw [hp.values.managers, hm]
    obtain ⟨hw₂, hp₂, hok₂⟩ := ih hw₁ hm₁ fun m hmem => hn m (List.mem_cons_of_mem n hmem)
    have hfirst : runOn h (outcome (unloadFrom r n)) = (.ok first, h₁) := by
      rw [runOn_outcome, hr]
    have hrest : runOn h₁ (outcome (unloadFromEach r ns)) =
        (.ok (runOn h₁ (unloadFromEach r ns)).1, (runOn h₁ (unloadFromEach r ns)).2) :=
      runOn_outcome ..
    -- The first instance and then the rest, whatever became of the first.
    have hpurges : h.Purges r.id (· ∈ n :: ns) (runOn h₁ (unloadFromEach r ns)).2 :=
      (hp.trans hp₂).congr fun m => List.mem_cons
    rw [unloadFromEach, runOn_bind_ok hfirst, runOn_bind_ok hrest]
    have hstate : (runOn (runOn h₁ (unloadFromEach r ns)).2 (do
        settle first
        settle (runOn h₁ (unloadFromEach r ns)).1)).2 = (runOn h₁ (unloadFromEach r ns)).2 := by
      cases first <;> rfl
    rw [hstate]
    refine ⟨hw₂, hpurges, fun hlinked => ?_⟩
    obtain rfl := hok (hlinked n List.mem_cons_self)
    refine hok₂ fun m hmem => ?_
    rw [hp.values.linkOf]
    exact hlinked m (List.mem_cons_of_mem n hmem)

end Host

end InstancePool
