import InstancePool.Proofs.Session.ReferenceIdentity
import InstancePool.Proofs.Replica.Lifecycle
import InstancePool.Proofs.Replica.Content

/-!
What it takes to materialize a value in an instance. If there is an object for it, that is handed out and
nothing is read; otherwise one is read, which is counted and new.
-/

namespace InstancePool

open HostM

/-- What it took to hand out the object `n` for an identifier: nothing if it was there, and otherwise one
more object was read. -/
inductive Interp.Recalls (heap : Heap) (id : ObjectId) (n : ObjectIndex) (i i' : Interp) : Prop
  | kept (hn : i.loaded.get? id = some n) (hr : i'.restores = i.restores)
  | made (hn : i.loaded.get? id = none) (hr : i'.restores = i.restores + 1)
    (hnew : n = heap.objects.length)

theorem Machine.recalls {m : Machine} {k : Nat} {i : Interp} {key : SessionKey} {id : ObjectId}
    {data : List UInt8} {source : TextSource} {r : Response} (hi : m.interps[k]? = some i)
    (hr : (m.perform source k key (.restore id data)).1 = .ok r) :
    ∃ slots n i', i.sessions.get? key = some slots ∧
      (m.perform source k key (.restore id data)).2.interps[k]? = some i' ∧
      i'.sessions.get? key = some (slots ++ [n]) ∧ i.Recalls m.heap id n i' := by
  have hlt : k < m.interps.length := (List.getElem?_eq_some_iff.1 hi).1
  have hlast (t : Table SessionKey (List ObjectIndex)) (slots : List ObjectIndex) :
      (t.insert key slots).get? key = some slots := by
    rw [Table.get?_insert_self]
  rw [perform_eq hi] at hr ⊢
  have hp := Engine.perform_performed source key (.restore id data) ⟨m.heap, i⟩
  generalize Engine.perform source key (.restore id data) ⟨m.heap, i⟩ = x at hp hr
  cases hp with
  | unknown | failed => cases hr
  | @done _ slots x hk hd =>
    cases hd with
    | seen hkind hne => exact absurd hkind hne
    | handed n hans hl =>
      exact ⟨slots, n, _, hk, List.getElem?_set_self hlt, hlast _ _, .kept (hl id data rfl) rfl⟩
    | made v hans hl => exact absurd rfl (hl id data)
    | restored v hn hv =>
      exact ⟨slots, _, _, hk, List.getElem?_set_self hlt, hlast _ _, .made hn rfl rfl⟩

/-- So it is through a link. -/
theorem Link.recalls {h h' : Host} {l : Link} {k : Nat} {i : Interp} {key : SessionKey} {id : ObjectId}
    {data : List UInt8} {r : Response} (hs : h.Serves l k) (hi : h.machine.interps[k]? = some i)
    (hr : runOn h (l.perform key (.restore id data)) = (.ok r, h')) :
    h'.channels = h.channels ∧ ∃ slots n i', i.sessions.get? key = some slots ∧
      h'.machine.interps[k]? = some i' ∧ i'.sessions.get? key = some (slots ++ [n]) ∧
      i.Recalls h.machine.heap id n i' := by
  rcases perform_relayed key (.restore id data) hs rfl with
    ⟨-, e, he⟩ | ⟨-, op', heard, ha, hperformed, hrelay⟩
  · rw [hr] at he
    cases he
  · rw [hr] at hperformed
    obtain ⟨rfl, rfl⟩ := Prod.mk.inj hperformed
    obtain ⟨data', rfl, -⟩ := Fetched.of_arrives ha
    obtain ⟨sent, hsent⟩ := hrelay.of_ok rfl
    exact ⟨rfl, Machine.recalls hi hsent⟩

namespace Host

/-- How many objects an instance has read from their serialized form. -/
def restoresAt (h : Host) (n : InstanceId) : Option Nat :=
  ((h.seat n).bind fun k => h.machine.interps[k]?).map Interp.restores

/-- The object that an instance holds for an identifier. -/
def objectAt (h : Host) (n : InstanceId) (id : ObjectId) : Option ObjectIndex :=
  (h.store n).bind fun t => t.get? id

variable {h h' h₁ : Host} {S T : Nat → Prop} {s : SessionId} {session : Session} {n : InstanceId}
  {k : ReplicaId} {r : Replica} {o : ObjectIndex} {slots : List ObjectIndex} {ref : Ref}

theorem restoresAt_eq {j : Nat} {i : Interp} (hn : h.seat n = some j)
    (hi : h.machine.interps[j]? = some i) : h.restoresAt n = some i.restores := by
  rw [restoresAt, hn, Option.bind_some, hi, Option.map_some]

theorem restoresAt_congr (hm : h'.machine = h.machine) (hc : h'.channels = h.channels)
    (hi : h'.instances = h.instances) : h'.restoresAt n = h.restoresAt n := by
  have hl : h'.linkOf n = h.linkOf n := by rw [linkOf, linkOf, hi]
  rw [restoresAt, restoresAt, seat_congr hc hl, hm]

/-- Where no interpreter reads objects, none is counted. -/
theorem Wired.restoresAt_of_spares (hw : h.Wired) (hs : h.Spares (fun _ => True) T h') :
    h'.restoresAt n = h.restoresAt n := by
  cases hl : h.linkOf n with
  | none =>
    rw [restoresAt, restoresAt, hw.seat_of_spares hs, seat, hl]
    rfl
  | some l =>
    obtain ⟨j, i, -, hn, hi, -⟩ := hw.interp hl
    obtain ⟨i', hi', halike⟩ := hs.machine.interp j i trivial hi
    rw [restoresAt_eq hn hi, restoresAt_eq ((hw.seat_of_spares hs n).trans hn) hi', halike.restores]

/-- No object is read where a session is opened. -/
theorem openFor_restoresAt (hw : h.Wired) {m : ManagerId} {on : Option InstanceId} {t : Thread}
    (hr : runOn h (openFor m on t) = (.ok s, h₁)) (n : InstanceId) :
    h₁.restoresAt n = h.restoresAt n := by
  cases on with
  | some home =>
    rcases openPinned_cases (S := fun _ => True) (T := fun _ => True) m home h with
      ⟨e, h', he, -⟩ | ⟨manager, i, link, key, h', -, -, -, -, hs, ho⟩
    · cases he.symm.trans hr
    · cases ho.symm.trans hr
      have hkeep : (h'.keep { link, key, origin := .pinned m home }).restoresAt n = h'.restoresAt n :=
        restoresAt_congr rfl rfl rfl
      exact hkeep.trans (hw.restoresAt_of_spares hs)
  | none =>
    rcases openBalanced_cases (S := fun _ => True) (T := fun _ => True) m t h with
      ⟨e, he⟩ | ⟨manager, slot, fleet, -, -, hopen⟩
    · cases he.symm.trans hr
    · have hw₀ : Wired { h with fleet } := hw.congr rfl rfl rfl
      rcases hopen with ⟨e, h', he, -⟩ | ⟨home, i, link, key, h', -, -, -, hs, ho⟩
      · cases he.symm.trans hr
      · cases ho.symm.trans hr
        calc (h'.keep { link, key, origin := .balanced m home slot }).restoresAt n
            = h'.restoresAt n := restoresAt_congr rfl rfl rfl
          _ = Host.restoresAt { h with fleet } n := hw₀.restoresAt_of_spares hs
          _ = h.restoresAt n := restoresAt_congr rfl rfl rfl

/-- The object `o` was handed out for an identifier in an instance, where it is held from then on. It was
held before, and nothing was read; or it was read, which is counted, and no object had its number. -/
structure Recalled (h : Host) (n : InstanceId) (id : ObjectId) (o : ObjectIndex) (h' : Host) : Prop where
  held : h'.objectAt n id = some o
  counted : ∃ c, h.restoresAt n = some c ∧
    (h.objectAt n id = some o ∧ h'.restoresAt n = some c ∨
      h.objectAt n id = none ∧ ¬ h.Made o ∧ h'.restoresAt n = some (c + 1))

theorem Materialized.recalled (hm : h.Materialized s k r session n slots o h') (hp : h.Placed)
    (hw : h.Wired) (hr : runOn h (materialize s k) = (.ok ref, h')) : h.Recalled n r.id o h' := by
  have hl : h.linkOf n = some session.link := linkOf_of_session hp hm.opened hm.homed
  obtain ⟨j, i, hj, hseat, hi, ht⟩ := hw.interp hl
  obtain ⟨r', hrecord, hperform⟩ := materialize_ok hr
  obtain rfl := Option.some.inj (hm.record.symm.trans hrecord)
  rw [runOn_perform hm.opened] at hperform
  obtain ⟨hchannels, slots', o', i', -, hi', hslots, hrecalls⟩ := Link.recalls hj hi hperform
  -- It is the last slot of the session, either way.
  obtain rfl : o' = o := by
    have hafter := hm.after
    rw [slotsAt_eq ((interpAt_congr hchannels _).trans hj.interpAt) hi', hslots] at hafter
    have hlast := (List.append_inj' (Option.some.inj hafter) rfl).2
    exact (List.cons.inj hlast).1
  have hseat' : h'.seat n = some j := (seat_congr hchannels (hm.loads.values.linkOf n)).trans hseat
  have hbefore : h.objectAt n r.id = i.loaded.get? r.id := by
    rw [objectAt, ht, Option.bind_some]
  refine ⟨?_, i.restores, restoresAt_eq hseat hi, ?_⟩
  · obtain ⟨t, t', -, hfetch, hstore⟩ := hm.loads.store
    rw [objectAt, hstore, if_pos rfl, Option.bind_some]
    cases hfetch with
    | kept ho => exact ho
    | made v ho hv hobj => rw [Table.get?_insert_self]
  · rw [hbefore, restoresAt_eq hseat' hi']
    cases hrecalls with
    | kept hn hr => exact .inl ⟨hn, congrArg some hr⟩
    | made hn hr hnew => exact .inr ⟨hn, Nat.not_lt.2 (Nat.le_of_eq hnew.symm), congrArg some hr⟩

/-- What rests before does not count, and the books do not matter. -/
theorem Recalled.of_rests {id : ObjectId} {h₂ : Host} (hrec : h₁.Recalled n id o h₂)
    (hrests : h.Rests h₁) (hcount : h₁.restoresAt n = h.restoresAt n)
    (sessions : Table SessionId Session) : h.Recalled n id o { h₂ with sessions } := by
  have hbefore : h₁.objectAt n id = h.objectAt n id := by rw [objectAt, objectAt, hrests.store]
  have hbook : Host.restoresAt { h₂ with sessions } n = h₂.restoresAt n := restoresAt_congr rfl rfl rfl
  obtain ⟨c, hc, hrest⟩ := hrec.counted
  refine ⟨hrec.held, c, hcount ▸ hc, ?_⟩
  rw [hbook, ← hbefore]
  exact hrest.imp_right fun ⟨hnone, hnew, hmore⟩ =>
    ⟨hnone, fun hmade => hnew (Nat.lt_of_lt_of_le hmade hrests.heap.length_le), hmore⟩

/-- In the session `s` on an instance an action materializes a value, to which `ref` refers then: in a
session that is open, or in one that is opened for it, as its current value. -/
inductive Materializes (h : Host) (k : ReplicaId) (n : InstanceId) : Action → SessionId → Ref → Prop
  | within (s : SessionId) (ref : Ref) (hn : h.homeOf? s = some n)
    (hr : (runOn h (materialize s k)).1 = .ok ref) : Materializes h k n (.materialize s k) s ref
  | opening (on : Option InstanceId) (t : Thread) (s : SessionId) (ref : Ref) (session : Session)
    (hr : (runOn h (openReplica k on t)).1 = .ok s)
    (hs : (runOn h (openReplica k on t)).2.sessions.get? s = some session)
    (hn : session.origin.home? = some n) (hc : session.current = some ref) :
    Materializes h k n (.openReplica k on t) s ref

/-- What is known of an action that materialized a value: the value, the object that was handed out for it,
and that the session has it in its last slot. -/
structure Yield (h : Host) (k : ReplicaId) (n : InstanceId) (s : SessionId) (ref : Ref) (r : Replica)
    (o : ObjectIndex) (h' : Host) : Prop where
  record : h.replicas.get? k = some r
  loadable : r.unloaded = false
  member : ∃ manager, h.managers[r.manager]? = some manager ∧ n ∈ manager.instances
  recalled : h.Recalled n r.id o h'
  seated : ∃ session j i slots, h'.Seated s session j i (slots ++ [o]) ∧
    ref = ⟨session.key, UInt32.ofNat slots.length⟩

theorem Materialized.seated (hm : h.Materialized s k r session n slots o h') {h'' : Host}
    {current : Option Ref} (hopen : h''.sessions.get? s = some { session with current })
    (hmachine : h''.machine = h'.machine) (hchannels : h''.channels = h'.channels) :
    ∃ j i, h''.Seated s { session with current } j i (slots ++ [o]) := by
  refine seated_of_slotsAt hopen (fun c hc => hchannels ▸ hm.served c hc) ?_
  rw [slotsAt, interpAt_congr hchannels, hmachine]
  exact hm.after

theorem Materialized.member_manager (hm : h.Materialized s k r session n slots o h') :
    ∃ manager, h.managers[r.manager]? = some manager ∧ n ∈ manager.instances := by
  obtain ⟨team, hteam, hmem⟩ := hm.member
  obtain ⟨manager, hmanager, rfl⟩ := Option.map_eq_some_iff.1 hteam
  exact ⟨manager, hmanager, hmem⟩

/-- Where a session was opened for a value, the value was materialized in it. -/
theorem openReplica_ok {on : Option InstanceId} {t : Thread}
    (hr : runOn h (openReplica k on t) = (.ok s, h')) :
    ∃ r h₁ ref h₂ session, h.replicas.get? k = some r ∧
      runOn h (openFor r.manager on t) = (.ok s, h₁) ∧
      runOn h₁ (materialize s k) = (.ok ref, h₂) ∧ h₂.sessions.get? s = some session ∧
      h' = h₂.point s session ref := by
  rw [openReplica_eq] at hr
  obtain ⟨r, h₀, hrecord, hr⟩ := bind_ok hr
  obtain ⟨hk, rfl⟩ := find_ok hrecord
  obtain ⟨_, hr⟩ := look_ok (within_requireLoaded r) hr
  obtain ⟨s', h₁, hopen, hr⟩ := bind_ok hr
  obtain ⟨_, h₃, hpoint, hr⟩ := bind_ok hr
  cases hr
  obtain ⟨ref, h₂, hmat, hset⟩ := bind_ok (onFailure_ok hpoint)
  obtain ⟨session, h₄, hget, hset⟩ := bind_ok hset
  obtain ⟨hs, rfl⟩ := find_ok hget
  cases hset
  exact ⟨r, h₁, ref, h₂, session, hk, hopen, hmat, hs, rfl⟩

/-- A value that was materialized in a session is in its last slot. -/
theorem materialize_materialized (hp : h.Placed) (hw : h.Wired)
    (hr : runOn h (materialize s k) = (.ok ref, h')) : ∃ r session n slots o,
      h.Materialized s k r session n slots o h' ∧ h'.sessions.get? s = some session ∧
        ref = ⟨session.key, UInt32.ofNat slots.length⟩ ∧ h.Recalled n r.id o h' := by
  rcases materialize_cases hp hw s k with ⟨e, he⟩ | ⟨r, session, n, slots, o, h₁, hr₁, hm⟩
  · cases he.symm.trans hr
  · cases hr₁.symm.trans hr
    refine ⟨r, session, n, slots, o, hm, ?_, rfl, hm.recalled hp hw hr⟩
    rw [((sameBooks_materialize s k).of_eq hr).sessions, hm.opened]

theorem Materializes.yield {a : Action} (hm : h.Materializes k n a s ref) (ho : h.Orderly)
    (ha : h.Proper a) :
    h.events a = [.loaded k n] ∧ ∃ r o, h.Yield k n s ref r o (h.step a) := by
  cases hm with
  | within s ref hn hok =>
    have hstep : h.step (.materialize s k) = (runOn h (materialize s k)).2 := runOn_lost h _
    have hrun : runOn h (materialize s k) = (.ok ref, h.step (.materialize s k)) := Prod.ext hok hstep.symm
    obtain ⟨r, session, home, slots, o, hmat, hopen, rfl, hrec⟩ :=
      materialize_materialized ho.toPlaced ho.toWired hrun
    obtain rfl : home = n := Option.some.inj (hmat.homeOf?.symm.trans hn)
    have hsame : (h.step (.materialize s k)).sessions.get? s =
        some { session with current := session.current } := hopen
    obtain ⟨j, i, hseat⟩ := hmat.seated hsame rfl rfl
    refine ⟨?_, r, o, hmat.record, hmat.loadable, hmat.member_manager, hrec, _, j, i, slots, hseat, rfl⟩
    simp only [events, hrun, hn, Option.map_some, Option.toList_some]
  | opening on t s ref session hok hs hn hc =>
    have hstep : h.step (.openReplica k on t) = (runOn h (openReplica k on t)).2 := runOn_lost h _
    have hrun : runOn h (openReplica k on t) = (.ok s, h.step (.openReplica k on t)) :=
      Prod.ext hok hstep.symm
    rw [← hstep] at hs
    obtain ⟨r₀, h₁, ref', h₂, session₂, -, hfor, hrun₁, hopen, hpoint⟩ := openReplica_ok hrun
    -- To open the session loads nothing, so what is recalled is what was there before.
    obtain ⟨hw₁, hrests⟩ := (idles_openFor r₀.manager on t).of_eq hfor ho.toWired
    have hs₁ : h₁.Sound := by
      have hsound := sound_openFor ho.toSound ha.1 r₀.manager on t
      rwa [hfor] at hsound
    obtain ⟨r, session', home, slots, o, hmat, hopen', rfl, hrec⟩ :=
      materialize_materialized hs₁.toPlaced hw₁ hrun₁
    obtain rfl := Option.some.inj (hopen.symm.trans hopen')
    have hget := point_get? h₂ s session₂ ⟨session₂.key, UInt32.ofNat slots.length⟩
    rw [hpoint] at hs ⊢
    obtain rfl := Option.some.inj (hs.symm.trans hget)
    obtain rfl : home = n := Option.some.inj (hmat.homed.symm.trans hn)
    cases hc
    obtain ⟨j, i, hseat⟩ := hmat.seated hget rfl rfl
    refine ⟨?_, r, o, hrests.replicas ▸ hmat.record, hmat.loadable, hrests.managers ▸ hmat.member_manager,
      hrec.of_rests hrests (openFor_restoresAt ho.toWired hfor home) _, _, j, i, slots, hseat, rfl⟩
    simp only [events, hrun, hpoint, Host.homeOf?, hget, Option.bind_some, hmat.homed, Option.map_some,
      Option.toList_some]

end Host

end InstancePool
