import InstancePool.Proofs.Replica.Invariants
import InstancePool.Proofs.Interp.ObjectContent

/-!
What a replicated value is made of is what it is made into. Whatever happens between the two, wherever
it is materialized, and whichever other values have the same identifier elsewhere.
-/

namespace InstancePool

open HostM

namespace Host

variable {h h' : Host} {s : SessionId} {session : Session} {home : InstanceId} {k : ReplicaId}
  {r : Replica} {slots : List ObjectIndex} {n : ObjectIndex} {v : Value} {data : List UInt8}

/-- A session that has handed out nothing yet. -/
def Fresh (h : Host) (s : SessionId) : Prop :=
  ∃ session, h.sessions.get? s = some session ∧ h.slotsAt session.link session.key = some []

theorem openOn_fresh (hw : h.Wired) {origin : Origin} (hr : runOn h (do
    let i ← getInstance home
    let (link, key) ← i.openSession
    addSession { link, key, origin }) = (.ok s, h')) : h'.Fresh s := by
  obtain ⟨i, h₁, hget, hr⟩ := bind_ok hr
  obtain ⟨hi, rfl⟩ := find_ok hget
  obtain ⟨⟨link, key⟩, h₂, hopen, hr⟩ := bind_ok hr
  unfold Instance.openSession at hopen
  split at hopen
  · cases hopen
  · rename_i l hl
    obtain ⟨key', h₃, hkey, hopen⟩ := bind_ok hopen
    cases hopen
    have hlink : h.linkOf home = some link := by
      rw [linkOf, hi]
      exact hl
    obtain ⟨k, hk⟩ := hw.serves home link hlink
    obtain ⟨key'', h₄, hopened, -, -, hslots⟩ := Link.openSession_ok hk
    rw [hkey] at hopened
    cases hopened
    cases hr
    refine ⟨{ link, key, origin }, ?_, hslots⟩
    simp only [Table.get?_insert_self]

theorem openFor_fresh (hw : h.Wired) {m : ManagerId} {on : Option InstanceId} {t : Thread}
    (hr : runOn h (openFor m on t) = (.ok s, h')) : h'.Fresh s := by
  cases on with
  | some home =>
    obtain ⟨u, h₁, howned, hopen⟩ := bind_ok hr
    rcases requireOwned_cases m home h with ⟨e, he⟩ | ⟨manager, -, -, ho⟩
    · rw [he] at howned
      cases howned
    · rw [ho] at howned
      cases howned
      exact openOn_fresh hw hopen
  | none =>
    obtain ⟨manager, h₁, hm, hr⟩ := bind_ok hr
    obtain ⟨-, rfl⟩ := find_ok hm
    obtain ⟨slot, h₂, hslot, hr⟩ := bind_ok hr
    obtain ⟨home, h₃, hhome, hopen⟩ := bind_ok (onFailure_ok hr)
    obtain ⟨-, rfl⟩ := find_ok hhome
    refine openOn_fresh (Wired.congr hw ?_ ?_ ?_) hopen <;>
      · rw [acquireSlot, runOn_of] at hslot
        split at hslot <;> cases hslot
        rfl

/-- The session in which a value was materialized can be used. -/
theorem Materialized.serves (hm : h.Materialized s k r session home slots n h') (hp : h.Placed) :
    ∃ i, h'.Serves session.link i := by
  have hl := linkOf_of_session hp hm.opened hm.homed
  rw [← hm.loads.values.linkOf] at hl
  exact hm.wired.serves home session.link hl

/-- The object for a value contains what the data of the value spells, whether it was loaded just now
or long ago. -/
theorem Orderly.materialized_value (ho : h.Orderly) (hm : h.Materialized s k r session home slots n h')
    (hdata : Wire.decodeValue r.data = .ok v) (hl : r.data.length < 2 ^ 63) :
    h'.machine.heap.objects[n]? = some (.value v) := by
  obtain ⟨t, t', ht, hfetch, -⟩ := hm.loads.store
  cases hfetch with
  | made v' hn hv hobj =>
    rw [hv hl] at hdata
    cases hdata
    exact hobj
  | kept hn =>
    obtain ⟨team, hteam, hmem⟩ := hm.member
    obtain ⟨manager, hmanager, rfl⟩ := Option.map_eq_some_iff.1 hteam
    obtain ⟨k', r', v', hr', hmr, hid, -, hobj, hv⟩ :=
      ho.stocked r.manager manager home t r.id n hmanager hmem ht hn
    -- No other value of the manager has the identifier.
    obtain rfl := ho.numbered.unique k' k r' r hr' hm.record hmr hid
    obtain rfl := Option.some.inj (hr'.symm.trans hm.record)
    rw [hv hl] at hdata
    cases hdata
    exact hm.loads.heap.value hobj

/-- A session handed out an object with the content `v` last, to which `r` refers. As long as the
numbers of slots fit in 32 bits, this is what one is told. -/
def Yields (h : Host) (s : SessionId) (r : Ref) (v : Value) : Prop :=
  ∃ session slots n, h.sessions.get? s = some session ∧
    r = ⟨session.key, UInt32.ofNat slots.length⟩ ∧
    h.slotsAt session.link session.key = some (slots ++ [n]) ∧
    h.machine.heap.objects[n]? = some (.value v) ∧
    (slots.length < 2 ^ 32 → runOn h (performValue s (.toValue r)) = (.ok v, h))

theorem point_get? (h : Host) (s : SessionId) (session : Session) (ref : Ref) :
    (h.point s session ref).sessions.get? s = some { session with current := some ref } := by
  simp only [point, Table.get?_insert_self]

theorem currentValue_eq {ref : Ref} (hopen : h.sessions.get? s = some session)
    (hc : session.current = some ref) :
    runOn h (currentValue s) = runOn h (performValue s (.toValue ref)) := by
  have hcurrent : runOn h (requireCurrent s) = (.ok ref, h) := by
    rw [requireCurrent, runOn_bind_ok (getSession_ok hopen), hc]
    rfl
  rw [currentValue, runOn_bind_ok hcurrent]

/-- The data of a new value spell the content of the object that it is made of. -/
theorem createReplica_data (ho : h.Orderly) {o : Ref}
    (hv : (runOn h (performValue s (.toValue o))).1 = .ok v)
    (hfits : ∀ v, h.contentOf s o = some v → Wire.Addressable (Wire.encodeValue v))
    (hk : (runOn h (createReplica s o)).1 = .ok k) :
    ∃ r, (h.step (.createReplica s o)).replicas.get? k = some r ∧
      Wire.encodeValue v = .ok r.data ∧ r.data.length < 2 ^ 63 := by
  have hstep : h.step (.createReplica s o) = (runOn h (createReplica s o)).2 := by
    rw [step, Action.run, runOn_bind]
    rcases runOn h (createReplica s o) with ⟨e | k, h'⟩ <;> rfl
  rcases createReplica_cases ho.toWired s o with ⟨e, h', hr, -⟩ |
    ⟨session, m, manager, data, h₀, h₁, hopen, hm, -, howner, hserialize, -, -, hr⟩
  · rw [hr] at hk
    cases hk
  · obtain ⟨home, hhome⟩ := Origin.home_of_manager hm
    obtain ⟨i, hi⟩ := ho.serves home session.link (linkOf_of_session ho.toPlaced hopen hhome)
    -- Whether the session owns the object is found out without changing anything.
    have hrests : (runOn h (performBool s (.isOwner o))).2 = h := looks_rests hopen hi rfl _
    rw [howner] at hrests
    obtain rfl : h₀ = h := hrests
    obtain ⟨v₀, hcontent, hdata, hl⟩ := performBytes_serialize hopen hi hfits hserialize
    obtain rfl : v = v₀ := by
      rcases performValue_cases hopen hi hcontent hdata hl with ⟨-, e, he⟩ | hok
      · rw [he] at hv
        cases hv
      · rw [hok] at hv
        exact (Except.ok.inj hv).symm
    rw [hr] at hk hstep
    obtain rfl := Except.ok.inj hk
    rw [hstep]
    refine ⟨{ id := ⟨manager.nextObject⟩, data, manager := m }, ?_, hdata, hl⟩
    simp only [Table.get?_insert_self]

/-- What is materialized in a session is what the data of the value spell, also after more was noted
about the session. -/
theorem Orderly.materialized_slots (ho : h.Orderly) (hm : h.Materialized s k r session home slots n h')
    (hdata : Wire.encodeValue v = .ok r.data) (hl : r.data.length < 2 ^ 63) {h'' : Host}
    {current : Option Ref} (hopen : h''.sessions.get? s = some { session with current })
    (hmachine : h''.machine = h'.machine) (hchannels : h''.channels = h'.channels) :
    h''.slotsAt session.link session.key = some (slots ++ [n]) ∧
      h''.machine.heap.objects[n]? = some (.value v) ∧
      (slots.length < 2 ^ 32 →
        runOn h'' (performValue s (.toValue ⟨session.key, UInt32.ofNat slots.length⟩)) =
          (.ok v, h'')) := by
  have hread : Wire.decodeValue r.data = .ok v := by
    have hback := Wire.decodeValue_encodeValue hdata (Nat.lt_trans hl (by decide)) []
    rw [List.append_nil] at hback
    exact hback
  have hobj : h''.machine.heap.objects[n]? = some (.value v) := by
    rw [hmachine]
    exact ho.materialized_value hm hread hl
  have hslots : h''.slotsAt session.link session.key = some (slots ++ [n]) := by
    rw [slotsAt, interpAt_congr hchannels, hmachine]
    exact hm.after
  refine ⟨hslots, hobj, fun hlen => ?_⟩
  obtain ⟨i, hi⟩ := hm.serves ho.toPlaced
  have hi' : h''.Serves session.link i := hi.congr hmachine hchannels
  -- The session has been served just now, so it is served still.
  have hserved : h''.Served session.link session.key := by
    intro c hc
    rw [hchannels]
    exact hm.served c hc
  have hcontent := contentOf_last hopen hi' hslots hlen hobj
  rcases performValue_cases hopen hi' hcontent hdata hl with ⟨hn, -⟩ | hr
  · exact absurd hserved hn
  · exact hr

/-- What a run materializes of a value is what the value was made of, in whichever session and instance
and however often it is loaded and unloaded in between. -/
theorem yields_original (earlier later : List Action) (s : SessionId) (o : Ref) (k : ReplicaId)
    (v : Value) (hp : Host.Permits Proper {} (earlier ++ .createReplica s o :: later))
    (hk : (runOn (Host.after {} earlier) (createReplica s o)).1 = .ok k)
    (hv : (runOn (Host.after {} earlier) (performValue s (.toValue o))).1 = .ok v)
    (hfits : ∀ v, (Host.after {} earlier).contentOf s o = some v →
      Wire.Addressable (Wire.encodeValue v)) :
    let h := Host.after {} (earlier ++ .createReplica s o :: later)
    (∀ s' r h', runOn h (materialize s' k) = (.ok r, h') → h'.Yields s' r v) ∧
    ∀ on t s' h', h.Proper (.openReplica k on t) → runOn h (openReplica k on t) = (.ok s', h') →
      runOn h' (currentValue s') = (.ok v, h') := by
  intro h
  obtain ⟨he, hcreate, hlater⟩ := permits_append.1 hp
  have ho₀ := orderly_after orderly_empty he
  obtain ⟨r₀, hr₀, hdata, hl⟩ := createReplica_data ho₀ hv hfits hk
  have ho₁ := ho₀.step hcreate
  have hh : h = ((Host.after {} earlier).step (.createReplica s o)).after later := after_append ..
  have ho : h.Orderly := hh ▸ orderly_after ho₁ hlater
  -- The data of a value never change.
  have hrecord (r : Replica) (hr : h.replicas.get? k = some r) : r.data = r₀.data := by
    rw [hh] at hr
    obtain ⟨r₁, hr₁, -, hsame, -⟩ :=
      replica_before ho₁ (ho₁.numbered.number_lt k r₀ hr₀) hlater hr
    obtain rfl := Option.some.inj (hr₁.symm.trans hr₀)
    exact hsame
  refine ⟨fun s' ref h' hr => ?_, fun on t s' h' hopen hr => ?_⟩
  · rcases materialize_cases ho.toPlaced ho.toWired s' k with
      ⟨e, he⟩ | ⟨r, session, home, slots, n, h₁, hr₁, hm⟩
    · rw [he] at hr
      cases hr
    · rw [hr₁] at hr
      cases hr
      rw [← hrecord r hm.record] at hdata hl
      have hsessions := ((sameBooks_materialize s' k).of_eq hr₁).sessions
      have hopened : h'.sessions.get? s' = some session := by rw [hsessions, hm.opened]
      exact ⟨session, slots, n, hopened, rfl, ho.materialized_slots hm hdata hl hopened rfl rfl⟩
  · rcases openReplica_cases ho.toSound ho.toWired hopen.1 k on t with ⟨e, h₁, he, -⟩ |
      ⟨s₁, h₁, r, session, home, slots, n, h₂, hfor, hs₁, hw₁, hrests, hm, hsessions, hr₁⟩
    · rw [he] at hr
      cases hr
    · rw [hr₁] at hr
      cases hr
      have ho' : h₁.Orderly := ho.of_change (.rested hrests) hs₁ hw₁
      have hrecord' : r.data = r₀.data := hrecord r (hrests.replicas ▸ hm.record)
      rw [← hrecord'] at hdata hl
      -- The session is a new one, so the object is the first one that it hands out.
      obtain ⟨session', hsession', hfresh⟩ := openFor_fresh ho.toWired hfor
      obtain rfl := Option.some.inj (hm.opened.symm.trans hsession')
      obtain rfl : slots = [] := Option.some.inj (hm.before.symm.trans hfresh)
      have hget := point_get? h₂ s' session ⟨session.key, UInt32.ofNat ([] : List ObjectIndex).length⟩
      rw [currentValue_eq hget rfl]
      exact (ho'.materialized_slots hm hdata hl hget rfl rfl).2.2 (by decide)

end Host

/-- Two managers, a session of each, and an object in either session. -/
def Action.twins : List Action :=
  [.addSource (.stock { rule := (Stock.simulated 0 none).rule }), .addLoader (.simulated {}),
    .addEnvironment {},
    .buildManager { count := 2, image := { source := 0, loader := 0 }, environment := 0 },
    .buildManager { count := 1, image := { source := 0, loader := 0 }, environment := 0 },
    .openPinned 0 0, .openPinned 1 2, .perform 0 (.eval "[-0.0, 1]"), .perform 1 (.eval "2")]

/-- A value of the second manager gets the same identifier as one of the first, which is unloaded again
after it was materialized. -/
def Action.travels : List Action :=
  [.createReplica 1 ⟨⟨5⟩, 0⟩, .openPinned 0 1, .materialize 2 0, .unload 0 (some 1),
    .openReplica 1 none none]

theorem Host.yields_original_twins :
    Host.Permits Host.Proper {} (Action.twins ++ .createReplica 0 ⟨⟨4⟩, 0⟩ :: Action.travels) ∧
      (∃ h', runOn (Host.after {} (Action.twins ++ .createReplica 0 ⟨⟨4⟩, 0⟩ :: Action.travels))
          (Host.materialize 2 0) = (.ok ⟨⟨6⟩, 1⟩, h') ∧
        h'.Yields 2 ⟨⟨6⟩, 1⟩ (.list [.float ⟨0x8000000000000000⟩, .int 1])) ∧
      ∃ h', runOn (Host.after {} (Action.twins ++ .createReplica 0 ⟨⟨4⟩, 0⟩ :: Action.travels))
          (Host.openReplica 0 none none) = (.ok 4, h') ∧
        runOn h' (Host.currentValue 4) =
          (.ok (.list [.float ⟨0x8000000000000000⟩, .int 1]), h') := by
  have hp : Host.Permits Host.Proper {}
      (Action.twins ++ .createReplica 0 ⟨⟨4⟩, 0⟩ :: Action.travels) := by decide +kernel
  have hk : (runOn (Host.after {} Action.twins) (Host.createReplica 0 ⟨⟨4⟩, 0⟩)).1.toOption =
      some 0 := by decide +kernel
  have hv : (runOn (Host.after {} Action.twins)
      (Host.performValue 0 (.toValue ⟨⟨4⟩, 0⟩))).1.toOption =
        some (.list [.float ⟨0x8000000000000000⟩, .int 1]) := by decide +kernel
  have hcontent : (Host.after {} Action.twins).contentOf 0 ⟨⟨4⟩, 0⟩ =
      some (.list [.float ⟨0x8000000000000000⟩, .int 1]) := by decide +kernel
  have hm : (runOn (Host.after {} (Action.twins ++ .createReplica 0 ⟨⟨4⟩, 0⟩ :: Action.travels))
      (Host.materialize 2 0)).1.toOption = some ⟨⟨6⟩, 1⟩ := by decide +kernel
  have hs : (runOn (Host.after {} (Action.twins ++ .createReplica 0 ⟨⟨4⟩, 0⟩ :: Action.travels))
      (Host.openReplica 0 none none)).1.toOption = some 4 := by decide +kernel
  have hfits (v : Value) (hv : (Host.after {} Action.twins).contentOf 0 ⟨⟨4⟩, 0⟩ = some v) :
      Wire.Addressable (Wire.encodeValue v) := by
    obtain rfl := Option.some.inj (hcontent.symm.trans hv)
    decide +kernel
  have hallowed : (Host.after {} (Action.twins ++
      .createReplica 0 ⟨⟨4⟩, 0⟩ :: Action.travels)).Proper (.openReplica 0 none none) := by
    decide +kernel
  obtain ⟨hmaterialized, hopened⟩ := Host.yields_original Action.twins Action.travels 0 ⟨⟨4⟩, 0⟩ 0 _ hp
    (congrArg Prod.fst (runOn_of_toOption hk)) (congrArg Prod.fst (runOn_of_toOption hv)) hfits
  have hm' := runOn_of_toOption hm
  have hs' := runOn_of_toOption hs
  exact ⟨hp, ⟨_, hm', hmaterialized 2 _ _ hm'⟩, _, hs', hopened none none 4 _ hallowed hs'⟩

end InstancePool
