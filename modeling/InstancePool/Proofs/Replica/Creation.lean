import InstancePool.Proofs.Session.ReferenceIdentity
import InstancePool.Proofs.Wire.NestingLimit
import InstancePool.Proofs.Replica.Numbering

/-!
Making a value. Its session must be of a manager and own the object, and the object must have a content that
can be written. This is checked in that order and without a trace, before the manager gives out a number.
-/

namespace InstancePool

open HostM

/-- Whatever the number of slots, the references to them are those with the number of a slot: where the
numbers begin again, each was there before. -/
theorem SessionKey.mem_refs_iff {key : SessionKey} {n : Nat} {r : Ref} :
    r ∈ key.refs n ↔ r.session = key ∧ r.slot.toNat < n := by
  simp only [refs, List.mem_map, List.mem_range]
  constructor
  · rintro ⟨i, hi, rfl⟩
    refine ⟨rfl, Nat.lt_of_le_of_lt ?_ hi⟩
    rw [UInt32.toNat_ofNat']
    exact Nat.mod_le _ _
  · rintro ⟨rfl, hlt⟩
    exact ⟨r.slot.toNat, hlt, by rw [UInt32.ofNat_toNat]⟩

namespace Heap

variable {h : Heap} {n : ObjectIndex} {v : Value} {data : List UInt8} {f : Failure}

/-- The written form of the content of an object. -/
def written (h : Heap) (n : ObjectIndex) : Except Failure (List UInt8) :=
  match h.get n with
  | .value v => (Wire.encodeValue v).mapError .serializing
  | o => .error (.notSerializable o.typeName)

theorem value_ok (hv : h.value n = .ok v) : h.get n = .value v := by
  cases hget : h.get n with
  | value w =>
    rw [value, hget] at hv
    rw [Except.ok.inj hv]
  | builtin | space =>
    rw [value, hget] at hv
    cases hv

theorem written_of_value (hv : h.value n = .ok v) :
    h.written n = (Wire.encodeValue v).mapError .serializing := by
  rw [written, value_ok hv]

theorem written_ok (hw : h.written n = .ok data) :
    ∃ v, h.value n = .ok v ∧ Wire.encodeValue v = .ok data := by
  cases hget : h.get n with
  | value v =>
    have hv : h.value n = .ok v := by rw [value, hget]
    rw [written_of_value hv] at hw
    refine ⟨v, hv, ?_⟩
    cases hb : Wire.encodeValue v with
    | error cause =>
      rw [hb] at hw
      cases hw
    | ok bytes =>
      rw [hb] at hw
      cases hw
      rfl
  | builtin | space =>
    rw [written, hget] at hw
    cases hw

/-- An object that cannot be written is a fault at run time, with a short message. -/
theorem written_error (hw : h.written n = .error f) : f.kind = .runtime ∧ Text.Sized f.fault.message := by
  unfold written at hw
  cases hget : h.get n with
  | value v =>
    simp only [hget] at hw
    cases hb : Wire.encodeValue v with
    | error cause =>
      rw [hb] at hw
      cases hw
      cases cause
      exact ⟨rfl, (by decide +kernel : Text.Sized (Failure.serializing .tooDeep).fault.message)⟩
    | ok bytes =>
      rw [hb] at hw
      cases hw
  | builtin b =>
    simp only [hget] at hw
    cases hw
    exact ⟨rfl, (by decide +kernel : Text.Sized (Failure.notSerializable "builtin").fault.message)⟩
  | space members =>
    simp only [hget] at hw
    cases hw
    exact ⟨rfl, (by decide +kernel : Text.Sized (Failure.notSerializable "namespace").fault.message)⟩

end Heap

namespace Engine

theorem perform_serialize (source : TextSource) {e : Engine} {key : SessionKey} {slots : List ObjectIndex}
    {o : Ref} {n : ObjectIndex} (receiver : Option Ref) (hk : e.interp.sessions.get? key = some slots)
    (ho : resolveRef key slots o = .ok n) :
    Engine.perform source key (.serialize receiver o) e = ((e.heap.written n).map .bytes, e) := by
  simp only [Engine.perform, hk, attempt, ho, Heap.written]
  cases hget : e.heap.get n with
  | value v =>
    cases hb : Wire.encodeValue v <;> simp only [hget, hb, bind, Except.bind] <;> rfl
  | builtin | space =>
    simp only [hget, bind, Except.bind]
    rfl

end Engine

namespace Host

theorem minted_append (h : Host) (m : ManagerId) (deeds later : List Deed) :
    h.minted m (deeds ++ later) = h.minted m deeds + (h.afterDeeds deeds).minted m later := by
  induction deeds generalizing h with
  | nil => exact (Nat.zero_add _).symm
  | cons d deeds ih =>
    rw [List.cons_append, minted, minted, ih, Nat.add_assoc]
    rfl

variable {h h' : Host} {s : SessionId} {session : Session} {k : Nat} {i : Interp} {slots : List ObjectIndex}
  {o : Ref} {n : ObjectIndex} {m : ManagerId} {receiver : Option Ref} {data : List UInt8} {f : Failure}

/-- The content of an object is what the reference to it stands for. -/
theorem Seated.contentOf_iff (hseat : h.Seated s session k i slots) (hn : h.denoted s o = some n)
    {v : Value} : h.contentOf s o = some v ↔ h.machine.heap.value n = .ok v := by
  have hcontent : h.contentOf s o = (h.machine.heap.value n).toOption := by
    simp only [contentOf, Machine.contentOf, hseat.known, hseat.leads, hseat.interp, hseat.holds,
      hseat.denoted_eq_some.1 hn, Except.toOption, Option.bind_eq_bind, Option.bind_some]
  rw [hcontent]
  cases h.machine.heap.value n with
  | error f => exact ⟨fun hno => (by cases hno), fun hno => (by cases hno)⟩
  | ok w => simp only [Except.toOption, Option.some.injEq, Except.ok.injEq]

/-- Such an object can be written just if its content has few enough lists in each other. -/
theorem Seated.written_iff (hseat : h.Seated s session k i slots) (hn : h.denoted s o = some n) :
    (∃ data, h.machine.heap.written n = .ok data) ↔
      ∃ v, h.contentOf s o = some v ∧ v.depth ≤ Value.maxDepth := by
  constructor
  · rintro ⟨data, hw⟩
    obtain ⟨v, hv, hb⟩ := Heap.written_ok hw
    exact ⟨v, (hseat.contentOf_iff hn).2 hv, Wire.encodeValue_ok_iff.1 ⟨data, hb⟩⟩
  · rintro ⟨v, hv, hdepth⟩
    obtain ⟨data, hb⟩ := Wire.encodeValue_ok_iff.2 hdepth
    exact ⟨data, by rw [Heap.written_of_value ((hseat.contentOf_iff hn).1 hv), hb]; rfl⟩

/-- To look at something in a session that is served leaves the host as it is. -/
theorem Seated.perform_looks (hseat : h.Seated s session k i slots) (op : Op) (hl : op.looks = true)
    (hn : op.nesting ≤ Value.maxDepth) (hs : op.Sized) : (runOn h (Host.perform s op)).2 = h := by
  obtain ⟨heard, hrun, -⟩ := hseat.perform hn hs
  rw [hrun, Machine.perform_looks h.texts k session.key hl]

theorem runOn_eq_of_snd {α : Type} {x : HostM α} {r : Except Error α} (hr : (runOn h x).1 = r)
    (hh : (runOn h x).2 = h) : runOn h x = (r, h) := Prod.ext hr hh

/-- A session is asked whether it owns an object. -/
theorem Seated.performBool_isOwner (hseat : h.Seated s session k i slots) :
    runOn h (performBool s (.isOwner o)) =
      (.ok (o.session = session.key && o.slot.toNat < slots.length), h) := by
  have hslots : h.slotsAt session.link session.key = some slots :=
    slotsAt_eq_some.2 ⟨k, i, hseat.leads, hseat.interp, hseat.holds⟩
  have hasked := Link.perform_isOwner (o := o) hseat.served hslots
  rw [← runOn_perform hseat.known] at hasked
  have hrest := hseat.perform_looks (.isOwner o) rfl (Nat.zero_le _) trivial
  rw [performBool, runOn_bind_ok (runOn_eq_of_snd hasked hrest)]
  rfl

/-- A session is asked for the written form of an object. -/
theorem Seated.performBytes_serialize (hseat : h.Seated s session k i slots) (hn : h.denoted s o = some n)
    (receiver : Option Ref)
    (hfits : ∀ v, h.contentOf s o = some v → Wire.Addressable (Wire.encodeValue v)) :
    runOn h (performBytes s (.serialize receiver o)) =
      ((h.machine.heap.written n).mapError fun f => .runtime f.fault, h) := by
  have hnesting : (Op.serialize receiver o).nesting ≤ Value.maxDepth := Nat.zero_le _
  have hsized : (Op.serialize receiver o).Sized := trivial
  have hrest := hseat.perform_looks (.serialize receiver o) rfl hnesting hsized
  have hengine := Engine.perform_serialize h.texts (e := ⟨h.machine.heap, i⟩) receiver hseat.holds
    (hseat.denoted_eq_some.1 hn)
  -- A fault arrives in any case, and the written form does since its length fits.
  cases hw : h.machine.heap.written n with
  | error f =>
    have hmachine : (h.machine.perform h.texts k session.key (.serialize receiver o)).1 =
        .error (.runtime f.fault) := by
      rw [Machine.perform_eq hseat.interp, hengine, hw]
      rfl
    have hheard := Link.perform_fault hseat.served hseat.leads hnesting hsized hmachine
      (Heap.written_error hw).2
    rw [← runOn_perform hseat.known] at hheard
    rw [performBytes, runOn_bind_error (runOn_eq_of_snd hheard hrest)]
    rfl
  | ok data =>
    have hmachine : (h.machine.perform h.texts k session.key (.serialize receiver o)).1 =
        .ok (.bytes data) := by
      rw [Machine.perform_eq hseat.interp, hengine, hw]
      rfl
    obtain ⟨v, hv, hb⟩ := Heap.written_ok hw
    have hlen := hfits v ((hseat.contentOf_iff hn).2 hv)
    rw [hb] at hlen
    obtain ⟨output, hout, hshort⟩ := Wire.encodeReply_bytes hlen
    obtain ⟨heard, hrun, hrelay⟩ := hseat.perform hnesting hsized
    obtain rfl := hrelay.ok _ output hmachine hout hshort
    rw [performBytes, runOn_bind_ok (runOn_eq_of_snd (congrArg Prod.fst hrun) hrest)]
    rfl

/-- A session of no manager makes no values. -/
theorem createReplica_unmanaged (hs : h.sessions.get? s = some session)
    (hm : session.origin.manager? = none) :
    runOn h (createReplica s o) = (.error (.usage .noManager), h) := by
  rw [createReplica, runOn_bind_ok (getSession_ok hs), hm]
  rfl

theorem createReplica_managed (hs : h.sessions.get? s = some session)
    (hm : session.origin.manager? = some m) : runOn h (createReplica s o) = runOn h (do
      if ¬ (← performBool s (.isOwner o)) then throw (.usage .foreignValue)
      let data ← performBytes s (.serialize session.current o)
      let id ← takeObjectId m
      addReplica { id, data, manager := m }) := by
  rw [createReplica, runOn_bind_ok (getSession_ok hs), hm]

/-- A session that was cut off cannot tell whether it owns anything. -/
theorem createReplica_cut (hs : h.sessions.get? s = some session)
    (hm : session.origin.manager? = some m) (hcut : h.Cut session.link) :
    runOn h (createReplica s o) = (.error .closed, h) := by
  obtain ⟨c, e, hl, hc⟩ := hcut
  have hperform : runOn h (Host.perform s (.isOwner o)) = (.error .closed, h) := by
    rw [runOn_perform hs, hl]
    exact Link.runOn_perform_channel hc rfl
  have hasked : runOn h (performBool s (.isOwner o)) = (.error .closed, h) := runOn_bind_error hperform _
  rw [createReplica_managed hs hm, runOn_bind_error hasked]

/-- An object that is not the session's own is turned away. -/
theorem Seated.createReplica_foreign (hseat : h.Seated s session k i slots)
    (hm : session.origin.manager? = some m)
    (hown : ¬ (o.session = session.key ∧ o.slot.toNat < slots.length)) :
    runOn h (createReplica s o) = (.error (.usage .foreignValue), h) := by
  have hasked : runOn h (performBool s (.isOwner o)) = (.ok false, h) := by
    rw [hseat.performBool_isOwner, ← Bool.decide_and, decide_eq_false hown]
  rw [createReplica_managed hseat.known hm, runOn_bind_ok hasked]
  rfl

/-- An object of the session is written, and then the manager gives out a number. -/
theorem Seated.createReplica_own (hseat : h.Seated s session k i slots)
    (hm : session.origin.manager? = some m) (hn : h.denoted s o = some n)
    (hfits : ∀ v, h.contentOf s o = some v → Wire.Addressable (Wire.encodeValue v)) :
    runOn h (createReplica s o) = match h.machine.heap.written n with
      | .error f => (.error (.runtime f.fault), h)
      | .ok data => runOn h (do
        let id ← takeObjectId m
        addReplica { id, data, manager := m }) := by
  have hresolve := Engine.resolveRef_ok.1 (hseat.denoted_eq_some.1 hn)
  have hslot : o.slot.toNat < slots.length := (List.getElem?_eq_some_iff.1 hresolve.2).1
  have hasked : runOn h (performBool s (.isOwner o)) = (.ok true, h) := by
    rw [hseat.performBool_isOwner, ← Bool.decide_and, decide_eq_true ⟨hresolve.1, hslot⟩]
  have hbytes := hseat.performBytes_serialize hn session.current hfits
  rw [createReplica_managed hseat.known hm, runOn_bind_ok hasked]
  simp only [not_true_eq_false, if_false]
  cases hw : h.machine.heap.written n with
  | error f =>
    rw [hw] at hbytes
    exact runOn_bind_error hbytes _
  | ok data =>
    rw [hw] at hbytes
    exact runOn_bind_ok hbytes _

theorem Seated.denoted_own (hseat : h.Seated s session k i slots)
    (hown : o.session = session.key ∧ o.slot.toNat < slots.length) : ∃ n, h.denoted s o = some n := by
  rcases resolveRef_cases session.key slots o with ⟨-, -, n, hr⟩ | ⟨hno, -⟩
  · exact ⟨n, hseat.denoted_eq_some.2 hr⟩
  · exact absurd hown hno

/-- An object whose content can be written becomes a value. -/
theorem Seated.createReplica_plain {v : Value} (hseat : h.Seated s session k i slots)
    (hm : session.origin.manager? = some m) (hn : h.denoted s o = some n)
    (hfits : ∀ v, h.contentOf s o = some v → Wire.Addressable (Wire.encodeValue v))
    (hv : h.contentOf s o = some v) (hdepth : v.depth ≤ Value.maxDepth) :
    ∃ data, Wire.encodeValue v = .ok data ∧ runOn h (createReplica s o) = runOn h (do
      let id ← takeObjectId m
      addReplica { id, data, manager := m }) := by
  obtain ⟨data, hb⟩ := Wire.encodeValue_ok_iff.2 hdepth
  refine ⟨data, hb, ?_⟩
  rw [hseat.createReplica_own hm hn hfits, Heap.written_of_value ((hseat.contentOf_iff hn).1 hv), hb]
  rfl

/-- An object without such a content is at fault. -/
theorem Seated.createReplica_fault (hseat : h.Seated s session k i slots)
    (hm : session.origin.manager? = some m) (hn : h.denoted s o = some n)
    (hfits : ∀ v, h.contentOf s o = some v → Wire.Addressable (Wire.encodeValue v))
    (hno : ¬ ∃ v, h.contentOf s o = some v ∧ v.depth ≤ Value.maxDepth) :
    ∃ f, f.kind = .runtime ∧ runOn h (createReplica s o) = (.error (.runtime f), h) := by
  cases hw : h.machine.heap.written n with
  | error f =>
    refine ⟨f.fault, (Heap.written_error hw).1, ?_⟩
    rw [hseat.createReplica_own hm hn hfits, hw]
  | ok data => exact absurd ((hseat.written_iff hn).1 ⟨data, hw⟩) hno

/-- The host after a manager gave out a number for a value. -/
theorem runOn_addReplica {manager : Manager} (hm : h.managers[m]? = some manager) (data : List UInt8) :
    runOn h (do
      let id ← takeObjectId m
      addReplica { id, data, manager := m }) = (.ok h.nextReplica, { h with
        managers := h.managers.set m { manager with nextObject := manager.nextObject + 1 }
        replicas := h.replicas.insert h.nextReplica { id := ⟨manager.nextObject⟩, data, manager := m }
        nextReplica := h.nextReplica + 1 }) := by
  rw [takeObjectId, bind_assoc, runOn_bind_ok (getManager_ok hm)]
  rfl

theorem mints_createReplica (hs : h.sessions.get? s = some session) (hm : session.origin.manager? = some m)
    {replica : ReplicaId} (hr : (runOn h (createReplica s o)).1 = .ok replica) :
    (Deed.act (.createReplica s o)).mints h m = 1 := by
  simp only [Deed.mints, hr, hs, Option.bind_some, hm, if_true]

/-- A value that a manager makes counts from then on. -/
theorem minted_lt {earlier deeds : List Deed} {d : Deed} (hp : earlier ++ [d] <+: deeds)
    (hd : d.mints (h.afterDeeds earlier) m = 1) : h.minted m earlier < h.minted m deeds := by
  obtain ⟨later, rfl⟩ := hp
  rw [List.append_assoc, minted_append]
  refine Nat.lt_add_of_pos_right ?_
  rw [List.singleton_append, minted, hd]
  exact Nat.lt_of_lt_of_le Nat.one_pos (Nat.le_add_right _ _)

/-- Before they are used up no number is given out again. -/
theorem minted_ne {earlier deeds : List Deed} {d : Deed} (hp : earlier ++ [d] <+: deeds)
    (hd : d.mints (h.afterDeeds earlier) m = 1) (hroom : h.minted m deeds < 2 ^ 64) :
    UInt64.ofNat (h.minted m earlier) ≠ UInt64.ofNat (h.minted m deeds) := by
  have hlt := minted_lt hp hd
  intro hsame
  have hnumber := congrArg UInt64.toNat hsame
  rw [UInt64.toNat_ofNat_of_lt' (Nat.lt_trans hlt hroom), UInt64.toNat_ofNat_of_lt' hroom] at hnumber
  exact Nat.ne_of_lt hlt hnumber

/-- The number of a value is that of the values of its manager before it. -/
theorem createReplica_id {earlier : List Deed} (hd : ∀ d ∈ earlier, d.Told)
    (hs : (Host.afterDeeds {} earlier).sessions.get? s = some session)
    (hm : session.origin.manager? = some m) {replica : ReplicaId}
    (hok : (runOn (Host.afterDeeds {} earlier) (createReplica s o)).1 = .ok replica) :
    ∃ r, (runOn (Host.afterDeeds {} earlier) (createReplica s o)).2.replicas.get? replica = some r ∧
      r.id = ⟨UInt64.ofNat (Host.minted {} m earlier)⟩ := by
  rcases createReplica_makes (Host.afterDeeds {} earlier) s o with
    ⟨e, h', hr, -⟩ | ⟨session', m', manager, data, h₁, hs', hm', hmanager, -, hr⟩
  · rw [hr] at hok
    cases hok
  · obtain rfl := Option.some.inj (hs.symm.trans hs')
    obtain rfl := Option.some.inj (hm.symm.trans hm')
    have hnext := (numbering_empty.afterDeeds hd).next m manager hmanager
    rw [Nat.zero_add] at hnext
    rw [hr] at hok ⊢
    obtain rfl := Except.ok.inj hok
    refine ⟨{ id := ⟨manager.nextObject⟩, data, manager := m }, ?_, congrArg ObjectId.mk hnext⟩
    exact Table.get?_insert_self ..

/-- In every state that is reached, with any number of interpreters and sessions, direct or behind the
boundary: a session makes a value of an object just if it is of a manager, owns the object, and that has a
content with at most as many nested lists as can be written. Then the number of the value is that of the
values which the sessions of the manager made before, its data is the written content, and nothing else is
changed. Otherwise nothing at all is changed: that it is of no manager is what the session says first, that
it does not own the object comes next, and then what is wrong with the object. A session that was cut off
makes no values. As long as a manager made at most `2 ^ 64` values their numbers are different, in whatever
order its sessions made them. -/
theorem createReplica_atomic (deeds : List Deed) (hd : Host.AllProper {} deeds)
    (hn : Host.opened {} deeds < 2 ^ 64) (s : SessionId) (session : Session) (k : Nat)
    (hs : (Host.afterDeeds {} deeds).sessions.get? s = some session)
    (hk : (Host.afterDeeds {} deeds).interpAt session.link = some k) (o : Ref)
    (hfits : ∀ v, (Host.afterDeeds {} deeds).contentOf s o = some v →
      Wire.Addressable (Wire.encodeValue v)) :
    let h := Host.afterDeeds {} deeds
    let own := o.session = session.key ∧ o ∈ refsOf (Host.returned {} deeds) s
    let plain := ∃ v, h.contentOf s o = some v ∧ v.depth ≤ Value.maxDepth
    (session.origin.manager? = none → runOn h (createReplica s o) = (.error (.usage .noManager), h)) ∧
    ∀ m, session.origin.manager? = some m →
      (h.Cut session.link → runOn h (createReplica s o) = (.error .closed, h)) ∧
      (¬ h.Cut session.link →
        ((∃ replica, (runOn h (createReplica s o)).1 = .ok replica) ↔ own ∧ plain) ∧
        (∀ v, own → h.contentOf s o = some v → v.depth ≤ Value.maxDepth → ∃ manager data,
          h.managers[m]? = some manager ∧ Wire.encodeValue v = .ok data ∧
          runOn h (createReplica s o) = (.ok h.nextReplica, { h with
            managers := h.managers.set m { manager with nextObject := manager.nextObject + 1 }
            replicas := h.replicas.insert h.nextReplica
              { id := ⟨UInt64.ofNat (Host.minted {} m deeds)⟩, data, manager := m, unloaded := false }
            nextReplica := h.nextReplica + 1 })) ∧
        (¬ own → runOn h (createReplica s o) = (.error (.usage .foreignValue), h)) ∧
        (own → ¬ plain → ∃ f, f.kind = .runtime ∧
          runOn h (createReplica s o) = (.error (.runtime f), h))) ∧
      (Host.minted {} m deeds < 2 ^ 64 → ∀ earlier s' o' replica session',
        earlier ++ [.act (.createReplica s' o')] <+: deeds →
        (Host.afterDeeds {} earlier).sessions.get? s' = some session' →
        session'.origin.manager? = some m →
        (runOn (Host.afterDeeds {} earlier) (createReplica s' o')).1 = .ok replica →
        ∃ r, (runOn (Host.afterDeeds {} earlier) (createReplica s' o')).2.replicas.get? replica = some r ∧
          r.id = ⟨UInt64.ofNat (Host.minted {} m earlier)⟩ ∧
          r.id ≠ ⟨UInt64.ofNat (Host.minted {} m deeds)⟩) := by
  intro h own plain
  have hkept : h.Kept (Host.returned {} deeds) :=
    kept_empty.afterDeeds hd (Nat.lt_of_le_of_lt (Nat.le_of_eq (Nat.zero_add _)) hn)
  have hnumbers := numbering_empty.afterDeeds hd.told
  refine ⟨createReplica_unmanaged hs, fun m hm => ⟨createReplica_cut hs hm, fun hlive => ?_, ?_⟩⟩
  · obtain ⟨session', k', i, slots, hseat, hrefs⟩ := hkept.seated ⟨session, k, hs, hk, hlive⟩
    obtain rfl := Option.some.inj (hs.symm.trans hseat.known)
    have hown : own ↔ o.session = session.key ∧ o.slot.toNat < slots.length := by
      simp only [own, hrefs, SessionKey.mem_refs_iff, and_self_left]
    obtain ⟨manager, hmanager⟩ : ∃ manager, h.managers[m]? = some manager :=
      ⟨_, List.getElem?_eq_getElem (hnumbers.employed s session m hs hm)⟩
    have hnext : manager.nextObject = UInt64.ofNat (Host.minted {} m deeds) := by
      rw [hnumbers.next m manager hmanager, Nat.zero_add]
    have hforeign (ho : ¬ own) : runOn h (createReplica s o) = (.error (.usage .foreignValue), h) :=
      hseat.createReplica_foreign hm fun hslot => ho (hown.2 hslot)
    have hfault (ho : own) (hno : ¬ plain) : ∃ f, f.kind = .runtime ∧
        runOn h (createReplica s o) = (.error (.runtime f), h) := by
      obtain ⟨n, hn⟩ := hseat.denoted_own (hown.1 ho)
      exact hseat.createReplica_fault hm hn hfits hno
    have hmade (v : Value) (ho : own) (hv : h.contentOf s o = some v) (hdepth : v.depth ≤ Value.maxDepth) :
        ∃ data, Wire.encodeValue v = .ok data ∧ runOn h (createReplica s o) = runOn h (do
          let id ← takeObjectId m
          addReplica { id, data, manager := m }) := by
      obtain ⟨n, hn⟩ := hseat.denoted_own (hown.1 ho)
      exact hseat.createReplica_plain hm hn hfits hv hdepth
    -- The two refusals leave success only to plain objects of its own.
    refine ⟨⟨?_, ?_⟩, fun v ho hv hdepth => ?_, hforeign, hfault⟩
    · rintro ⟨replica, hok⟩
      by_cases ho : own
      · by_cases hp : plain
        · exact ⟨ho, hp⟩
        · obtain ⟨f, -, hr⟩ := hfault ho hp
          rw [hr] at hok
          cases hok
      · rw [hforeign ho] at hok
        cases hok
    · rintro ⟨ho, v, hv, hdepth⟩
      obtain ⟨data, -, hr⟩ := hmade v ho hv hdepth
      rw [hr, runOn_addReplica hmanager]
      exact ⟨_, rfl⟩
    · obtain ⟨data, hb, hr⟩ := hmade v ho hv hdepth
      refine ⟨manager, data, hmanager, hb, ?_⟩
      rw [hr, runOn_addReplica hmanager, hnext]
  -- The numbers are counted modulo `2 ^ 64`, and the earlier value raised the count.
  · intro hroom earlier s' o' replica session' hearlier hs' hm' hok
    have hbefore (d : Deed) (hmem : d ∈ earlier) : d.Told :=
      hd.told d (hearlier.subset (List.mem_append_left _ hmem))
    obtain ⟨r, hr, hid⟩ := createReplica_id hbefore hs' hm' hok
    refine ⟨r, hr, hid, fun hsame => ?_⟩
    rw [hid] at hsame
    exact minted_ne hearlier (mints_createReplica hs' hm' hok) hroom (ObjectId.mk.inj hsame)

end Host

/-- The second of the neighbours makes a value of its list, and the first one looks up a builtin. -/
def Deed.makers : List Deed :=
  Deed.neighbours ++ [.act (.createReplica 1 ⟨⟨4⟩, 0⟩), .act (.perform 0 (.global "builtins" "len"))]

/-- The first of them makes the next value of the manager. It makes none of the builtin nor of the other
one's list, and the third neighbour, which has no manager, makes none at all. -/
theorem Host.createReplica_atomic_makers :
    let h := Host.afterDeeds {} Deed.makers
    (∃ r, (runOn h (createReplica 0 ⟨⟨3⟩, 0⟩)).1 = .ok 1 ∧
      (runOn h (createReplica 0 ⟨⟨3⟩, 0⟩)).2.replicas.get? 1 = some r ∧ r.id = ⟨1⟩ ∧
      Wire.encodeValue (.list [.int 1]) = .ok r.data) ∧
      (∃ f, f.kind = .runtime ∧ runOn h (createReplica 0 ⟨⟨3⟩, 1⟩) = (.error (.runtime f), h)) ∧
      runOn h (createReplica 0 ⟨⟨4⟩, 0⟩) = (.error (.usage .foreignValue), h) ∧
      runOn h (createReplica 2 ⟨⟨3⟩, 0⟩) = (.error (.usage .noManager), h) ∧
      ∃ r, (runOn (Host.afterDeeds {} Deed.neighbours) (createReplica 1 ⟨⟨4⟩, 0⟩)).2.replicas.get? 0 =
        some r ∧ r.id = ⟨0⟩ := by
  intro h
  have hd : Host.AllProper {} Deed.makers :=
    ⟨trivial, trivial, trivial, (by decide : 2 < 2 ^ 64), trivial, trivial, trivial, trivial, trivial, trivial,
      trivial, trivial, trivial⟩
  have hopened : Host.opened {} Deed.makers = 5 := by decide +kernel
  have hn : Host.opened {} Deed.makers < 2 ^ 64 := by
    rw [hopened]
    decide
  have hreturned : Host.returned {} Deed.makers = [(0, ⟨⟨3⟩, 0⟩), (1, ⟨⟨4⟩, 0⟩), (0, ⟨⟨3⟩, 1⟩)] := by
    decide +kernel
  have hminted : Host.minted {} 0 Deed.makers = 1 := by decide +kernel
  have hfirst : h.sessions.get? 0 = some { link := .channel 0, key := ⟨3⟩, origin := .pinned 0 0 } := by
    decide +kernel
  have hthird : h.sessions.get? 2 = some { link := .channel 2, key := ⟨5⟩, origin := .alone 2 } := by
    decide +kernel
  have hwhole : ¬ h.Cut (.channel 0) := by
    have hlive : h.channels[0]?.map Channel.live = some true := by decide +kernel
    rintro ⟨c, e, hc, hcut⟩
    cases hc
    rw [hcut] at hlive
    cases hlive
  have hlist : h.contentOf 0 ⟨⟨3⟩, 0⟩ = some (.list [.int 1]) := by decide +kernel
  have hbuiltin : h.contentOf 0 ⟨⟨3⟩, 1⟩ = none := by decide +kernel
  have hforeign : h.contentOf 0 ⟨⟨4⟩, 0⟩ = none := by decide +kernel
  have hnone : h.contentOf 2 ⟨⟨3⟩, 0⟩ = none := by decide +kernel
  have hlead : h.interpAt (.channel 0) = some 0 := by decide +kernel
  obtain ⟨-, hmakes⟩ := Host.createReplica_atomic Deed.makers hd hn 0 _ 0 hfirst hlead ⟨⟨3⟩, 0⟩
    fun v hv => by
      obtain rfl := Option.some.inj (hlist.symm.trans hv)
      decide +kernel
  obtain ⟨-, hfails⟩ := Host.createReplica_atomic Deed.makers hd hn 0 _ 0 hfirst hlead ⟨⟨3⟩, 1⟩
    fun v hv => by cases hbuiltin.symm.trans hv
  obtain ⟨-, hrefuses⟩ := Host.createReplica_atomic Deed.makers hd hn 0 _ 0 hfirst hlead ⟨⟨4⟩, 0⟩
    fun v hv => by cases hforeign.symm.trans hv
  obtain ⟨halone, -⟩ := Host.createReplica_atomic Deed.makers hd hn 2 _ 2 hthird (by decide +kernel) ⟨⟨3⟩, 0⟩
    fun v hv => by cases hnone.symm.trans hv
  rw [hreturned] at hmakes hfails hrefuses
  obtain ⟨-, hyields, -, -⟩ := (hmakes 0 rfl).2.1 hwhole
  obtain ⟨-, -, -, hfault⟩ := (hfails 0 rfl).2.1 hwhole
  obtain ⟨-, -, hturned, -⟩ := (hrefuses 0 rfl).2.1 hwhole
  obtain ⟨manager, data, -, hdata, hrun⟩ := hyields (.list [.int 1]) ⟨rfl, by decide⟩ hlist (by decide)
  have hbefore : Host.minted {} 0 Deed.neighbours = 0 := by decide +kernel
  have hother : (Host.afterDeeds {} Deed.neighbours).sessions.get? 1 =
      some { link := .channel 1, key := ⟨4⟩, origin := .pinned 0 1 } := by decide +kernel
  have hmade : (runOn (Host.afterDeeds {} Deed.neighbours) (createReplica 1 ⟨⟨4⟩, 0⟩)).1.toOption =
      some 0 := by decide +kernel
  obtain ⟨r, hr, hid, -⟩ := (hmakes 0 rfl).2.2 (by rw [hminted]; decide) Deed.neighbours 1 ⟨⟨4⟩, 0⟩ 0 _
    ⟨[.act (.perform 0 (.global "builtins" "len"))], rfl⟩ hother rfl
    (congrArg Prod.fst (runOn_of_toOption hmade))
  have hnext : h.nextReplica = 1 := by decide +kernel
  rw [hminted, hnext] at hrun
  rw [hbefore] at hid
  refine ⟨⟨{ id := ⟨1⟩, data, manager := 0 }, ?_, ?_, rfl, hdata⟩, hfault ⟨rfl, by decide⟩ ?_,
    hturned fun hown => ?_, halone rfl, r, hr, hid⟩
  · rw [hrun]
  · rw [hrun]
    exact Table.get?_insert_self ..
  · rintro ⟨v, hv, -⟩
    cases hbuiltin.symm.trans hv
  · cases hown.1

end InstancePool
