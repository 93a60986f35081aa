import InstancePool.Proofs.Module.Builtins
import InstancePool.Proofs.Session.ReferenceOwnership

/-!
References and the objects that they stand for. A session returns a reference once. As long as the
session is open the reference stands for one object, and the identity of an object tells it from all
others, whichever session asks.
-/

namespace InstancePool

open HostM

namespace Heap

variable {h h' : Heap} {n : ObjectIndex}

/-- The content of an object does not change. -/
theorem Extends.value_eq (he : h.Extends h') (hn : n < h.objects.length) : h'.value n = h.value n := by
  obtain ⟨o', ho', hb⟩ := he n _ (List.getElem?_eq_getElem hn)
  simp only [Heap.value, Heap.get, ho', List.getElem?_eq_getElem hn, Option.getD_some]
  rcases hb with rfl | ⟨ms, ms', ho, rfl⟩
  · rfl
  · rw [ho]
    rfl

end Heap

/-- Objects with different numbers have different identities, as long as 64 bits are enough for them. -/
theorem identity_inj {n m : ObjectIndex} (hn : n + 1 < 2 ^ 64) (hm : m + 1 < 2 ^ 64) :
    Int64.ofNat (identity n) = Int64.ofNat (identity m) ↔ n = m := by
  refine ⟨fun h => ?_, fun h => h ▸ rfl⟩
  have hbits := congrArg (fun i => i.toBitVec.toNat) h
  simp only [Int64.toBitVec_ofNat', BitVec.toNat_ofNat, identity, Nat.mod_eq_of_lt hn,
    Nat.mod_eq_of_lt hm] at hbits
  exact Nat.succ.inj hbits

namespace Engine

variable {e : Engine} {key : SessionKey} {slots : List ObjectIndex} {o f : Ref} {n g : ObjectIndex}

theorem perform_toValue (source : TextSource) (hk : e.interp.sessions.get? key = some slots)
    (ho : resolveRef key slots o = .ok n) :
    Engine.perform source key (.toValue o) e = ((e.heap.value n).map .value, e) := by
  simp only [Engine.perform, hk, attempt, ho]
  cases hv : e.heap.value n <;> simp only [hv, bind, Except.bind, Except.map] <;> rfl

/-- The builtin for it makes an object of the identity. -/
theorem perform_identity (source : TextSource) (hk : e.interp.sessions.get? key = some slots)
    (hf : resolveRef key slots f = .ok g) (hg : e.heap.get g = .builtin .id)
    (ho : resolveRef key slots o = .ok n) :
    ∃ e' m, Engine.perform source key (.call f [o]) e =
        (.ok (.ref ⟨key, UInt32.ofNat slots.length⟩), e') ∧
      e'.interp.sessions.get? key = some (slots ++ [m]) ∧
      e'.heap.value m = .ok (.int (Int64.ofNat (identity n))) := by
  have hargs : [o].mapM (resolveRef key slots) = .ok [n] := by
    rw [List.mapM_cons, ho]
    rfl
  refine ⟨(e.handOutNew key slots (.int (Int64.ofNat (identity n)))).2, e.heap.objects.length, ?_,
    slots_handOut .., ?_⟩
  · simp only [Engine.perform, hk, attempt, hf, bind, Except.bind, hg, hargs]
    rfl
  · simp only [handOutNew, handOut, Heap.alloc, Heap.value, Heap.get, List.getElem?_concat_length,
      Option.getD_some]

end Engine

/-- The written form of a number is short. -/
theorem Wire.encodeValue_int (i : Int64) :
    ∃ bytes, encodeValue (.int i) = .ok bytes ∧ bytes.length < 2 ^ 63 := by
  refine ⟨bytesOfNat32 2 ++ bytesOfInt64 i, rfl, ?_⟩
  have h2 := length_bytesOfNat32_le 2
  have hi : (bytesOfInt64 i).length ≤ 10 := length_varintBytes_le 9 _
  rw [List.length_append]
  omega

namespace Host

/-- The object that a reference stands for in a session. -/
def denoted (h : Host) (s : SessionId) (o : Ref) : Option ObjectIndex := do
  let session ← h.sessions.get? s
  h.meaning session.link session.key o

/-- What an operation of a session hands out if it succeeds, told from what it is given. -/
def provenance (h : Host) (s : SessionId) (op : Op) : Option Provenance := do
  let session ← h.sessions.get? s
  let k ← h.interpAt session.link
  let i ← h.machine.interps[k]?
  let slots ← i.sessions.get? session.key
  (⟨h.machine.heap, i⟩ : Engine).provenance session.key slots op

/-- The identity of an object, as the builtin tells that a reference stands for. -/
def identityWith (s : SessionId) (f o : Ref) : HostM Value := do
  let result ← performRef s (.call f [o])
  performValue s (.toValue result)

theorem identity_eq (s : SessionId) (o : Ref) :
    Host.identity s o = (do
      let f ← performRef s (.global "builtins" "id")
      identityWith s f o) := rfl

variable {log : List (SessionId × Ref)} {h h' : Host} {s : SessionId} {session session' : Session}
  {k k' : Nat} {i i' : Interp} {slots slots' : List ObjectIndex} {op : Op} {o f r : Ref}
  {n g : ObjectIndex}

theorem Seated.denoted_eq (hseat : h.Seated s session k i slots) :
    h.denoted s o = (resolveRef session.key slots o).toOption := by
  have hslots : h.slotsAt session.link session.key = some slots :=
    slotsAt_eq_some.2 ⟨k, i, hseat.leads, hseat.interp, hseat.holds⟩
  simp only [denoted, meaning, hseat.known, hslots, Option.bind_eq_bind, Option.bind_some]

theorem Seated.denoted_eq_some (hseat : h.Seated s session k i slots) :
    h.denoted s o = some n ↔ resolveRef session.key slots o = .ok n := by
  rw [hseat.denoted_eq]
  cases resolveRef session.key slots o with
  | error f => exact ⟨nofun, nofun⟩
  | ok m => simp only [Except.toOption, Option.some.injEq, Except.ok.injEq]

theorem Seated.provenance_eq (hseat : h.Seated s session k i slots) :
    h.provenance s op = (⟨h.machine.heap, i⟩ : Engine).provenance session.key slots op := by
  simp only [provenance, hseat.known, hseat.leads, hseat.interp, hseat.holds, Option.bind_eq_bind,
    Option.bind_some]

/-- The last reference stands for the last object, as long as 32 bits are enough for its number. -/
theorem Seated.denoted_last (hseat : h.Seated s session k i (slots ++ [n]))
    (hlen : slots.length < 2 ^ 32) :
    h.denoted s ⟨session.key, UInt32.ofNat slots.length⟩ = some n := by
  have hslot : (UInt32.ofNat slots.length).toNat = slots.length := UInt32.toNat_ofNat_of_lt' hlen
  have hlast : (slots ++ [n])[slots.length]? = some n := List.getElem?_concat_length
  rw [hseat.denoted_eq_some]
  simp only [resolveRef, hslot, hlast, ne_eq, not_true_eq_false, if_false]

/-- A reference stands for the same object while slots are added. -/
theorem Seated.denoted_append {more : List ObjectIndex} (hseat : h.Seated s session k i slots)
    (hseat' : h'.Seated s session' k' i' (slots ++ more)) (hkey : session'.key = session.key)
    (hn : h.denoted s o = some n) : h'.denoted s o = some n := by
  rw [hseat.denoted_eq_some] at hn
  rw [hseat'.denoted_eq_some, hkey]
  obtain ⟨howned, hslot⟩ := Engine.resolveRef_ok.1 hn
  refine Engine.resolveRef_ok.2 ⟨howned, ?_⟩
  rw [List.getElem?_append_left (List.getElem?_eq_some_iff.1 hslot).1, hslot]

/-- What an operation leaves that came to something at the interpreter. -/
theorem Seated.after (hseat : h.Seated s session k i slots) {m : Machine} {i' : Interp}
    (hi : m.interps[k]? = some i') (hslots : i'.sessions.get? session.key = some slots') :
    Seated { h with machine := m } s session k i' slots' :=
  ⟨hseat.known, hseat.leads, hi, hslots, hseat.served⟩

theorem Seated.reaches (hseat : h.Seated s session k i slots) (hn : h.denoted s o = some n) :
    h.machine.Reaches k n := by
  have hmem := Engine.mem_of_resolveRef (hseat.denoted_eq_some.1 hn)
  exact ⟨i, hseat.interp, .root (.slot hseat.holds hmem)⟩

/-- An operation in a session that is served is performed, and its answer comes back if it can be
written. -/
theorem Seated.perform (hseat : h.Seated s session k i slots) (hn : op.nesting ≤ Value.maxDepth)
    (hs : op.Sized) : ∃ heard, runOn h (Host.perform s op) =
        (heard, { h with machine := (h.machine.perform h.texts k session.key op).2 }) ∧
      Relayed (h.machine.perform h.texts k session.key op).1 heard := by
  rw [runOn_perform hseat.known]
  rcases Link.perform_sized session.key hseat.leads hn hs with ⟨hno, -⟩ | ⟨-, hperformed⟩
  · exact absurd hseat.served hno
  · exact hperformed

/-- An operation that hands out something at the interpreter hands it out to the session. -/
theorem Seated.perform_ref (hseat : h.Seated s session k i slots) (hn : op.nesting ≤ Value.maxDepth)
    (hs : op.Sized) {e' : Engine}
    (hengine : Engine.perform h.texts session.key op ⟨h.machine.heap, i⟩ = (.ok (.ref r), e'))
    (hslots : e'.interp.sessions.get? session.key = some slots') :
    ∃ h₁, runOn h (Host.perform s op) = (.ok (.ref r), h₁) ∧ h₁.Seated s session k e'.interp slots' ∧
      h₁.machine.heap = e'.heap := by
  obtain ⟨heard, hrun, hrelay⟩ := hseat.perform hn hs
  rw [Machine.perform_eq hseat.interp, hengine] at hrun hrelay
  obtain ⟨output, hout, hl⟩ := Wire.encodeReply_ref r
  obtain rfl := hrelay.ok _ output rfl hout hl
  have hlt : k < h.machine.interps.length := (List.getElem?_eq_some_iff.1 hseat.interp).1
  exact ⟨{ h with machine := { h.machine.setInterp k e'.interp with heap := e'.heap } }, hrun,
    hseat.after (List.getElem?_set_self hlt) hslots, rfl⟩

theorem Seated.performRef (hseat : h.Seated s session k i slots) (hn : op.nesting ≤ Value.maxDepth)
    (hs : op.Sized) {e' : Engine}
    (hengine : Engine.perform h.texts session.key op ⟨h.machine.heap, i⟩ = (.ok (.ref r), e'))
    (hslots : e'.interp.sessions.get? session.key = some slots') :
    ∃ h₁, runOn h (Host.performRef s op) = (.ok r, h₁) ∧ h₁.Seated s session k e'.interp slots' ∧
      h₁.machine.heap = e'.heap := by
  obtain ⟨h₁, hrun, hseat₁, hheap⟩ := hseat.perform_ref hn hs hengine hslots
  refine ⟨h₁, ?_, hseat₁, hheap⟩
  rw [Host.performRef, runOn_bind_ok hrun]
  rfl

theorem runOn_bind_settle {α β : Type} (h : Host) (x : HostM α) (f : α → Except Error β) :
    (runOn h (x >>= fun a => settle (f a))).1 = (runOn h x).1 >>= f := by
  rw [runOn_bind]
  rcases runOn h x with ⟨e | a, h'⟩ <;> rfl

/-- What one is told of an object in a session depends on its content alone. -/
theorem Seated.toValue (hseat : h.Seated s session k i slots) (hn : h.denoted s o = some n) :
    (runOn h (performValue s (.toValue o))).1 = (session.link.relay session.key (.toValue o)
      (((h.machine.heap.value n).map .value).mapError fun f => .runtime f.fault) >>= fun r =>
        r.toValue.mapError .protocol) := by
  have hengine := Engine.perform_toValue h.texts (e := ⟨h.machine.heap, i⟩) hseat.holds
    (hseat.denoted_eq_some.1 hn)
  have hheard := Link.perform_heard hseat.served hseat.leads
    (show (Op.toValue o).nesting ≤ Value.maxDepth from Nat.zero_le _) trivial
  rw [Machine.perform_eq hseat.interp, hengine] at hheard
  rw [performValue, runOn_bind_settle, runOn_perform hseat.known, hheard]

/-- An object whose content can be written in a few bytes is told. -/
theorem Seated.toValue_ok (hseat : h.Seated s session k i slots) {v : Value} {bytes : List UInt8}
    (hn : h.denoted s o = some n) (hv : h.machine.heap.value n = .ok v)
    (hb : Wire.encodeValue v = .ok bytes) (hlen : bytes.length < 2 ^ 63) :
    (runOn h (performValue s (.toValue o))).1 = .ok v := by
  obtain ⟨output, hout, hshort⟩ := Wire.encodeReply_value hb hlen
  rw [hseat.toValue hn, hv]
  cases session.link with
  | direct n => rfl
  | channel c =>
    have hheard := Channel.hear_ok (Request.act session.key (.toValue o)).name hout hshort
    simp only [Link.relay, Except.map, Except.mapError_ok, hheard]
    rfl

/-- The builtin for it tells the identity of the object that a reference stands for. -/
theorem Seated.identityWith (hseat : h.Seated s session k i slots) (hlen : slots.length < 2 ^ 32)
    (hf : h.denoted s f = some g) (hg : h.machine.heap.get g = .builtin .id)
    (hn : h.denoted s o = some n) :
    (runOn h (Host.identityWith s f o)).1 = .ok (.int (Int64.ofNat (InstancePool.identity n))) := by
  obtain ⟨e', m, hengine, hlast, hvalue⟩ := Engine.perform_identity h.texts
    (e := ⟨h.machine.heap, i⟩) hseat.holds (hseat.denoted_eq_some.1 hf) hg (hseat.denoted_eq_some.1 hn)
  obtain ⟨h₁, hrun, hseat₁, hheap⟩ := hseat.performRef
    (show (Op.call f [o]).nesting ≤ Value.maxDepth from Nat.zero_le _)
    (show (Op.call f [o]).Sized from (by decide : 1 < 2 ^ 64)) hengine hlast
  obtain ⟨bytes, hb, hshort⟩ := Wire.encodeValue_int (Int64.ofNat (InstancePool.identity n))
  rw [Host.identityWith, runOn_bind_ok hrun]
  exact hseat₁.toValue_ok (hseat₁.denoted_last hlen) (hheap ▸ hvalue) hb hshort

/-- So it does if the session first asks for the builtin. -/
theorem Seated.identity (hseat : h.Seated s session k i slots) (hlen : slots.length + 1 < 2 ^ 32)
    (he : h.machine.Equips i) (hn : h.denoted s o = some n) :
    (runOn h (Host.identity s o)).1 = .ok (.int (Int64.ofNat (InstancePool.identity n))) := by
  obtain ⟨b, hb, -, hbuiltins⟩ := he
  obtain ⟨g, hbinds, hg⟩ := hbuiltins .id
  obtain ⟨h₁, hrun, hseat₁, hheap⟩ := hseat.performRef
    (show (Op.global "builtins" "id").nesting ≤ Value.maxDepth from Nat.zero_le _)
    (by decide : Text.Sized "builtins" ∧ Text.Sized "id")
    (Engine.perform_global hseat.holds hb hbinds.member) (Engine.slots_handOut ..)
  have hget : h₁.machine.heap.get g = .builtin .id := by
    rw [hheap]
    simp only [Heap.get, hg, Engine.handOut, Option.getD_some]
  rw [identity_eq, runOn_bind_ok hrun]
  refine hseat₁.identityWith ?_ (hseat₁.denoted_last (Nat.lt_of_succ_lt hlen)) hget
    (hseat.denoted_append hseat₁ rfl hn)
  rwa [List.length_append, List.length_singleton]

/-- What an operation handed out: an object that there was, which is told from what the operation was
given, or a new one. -/
theorem Seated.perform_hands (hseat : h.Seated s session k i slots) (hs : op.Sized)
    (hr : runOn h (Host.perform s op) = (.ok (.ref r), h')) :
    r = ⟨session.key, UInt32.ofNat slots.length⟩ ∧ ∃ i' n, h'.Seated s session k i' (slots ++ [n]) ∧
      (h.provenance s op = some (.existing n) ∧ h'.machine.heap = h.machine.heap ∨
        h.provenance s op = some .fresh ∧ h.machine.heap.objects.length ≤ n) := by
  rw [runOn_perform hseat.known] at hr
  have hkind : op.answers = .ref := (Link.perform_kind (congrArg Prod.fst hr)).symm
  rcases Link.perform_arriving session.key hseat.leads hs with ⟨e, he⟩ | ⟨heard, hrun, hrelay⟩
  · rw [hr] at he
    cases he
  · rw [hr] at hrun
    obtain ⟨rfl, rfl⟩ := Prod.mk.inj hrun
    -- A reference comes back as it was sent.
    obtain ⟨sent, hsent⟩ := hrelay.of_ok rfl
    have hsentKind : sent.kind = .ref := (Machine.perform_answers hseat.interp hsent).trans hkind
    cases sent with
    | ref r' =>
      obtain ⟨output, hout, hl⟩ := Wire.encodeReply_ref r'
      cases hrelay.ok _ output hsent hout hl
      have hlt : k < h.machine.interps.length := (List.getElem?_eq_some_iff.1 hseat.interp).1
      rw [Machine.perform_eq hseat.interp] at hsent ⊢
      have hengine : (Engine.perform h.texts session.key op ⟨h.machine.heap, i⟩).1 = .ok (.ref r) := by
        cases hx : (Engine.perform h.texts session.key op ⟨h.machine.heap, i⟩).1 with
        | error f =>
          rw [hx] at hsent
          cases hsent
        | ok x =>
          rw [hx] at hsent
          cases hsent
          rfl
      obtain ⟨n, hhands⟩ := Engine.hands_of_perform hseat.holds hengine
      rcases Engine.perform_own h.texts op (e := ⟨h.machine.heap, i⟩) hseat.holds with
        ⟨hnone, -⟩ | ⟨hsome, -⟩
      · exact absurd hengine (hnone r)
      · cases hengine.symm.trans hsome
        refine ⟨rfl, _, n, hseat.after (List.getElem?_set_self hlt) hhands.last, ?_⟩
        rw [hseat.provenance_eq]
        exact hhands.provenance.imp_right fun h => ⟨h.1, h.2.1⟩
    | _ => cases hsentKind

/-- There is an object with a number, and so with an identity. -/
def Made (h : Host) (n : ObjectIndex) : Prop := n < h.machine.heap.objects.length

/-- A session that asks for the builtin tells the identity of an object. -/
def Identifies (h : Host) (s : SessionId) (o : Ref) (n : ObjectIndex) : Prop :=
  (runOn h (Host.identity s o)).1 = .ok (.int (Int64.ofNat (InstancePool.identity n)))

/-- The identity of an object is what a session tells of a reference, whichever reference to the builtin
is used. -/
def Tells (h : Host) (s : SessionId) (o : Ref) (n : ObjectIndex) : Prop :=
  ∀ f g, h.denoted s f = some g → h.machine.heap.get g = .builtin .id →
    (runOn h (Host.identityWith s f o)).1 = .ok (.int (Int64.ofNat (InstancePool.identity n)))

/-- A session handed out the object `n` last, as `r`. As long as 32 bits are enough for the number of its
slot, this is what the reference stands for. -/
def LastHanded (h : Host) (s : SessionId) (r : Ref) (n : ObjectIndex) : Prop :=
  ∃ session slots, h.sessions.get? s = some session ∧ r = ⟨session.key, UInt32.ofNat slots.length⟩ ∧
    h.slotsAt session.link session.key = some (slots ++ [n]) ∧
    (slots.length < 2 ^ 32 → h.denoted s r = some n)

theorem Seated.lastHanded (hseat : h.Seated s session k i (slots ++ [n])) :
    h.LastHanded s ⟨session.key, UInt32.ofNat slots.length⟩ n :=
  ⟨session, slots, hseat.known, rfl, slotsAt_eq_some.2 ⟨k, i, hseat.leads, hseat.interp, hseat.holds⟩,
    hseat.denoted_last⟩

theorem LastHanded.denoted (hh : h.LastHanded s r n) (hopen : h.sessions.get? s = some session)
    (hslots : h.slotsAt session.link session.key = some slots) (hlen : slots.length ≤ 2 ^ 32) :
    h.denoted s r = some n := by
  obtain ⟨session', before, hopen', -, hslots', hdenoted⟩ := hh
  obtain rfl := Option.some.inj (hopen.symm.trans hopen')
  obtain rfl := Option.some.inj (hslots.symm.trans hslots')
  rw [List.length_append] at hlen
  exact hdenoted hlen

/-- What a reference stands for in a session, it stands for as long as the session is open, and all that is
told of that is the same. -/
theorem Kept.denoted_later {later : List Deed} (hk : h.Kept log) (ha : h.machine.Apart)
    (he : h.machine.Equipped) (hd : h.AllProper later)
    (hn : h.machine.given + h.opened later < 2 ^ 64)
    (hlives : (h.afterDeeds later).Lives s) (hfirst : h.denoted s o = some n) :
    (h.afterDeeds later).denoted s o = some n ∧
      (runOn (h.afterDeeds later) (performValue s (.toValue o))).1 =
        (runOn h (performValue s (.toValue o))).1 ∧
      ((refsOf (log ++ h.returned later) s).length < 2 ^ 32 →
        h.Tells s o n ∧ (h.afterDeeds later).Tells s o n) ∧
      ((refsOf (log ++ h.returned later) s).length + 1 < 2 ^ 32 →
        h.Identifies s o n ∧ (h.afterDeeds later).Identifies s o n) := by
  obtain ⟨opened, hopened, -⟩ := Option.bind_eq_some_iff.1 hfirst
  -- The session was open before, with the slots that it still has.
  obtain ⟨session, k, i, slots, session', k', i', more, hseat, -, hseat', hlink, hkey⟩ :=
    hk.seated_after hd hn (hk.lt hopened) hlives
  rw [(hk.afterDeeds hd hn).refsOf_eq hseat', SessionKey.length_refs]
  have hlast : (h.afterDeeds later).denoted s o = some n := hseat.denoted_append hseat' hkey hfirst
  -- The object was there before, so its content is what it was.
  have hthere : n < h.machine.heap.objects.length := ha.there k n (hseat.reaches hfirst)
  have he' : (h.afterDeeds later).machine.Equipped := equipped_afterDeeds hd.told he
  have hless : slots.length ≤ (slots ++ more).length := by
    rw [List.length_append]
    exact Nat.le_add_right ..
  refine ⟨hlast, ?_, fun hroom => ⟨fun f g hf hg => ?_, fun f g hf hg => ?_⟩, fun hroom => ⟨?_, ?_⟩⟩
  · rw [hseat.toValue hfirst, hseat'.toValue hlast, hlink, hkey,
      (extends_afterDeeds hd).value_eq hthere]
  · exact hseat.identityWith (Nat.lt_of_le_of_lt hless hroom) hf hg hfirst
  · exact hseat'.identityWith hroom hf hg hlast
  · exact hseat.identity (Nat.lt_of_le_of_lt (Nat.succ_le_succ hless) hroom)
      (he.equips k i hseat.interp) hfirst
  · exact hseat'.identity hroom (he'.equips k' i' hseat'.interp) hlast

/-- A reference that a session returned stands for an object, as long as there were no more than 32 bits are
enough for. -/
theorem Kept.exists_denoted {later : List Deed} (hk : h.Kept log) (hd : h.AllProper later)
    (hn : h.machine.given + h.opened later < 2 ^ 64) (hlives : (h.afterDeeds later).Lives s)
    (ho : o ∈ refsOf log s) (hfew : (refsOf log s).length ≤ 2 ^ 32) : ∃ n, h.denoted s o = some n := by
  have hold : s < h.nextSession := by
    refine Nat.lt_of_not_le fun hle => ?_
    rw [(hk.fresh s hle).2] at ho
    cases ho
  obtain ⟨session, k, i, slots, -, -, -, -, hseat, hrefs, -⟩ := hk.seated_after hd hn hold hlives
  rw [hrefs, SessionKey.length_refs] at hfew
  rw [hrefs, SessionKey.mem_refs hfew] at ho
  exact ⟨_, hseat.denoted_eq_some.2 (Engine.resolveRef_ok.2 ⟨ho.1, List.getElem?_eq_getElem ho.2⟩)⟩

/-- What an operation hands out was there and is told from what the operation is given, or it is new. -/
theorem Kept.perform_hands (hk : h.Kept log) (ha : h.machine.Apart) (hlives : h.Lives s)
    (hroom : (refsOf log s).length < 2 ^ 32) (hs : op.Sized)
    (hr : runOn h (Host.perform s op) = (.ok (.ref r), h')) :
    ∃ n, h'.denoted s r = some n ∧
      (h.provenance s op = some (.existing n) ∧ h.Made n ∨
        h.provenance s op = some .fresh ∧ ¬ h.Made n) := by
  obtain ⟨session, k, i, slots, hseat, hrefs⟩ := hk.seated hlives
  rw [hrefs, SessionKey.length_refs] at hroom
  obtain ⟨rfl, i', n, hseat', hfrom⟩ := hseat.perform_hands hs hr
  have hn := hseat'.denoted_last hroom
  refine ⟨n, hn, hfrom.imp (fun ⟨hold, hheap⟩ => ⟨hold, ?_⟩) fun ⟨hfresh, hle⟩ =>
    ⟨hfresh, Nat.not_lt.2 hle⟩⟩
  have hworks := works_perform (S := fun _ => True) s op h fun _ _ _ _ => trivial
  rw [hr] at hworks
  rw [Made, ← hheap]
  exact (ha.steps hworks.machine).1.there k n (hseat'.reaches hn)

theorem performRef_ok (hr : runOn h (performRef s op) = (.ok r, h')) :
    runOn h (Host.perform s op) = (.ok (.ref r), h') := by
  obtain ⟨answer, h₁, hperform, hr⟩ := bind_ok hr
  cases answer with
  | ref r' =>
    cases hr
    exact hperform
  | _ => cases hr

/-- To look at something first makes no difference. -/
theorem look_ok {α β : Type} {x : HostM α} {f : α → HostM β} {b : β}
    (hx : Within (fun h h' => h' = h) x) (hr : runOn h (x >>= f) = (.ok b, h')) :
    ∃ a, runOn h (f a) = (.ok b, h') := by
  obtain ⟨a, h₁, hlook, hrest⟩ := bind_ok hr
  obtain rfl : h₁ = h := hx.of_eq hlook
  exact ⟨a, hrest⟩

/-- A value that was materialized was restored in its session. -/
theorem materialize_ok {m : ReplicaId} (hr : runOn h (Host.materialize s m) = (.ok r, h')) :
    ∃ replica, h.replicas.get? m = some replica ∧
      runOn h (Host.perform s (.restore replica.id replica.data)) = (.ok (.ref r), h') := by
  obtain ⟨replica, h₁, hreplica, hr⟩ := bind_ok hr
  obtain ⟨hm, rfl⟩ := find_ok hreplica
  obtain ⟨_, hr⟩ := look_ok (within_requireLoaded replica) hr
  obtain ⟨_, hr⟩ := look_ok (within_find _) hr
  obtain ⟨home, hr⟩ := look_ok (within_find _) hr
  obtain ⟨_, hr⟩ := look_ok (within_requireOwned replica.manager home) hr
  exact ⟨replica, hm, performRef_ok hr⟩

/-- In every run in which the keys of sessions, the numbers of objects and those of references suffice,
up to any point of it and from there on: a session that is alive returned no reference twice. Each that
it returned up to that point stands for the object that it stood for, of which the session tells the
same content and the same identity. The identities of two objects are equal only if they are one. And
what an operation hands out next is an object that there is, if it asks for a member of a namespace or
of a module that is cached, calls `echo`, or restores what is loaded; otherwise no object has ever had
its number. -/
theorem refs_stand (deeds later : List Deed) (hd : Host.AllProper {} (deeds ++ later))
    (hn : Host.opened {} (deeds ++ later) < 2 ^ 64)
    (hobjects : (Host.afterDeeds {} (deeds ++ later)).machine.heap.objects.length < 2 ^ 64)
    (hfew : ∀ s, (refsOf (Host.returned {} (deeds ++ later)) s).length ≤ 2 ^ 32) :
    let h := Host.afterDeeds {} deeds
    let h' := Host.afterDeeds {} (deeds ++ later)
    let log := Host.returned {} (deeds ++ later)
    (∀ s, h'.Lives s → (refsOf log s).Nodup) ∧
    (∀ s o, h'.Lives s → o ∈ refsOf (Host.returned {} deeds) s →
      ∃ n, h.denoted s o = some n ∧ h'.denoted s o = some n ∧
        (runOn h' (performValue s (.toValue o))).1 = (runOn h (performValue s (.toValue o))).1 ∧
        ((refsOf log s).length < 2 ^ 32 → h.Tells s o n ∧ h'.Tells s o n) ∧
        ((refsOf log s).length + 1 < 2 ^ 32 → h.Identifies s o n ∧ h'.Identifies s o n)) ∧
    (∀ s s' o o' n n', h'.Lives s → h'.Lives s' → h'.denoted s o = some n →
      h'.denoted s' o' = some n' →
      (Int64.ofNat (InstancePool.identity n) = Int64.ofNat (InstancePool.identity n') ↔ n = n')) ∧
    (∀ s op r h'', h'.Lives s → (refsOf log s).length < 2 ^ 32 → op.Sized →
      runOn h' (Host.perform s op) = (.ok (.ref r), h'') →
      ∃ n, h''.denoted s r = some n ∧
        (h'.provenance s op = some (.existing n) ∧ h'.Made n ∨
          h'.provenance s op = some .fresh ∧ ∀ earlier, earlier <+: deeds ++ later →
            ¬ (Host.afterDeeds {} earlier).Made n)) ∧
    (∀ s m r h'', runOn h' (Host.materialize s m) = (.ok r, h'') →
      ∃ replica, h'.replicas.get? m = some replica ∧
        runOn h' (Host.perform s (.restore replica.id replica.data)) = (.ok (.ref r), h'')) := by
  intro h h' log
  obtain ⟨hearly, hlate⟩ := allProper_append.1 hd
  have hsplit : h' = h.afterDeeds later := afterDeeds_append {} deeds later
  have hlog : log = Host.returned {} deeds ++ h.returned later := returned_append {} deeds later
  have hzero : (Machine.given {}) + Host.opened {} (deeds ++ later) < 2 ^ 64 :=
    Nat.lt_of_le_of_lt (Nat.le_of_eq (Nat.zero_add _)) hn
  have hopened : Host.opened {} (deeds ++ later) = Host.opened {} deeds + h.opened later :=
    opened_append {} deeds later
  have hbefore : Machine.given {} + Host.opened {} deeds < 2 ^ 64 := by omega
  have hk : h.Kept (Host.returned {} deeds) := kept_empty.afterDeeds hearly hbefore
  have hk' : h'.Kept log := kept_empty.afterDeeds hd hzero
  have ha : h.machine.Apart := apart_afterDeeds hearly.told Machine.apart_empty
  have ha' : h'.machine.Apart := apart_afterDeeds hd.told Machine.apart_empty
  -- What a session has a reference to is there, so 64 bits are enough for its identity.
  have hnumber (s : SessionId) (o : Ref) (n : ObjectIndex) (hlives : h'.Lives s)
      (hn : h'.denoted s o = some n) : n + 1 < 2 ^ 64 := by
    obtain ⟨session, k, i, slots, hseat, -⟩ := hk'.seated hlives
    exact Nat.lt_of_le_of_lt (ha'.there k n (hseat.reaches hn)) hobjects
  refine ⟨fun s hlives => ?_, fun s o hlives ho => ?_, fun s s' o o' n n' hlives hlives' ho ho' => ?_,
    fun s op r h'' hlives hroom hs hr => ?_, fun s m r h'' hr => materialize_ok hr⟩
  · obtain ⟨session, k, i, slots, -, hrefs⟩ := hk'.seated hlives
    have hlen := hfew s
    rw [hrefs, SessionKey.length_refs] at hlen
    exact hrefs ▸ SessionKey.nodup_refs session.key hlen
  · have hgiven : h.machine.given + h.opened later < 2 ^ 64 := by
      have hkeys : h.machine.given = Machine.given {} + Host.opened {} deeds :=
        given_afterDeeds hbefore
      omega
    have he : h.machine.Equipped := equipped_afterDeeds hearly.told Machine.equipped_empty
    rw [hsplit] at hlives
    have hfirst : (refsOf (Host.returned {} deeds) s).length ≤ 2 ^ 32 := by
      refine Nat.le_trans ?_ (hfew s)
      rw [returned_append, refsOf_append, List.length_append]
      exact Nat.le_add_right _ _
    obtain ⟨n, hn'⟩ := hk.exists_denoted hlate hgiven hlives ho hfirst
    have hlater := hk.denoted_later ha he hlate hgiven hlives hn'
    rw [← hsplit, ← hlog] at hlater
    exact ⟨n, hn', hlater⟩
  · exact identity_inj (hnumber s o n hlives ho) (hnumber s' o' n' hlives' ho')
  · obtain ⟨n, hn, hfrom⟩ := hk'.perform_hands ha' hlives hroom hs hr
    refine ⟨n, hn, hfrom.imp_right fun ⟨hfresh, hnew⟩ => ⟨hfresh, ?_⟩⟩
    -- An object that there was at any time before would be there now.
    rintro earlier ⟨rest, hrest⟩ hmade
    have hextends : (Host.afterDeeds {} earlier).machine.heap.Extends h'.machine.heap := by
      rw [← hrest] at hd
      have hprefix : h' = (Host.afterDeeds {} earlier).afterDeeds rest := by
        rw [← afterDeeds_append, hrest]
      exact hprefix ▸ extends_afterDeeds (allProper_append.1 hd).2
    exact hnew (Nat.lt_of_lt_of_le hmade hextends.length_le)

end Host

/-- One of the twins sets a member of their namespace, and the other one looks at it through the boundary.
Both tell the same identity of what they have, also after the member was set to something else; and what
is made next has an identity of its own. -/
theorem Host.refs_stand_twins :
    let deeds := Deed.twins ++ [.act (.perform 0 (.setAttr ⟨⟨1⟩, 0⟩ "x" ⟨⟨1⟩, 1⟩)),
      .act (.perform 1 (.attr ⟨⟨2⟩, 0⟩ "x"))]
    let later : List Deed := [.act (.perform 1 (.setAttr ⟨⟨2⟩, 0⟩ "x" ⟨⟨2⟩, 0⟩))]
    let h := Host.afterDeeds {} deeds
    let h' := Host.afterDeeds {} (deeds ++ later)
    (refsOf (Host.returned {} (deeds ++ later)) 1).Nodup ∧
      h.denoted 1 ⟨⟨2⟩, 1⟩ = some 18 ∧ h'.denoted 1 ⟨⟨2⟩, 1⟩ = some 18 ∧
      (runOn h' (performValue 1 (.toValue ⟨⟨2⟩, 1⟩))).1 =
        (runOn h (performValue 1 (.toValue ⟨⟨2⟩, 1⟩))).1 ∧
      (runOn h' (Host.identity 0 ⟨⟨1⟩, 1⟩)).1 = .ok (.int 19) ∧
      (runOn h' (Host.identity 1 ⟨⟨2⟩, 1⟩)).1 = .ok (.int 19) ∧
      ∃ n h'', runOn h' (Host.perform 1 (.eval "7")) = (.ok (.ref ⟨⟨2⟩, 2⟩), h'') ∧
        h''.denoted 1 ⟨⟨2⟩, 2⟩ = some n ∧ ¬ h'.Made n := by
  intro deeds later h h'
  have hd : Host.AllProper {} (deeds ++ later) :=
    ⟨trivial, trivial, trivial, trivial, trivial, trivial, trivial, trivial, trivial, trivial, trivial,
      trivial, trivial, trivial, trivial⟩
  have hopened : Host.opened {} (deeds ++ later) = 3 := by decide +kernel
  have hobjects : h'.machine.heap.objects.length = 19 := by decide +kernel
  have hbefore : Host.returned {} deeds =
      [(0, ⟨⟨1⟩, 0⟩), (1, ⟨⟨2⟩, 0⟩), (2, ⟨⟨3⟩, 0⟩), (0, ⟨⟨1⟩, 1⟩), (1, ⟨⟨2⟩, 1⟩)] := by decide +kernel
  have hroom (s : SessionId) :
      (refsOf (Host.returned {} (deeds ++ later)) s).length + 1 < 2 ^ 32 := by
    have hlength : (Host.returned {} (deeds ++ later)).length = 5 := by decide +kernel
    refine Nat.lt_of_le_of_lt (Nat.succ_le_succ (List.length_filterMap_le _ _)) ?_
    rw [hlength]
    decide
  have hfirst : h'.Lives 0 := by
    refine ⟨{ link := .direct 0, key := ⟨1⟩, origin := .bare }, 0, by decide +kernel, rfl, ?_⟩
    rintro ⟨c, e, hc, -⟩
    cases hc
  have hsecond : h'.Lives 1 := by
    have hlive : h'.channels[0]?.map Channel.live = some true := by decide +kernel
    refine ⟨{ link := .channel 0, key := ⟨2⟩, origin := .bare }, 0, by decide +kernel,
      by decide +kernel, ?_⟩
    rintro ⟨c, e, hc, hcut⟩
    cases hc
    rw [hcut] at hlive
    cases hlive
  have heval : (runOn h' (Host.perform 1 (.eval "7"))).1.toOption = some (.ref ⟨⟨2⟩, 2⟩) := by
    decide +kernel
  have hfresh : h'.provenance 1 (.eval "7") = some .fresh := by decide +kernel
  have hset : h'.denoted 0 ⟨⟨1⟩, 1⟩ = some 18 := by decide +kernel
  have hread : h'.denoted 1 ⟨⟨2⟩, 1⟩ = some 18 := by decide +kernel
  obtain ⟨hnodup, hstand, -, hhands, -⟩ := Host.refs_stand deeds later hd (by rw [hopened]; decide)
    (by rw [hobjects]; decide) fun s => Nat.le_of_lt (Nat.lt_of_succ_lt (hroom s))
  obtain ⟨n, -, hn, -, -, htold⟩ := hstand 0 ⟨⟨1⟩, 1⟩ hfirst (by rw [hbefore]; decide)
  obtain ⟨m, hm, hm', hvalue, -, htold'⟩ := hstand 1 ⟨⟨2⟩, 1⟩ hsecond (by rw [hbefore]; decide)
  obtain rfl : 18 = n := Option.some.inj (hset.symm.trans hn)
  obtain rfl : 18 = m := Option.some.inj (hread.symm.trans hm')
  refine ⟨hnodup 1 hsecond, hm, hm', hvalue, (htold (hroom 0)).2, (htold' (hroom 1)).2, ?_⟩
  have hrun := runOn_of_toOption heval
  obtain ⟨x, hx, ⟨hold, -⟩ | ⟨-, hnew⟩⟩ := hhands 1 (.eval "7") ⟨⟨2⟩, 2⟩ _ hsecond
    (Nat.lt_of_succ_lt (hroom 1)) (by decide +kernel : Text.Sized "7") hrun
  · rw [hfresh] at hold
    cases hold
  · exact ⟨x, _, hrun, hx, hnew (deeds ++ later) (List.prefix_refl _)⟩

end InstancePool
