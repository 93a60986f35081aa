import InstancePool.Proofs.Channel.OperationTransfer
import InstancePool.Proofs.Interp.Separation
import InstancePool.Proofs.Replica.LoadedObjects

/-!
A namespace is one object, whatever session looks at it: a member that one session sets is there for
every session that has the namespace.
-/

namespace InstancePool

open HostM

namespace Engine

variable {source : TextSource} {e : Engine} {key : SessionKey} {slots : List ObjectIndex}

/-- What it takes to set a member, and what comes of it. -/
theorem perform_setAttr {target value : Ref} {name : String} {r : Response}
    (hr : (Engine.perform source key (.setAttr target name value) e).1 = .ok r) :
    ∃ slots n m members, e.interp.sessions.get? key = some slots ∧
      resolveRef key slots target = .ok n ∧ resolveRef key slots value = .ok m ∧
      e.heap.get n = .space members ∧
      (Engine.perform source key (.setAttr target name value) e).2 =
        { e with heap := e.heap.set n (.space (members.insert name m)) } := by
  unfold Engine.perform at hr ⊢
  cases hk : e.interp.sessions.get? key with
  | none =>
    rw [hk] at hr
    cases hr
  | some slots =>
    rw [hk] at hr
    simp only [] at hr ⊢
    cases ha : e.attempt key slots (.setAttr target name value) with
    | error f =>
      rw [ha] at hr
      cases hr
    | ok x =>
      obtain ⟨n, hn, ha⟩ := Except.bind_ok ha
      obtain ⟨m, hm, ha⟩ := Except.bind_ok ha
      split at ha
      · rename_i members hspace
        cases ha
        exact ⟨slots, n, m, members, rfl, hn, hm, hspace, rfl⟩
      · cases ha

/-- A member that is there is handed out. -/
theorem perform_attr {target : Ref} {name : String} {n m : ObjectIndex}
    {members : Table String ObjectIndex} (hk : e.interp.sessions.get? key = some slots)
    (hn : resolveRef key slots target = .ok n) (hspace : e.heap.get n = .space members)
    (hm : members.get? name = some m) :
    Engine.perform source key (.attr target name) e =
      (.ok (.ref ⟨key, UInt32.ofNat slots.length⟩), { e with interp :=
        { e.interp with sessions := e.interp.sessions.insert key (slots ++ [m]) } }) := by
  have hmember : e.heap.member n name = .ok m := by
    simp only [Heap.member, hspace, hm]
  have hattempt : e.attempt key slots (.attr target name) = .ok (e.handOut key slots m) := by
    simp only [attempt, hn, hmember, bind, Except.bind]
    rfl
  simp only [Engine.perform, hk, hattempt]
  rfl

end Engine

/-- An operation that can be written is read back as it was. -/
theorem Wire.decodeRequest_act {op : Op} (key : SessionKey) (hn : op.nesting ≤ Value.maxDepth)
    (hs : op.Sized) : ∃ bytes, Wire.encodeRequest (.act key op) = .ok bytes ∧
      Wire.decodeRequest bytes = .ok (.act key op) := by
  obtain ⟨bytes, hb⟩ := Wire.encodeRequest_ok (r := .act key op) hn
  have hread := (Wire.reads_request hb hs).run []
  rw [List.append_nil] at hread
  exact ⟨bytes, hb, hread⟩

namespace Link

open Host

variable {h : Host} {l : Link} {k : Nat} {key : SessionKey} {op : Op}

/-- An operation that can be written is performed if its session is served, even if the interpreter is
finalized, and fails otherwise. -/
theorem perform_sized (key : SessionKey) (hl : h.interpAt l = some k)
    (hn : op.nesting ≤ Value.maxDepth) (hs : op.Sized) :
    (¬ h.Served l key ∧ ∃ e, runOn h (l.perform key op) = (.error e, h)) ∨
      h.Served l key ∧ ∃ heard,
        runOn h (l.perform key op) =
          (heard, { h with machine := (h.machine.perform h.texts k key op).2 }) ∧
        Relayed (h.machine.perform h.texts k key op).1 heard := by
  cases l with
  | direct n =>
    obtain rfl : n = k := Option.some.inj hl
    exact .inr ⟨nofun, _, rfl, .refl _⟩
  | channel c =>
    obtain ⟨live, e, hc, rfl⟩ := interpAt_channel_iff.1 hl
    cases live with
    | false =>
      -- A closed channel leaves the image alone.
      refine .inl ⟨fun hserved => ?_, .closed, runOn_perform_channel hc ?_⟩
      · obtain ⟨e', hc', -⟩ := hserved c rfl
        rw [hc] at hc'
        cases hc'
      · simp only [Channel.perform, Channel.call, Bool.false_eq_true, if_false, Channel.extract]
    | true =>
      obtain ⟨bytes, hb, hd⟩ := Wire.decodeRequest_act key hn hs
      rcases Channel.perform_read h.texts hb hd rfl with ⟨hk, f, hp⟩ | ⟨hk, heard, hp, hr⟩
      · refine .inl ⟨fun hserved => ?_, f, runOn_perform_channel hc hp⟩
        obtain ⟨e', hc', hk'⟩ := hserved c rfl
        rw [hc] at hc'
        cases hc'
        exact hk hk'
      · refine .inr ⟨?_, heard, runOn_perform_channel hc hp, hr⟩
        rintro c' ⟨⟩
        exact ⟨e, hc, hk⟩

end Link

/-- A reply with a reference can be written. -/
theorem Wire.encodeReply_ref (r : Ref) : ∃ output, Wire.encodeReply (.ok (.ref r)) = .ok output ∧
    output.length < 2 ^ 64 := by
  refine ⟨Wire.bytesOfNat32 0 ++ (Wire.bytesOfNat32 2 ++ Wire.bytesOfRef r), rfl, ?_⟩
  have h0 := Wire.length_bytesOfNat32_le 0
  have h2 := Wire.length_bytesOfNat32_le 2
  have hr := Wire.length_bytesOfRef_le r
  simp only [List.length_append]
  omega

namespace Host

/-- The object that a reference stands for in a session. -/
def meaning (h : Host) (l : Link) (key : SessionKey) (r : Ref) : Option ObjectIndex := do
  let slots ← h.slotsAt l key
  (resolveRef key slots r).toOption

variable {h h' : Host} {l : Link} {k : Nat} {i : Interp} {key : SessionKey} {r : Ref}

theorem slotsAt_eq_some {slots : List ObjectIndex} : h.slotsAt l key = some slots ↔
    ∃ k i, h.interpAt l = some k ∧ h.machine.interps[k]? = some i ∧
      i.sessions.get? key = some slots := by
  simp only [slotsAt, Option.bind_eq_some_iff]
  constructor
  · rintro ⟨k, hk, i, hi, hs⟩
    exact ⟨k, i, hk, hi, hs⟩
  · rintro ⟨k, i, hk, hi, hs⟩
    exact ⟨k, hk, i, hi, hs⟩

theorem meaning_eq_some {n : ObjectIndex} : h.meaning l key r = some n ↔
    ∃ slots, h.slotsAt l key = some slots ∧ resolveRef key slots r = .ok n := by
  simp only [meaning, Option.bind_eq_bind, Option.bind_eq_some_iff]
  constructor
  · rintro ⟨slots, hs, hr⟩
    cases hn : resolveRef key slots r with
    | error f =>
      rw [hn] at hr
      cases hr
    | ok n' =>
      rw [hn] at hr
      cases hr
      exact ⟨slots, hs, hn⟩
  · rintro ⟨slots, hs, hn⟩
    exact ⟨slots, hs, by rw [hn]; rfl⟩

/-- What a reference stands for is in reach of the interpreter of its session. -/
theorem reaches_of_meaning {n : ObjectIndex} (hk : h.interpAt l = some k)
    (hn : h.meaning l key r = some n) : h.machine.Reaches k n := by
  obtain ⟨slots, hs, hr⟩ := meaning_eq_some.1 hn
  obtain ⟨k', i, hk', hi, hs⟩ := slotsAt_eq_some.1 hs
  obtain rfl := Option.some.inj (hk.symm.trans hk')
  exact ⟨i, hi, .root (.slot hs (Engine.mem_of_resolveRef hr))⟩

/-- What a session did that set a member: the objects are those that its references stand for, and
nothing changed but the members of the namespace. -/
theorem setAttr_ok {target value : Ref} {name : String} {response : Response}
    (hk : h.interpAt l = some k) (hname : Text.Sized name)
    (hset : runOn h (l.perform key (.setAttr target name value)) = (.ok response, h')) :
    ∃ n m members, h.meaning l key target = some n ∧ h.meaning l key value = some m ∧
      h.machine.heap.get n = .space members ∧
      h' = { h with machine := { h.machine with
        heap := h.machine.heap.set n (.space (members.insert name m)) } } := by
  have hrelay := Link.perform_sized (h := h) (l := l) key hk
    (show (Op.setAttr target name value).nesting ≤ Value.maxDepth from Nat.zero_le _) hname
  rw [hset] at hrelay
  rcases hrelay with ⟨-, e, he⟩ | ⟨-, heard, hrun, hrelay⟩
  · cases he
  cases hrun
  -- What was heard as a success was one.
  obtain ⟨sent, hsent⟩ := hrelay.of_ok rfl
  cases hi : h.machine.interps[k]? with
  | none =>
    rw [Machine.perform, hi] at hsent
    cases hsent
  | some i =>
    rw [Machine.perform_eq hi] at hsent ⊢
    cases hr : (Engine.perform h.texts key (.setAttr target name value) ⟨h.machine.heap, i⟩).1 with
    | error f =>
      rw [hr] at hsent
      cases hsent
    | ok r =>
      obtain ⟨slots, n, m, members, hslots, hn, hm, hspace, he⟩ := Engine.perform_setAttr hr
      have hslotsAt : h.slotsAt l key = some slots := slotsAt_eq_some.2 ⟨k, i, hk, hi, hslots⟩
      refine ⟨n, m, members, meaning_eq_some.2 ⟨slots, hslotsAt, hn⟩,
        meaning_eq_some.2 ⟨slots, hslotsAt, hm⟩, hspace, ?_⟩
      rw [he, Machine.setInterp_self hi]

/-- A session that is served finds the member of a namespace. -/
theorem attr_ok {name : String} {slots : List ObjectIndex} {n m : ObjectIndex}
    {members : Table String ObjectIndex} (hserved : h.Served l key) (hname : Text.Sized name)
    (hslots : h.slotsAt l key = some slots) (hn : resolveRef key slots r = .ok n)
    (hspace : h.machine.heap.get n = .space members) (hm : members.get? name = some m) :
    ∃ h', runOn h (l.perform key (.attr r name)) =
        (.ok (.ref ⟨key, UInt32.ofNat slots.length⟩), h') ∧
      h'.slotsAt l key = some (slots ++ [m]) := by
  obtain ⟨k, i, hk, hi, hkey⟩ := slotsAt_eq_some.1 hslots
  have hperform : h.machine.perform h.texts k key (.attr r name) =
      (.ok (.ref ⟨key, UInt32.ofNat slots.length⟩), h.machine.setInterp k
        { i with sessions := i.sessions.insert key (slots ++ [m]) }) := by
    rw [Machine.perform_eq hi, Engine.perform_attr (e := ⟨h.machine.heap, i⟩) hkey hn hspace hm]
    rfl
  have hrelay := Link.perform_sized (h := h) (l := l) key hk
    (show (Op.attr r name).nesting ≤ Value.maxDepth from Nat.zero_le _) hname
  rcases hrelay with ⟨hn, -⟩ | ⟨-, heard, hrun, hrelay⟩
  · exact absurd hserved hn
  rw [hperform] at hrun hrelay
  obtain ⟨output, ho, hlen⟩ := Wire.encodeReply_ref ⟨key, UInt32.ofNat slots.length⟩
  obtain rfl := hrelay.ok _ output rfl ho hlen
  have hlt : k < h.machine.interps.length := (List.getElem?_eq_some_iff.1 hi).1
  refine ⟨_, hrun, slotsAt_eq_some.2 ⟨k, _, hk, List.getElem?_set_self hlt, ?_⟩⟩
  simp only [Table.get?_insert_self]

/-- A session that sets a member of a namespace, and any session that has the same namespace: it is on
the same interpreter, and what it finds under the name is the object that was set. -/
theorem setAttr_seen (ha : h.machine.Apart) {target value : Ref} {name : String}
    {response : Response} (hk : h.interpAt l = some k) (hname : Text.Sized name)
    (hset : runOn h (l.perform key (.setAttr target name value)) = (.ok response, h')) :
    ∃ n m, h.meaning l key target = some n ∧ h.meaning l key value = some m ∧
      ∀ l' key' r', h.Served l' key' → h.meaning l' key' r' = some n →
        h.interpAt l' = some k ∧
        ∃ slots h'', h.slotsAt l' key' = some slots ∧
          runOn h' (l'.perform key' (.attr r' name)) =
            (.ok (.ref ⟨key', UInt32.ofNat slots.length⟩), h'') ∧
          h''.slotsAt l' key' = some (slots ++ [m]) := by
  obtain ⟨n, m, members, hn, hm, hspace, he⟩ := setAttr_ok hk hname hset
  refine ⟨n, m, hn, hm, fun l' key' r' hserved hn' => ?_⟩
  obtain ⟨slots, hslots, hresolve⟩ := meaning_eq_some.1 hn'
  obtain ⟨k', i', hk', -, -⟩ := slotsAt_eq_some.1 hslots
  -- No other interpreter reaches the namespace.
  obtain rfl : k' = k := ha.apart k' k n (reaches_of_meaning hk' hn') (reaches_of_meaning hk hn)
  have hserved' : h'.Served l' key' := by
    rw [he]
    exact hserved
  have hslots' : h'.slotsAt l' key' = some slots := by
    rw [he]
    exact hslots
  have hlt : n < h.machine.heap.objects.length :=
    (List.getElem?_eq_some_iff.1 (Heap.get_eq_space hspace)).1
  have hspace' : h'.machine.heap.get n = .space (members.insert name m) := by
    rw [he]
    simp only [Heap.get, Heap.set, List.getElem?_set_self hlt, Option.getD_some]
  have hmember : (members.insert name m).get? name = some m := by
    rw [Table.get?_insert_self]
  obtain ⟨h'', hrun, hlast⟩ := attr_ok hserved' hname hslots' hresolve hspace' hmember
  exact ⟨hk', slots, h'', hslots, hrun, hlast⟩

end Host

end InstancePool
