import InstancePool.Proofs.Channel.OperationTransfer
import InstancePool.Proofs.Instance.Wiring

/-!
How objects are loaded for identifiers and dropped again, in one interpreter and through a link to it.
-/

namespace InstancePool

open HostM

theorem Table.erase_erase {κ ν : Type} [DecidableEq κ] (t : Table κ ν) (k : κ) :
    (t.erase k).erase k = t.erase k := by
  simp only [Table.erase, List.filter_filter, Bool.and_self]

/-- What is loaded before and after the object `n` was asked for: it was loaded before, or it was made
of the given bytes. -/
inductive Fetched (heap : Heap) (id : ObjectId) (data : List UInt8)
    (t : Table ObjectId ObjectIndex) : ObjectIndex → Table ObjectId ObjectIndex → Prop
  | kept (n : ObjectIndex) (hn : t.get? id = some n) : Fetched heap id data t n t
  | made (n : ObjectIndex) (v : Value) (hn : t.get? id = none)
    (hv : data.length < 2 ^ 63 → Wire.decodeValue data = .ok v)
    (ho : heap.objects[n]? = some (.value v)) : Fetched heap id data t n (t.insert id n)

theorem Fetched.of_arrives {id : ObjectId} {data : List UInt8} {op : Op}
    (ha : (Op.restore id data).Arrives op) :
    ∃ data', op = .restore id data' ∧
      ∀ heap t n t', Fetched heap id data' t n t' → Fetched heap id data t n t' := by
  cases ha with
  | same => exact ⟨data, rfl, fun _ _ _ _ hf => hf⟩
  | cut _ _ data' hlong =>
    refine ⟨data', rfl, fun heap t n t' hf => ?_⟩
    cases hf with
    | kept hn => exact .kept n hn
    | made v hn hv ho => exact .made n v hn (fun hl => absurd hl (Nat.not_lt.2 hlong)) ho

/-- Afterwards an object is loaded for the identifier, and nothing has changed for the others. -/
theorem Fetched.contains {heap : Heap} {id : ObjectId} {data : List UInt8}
    {t t' : Table ObjectId ObjectIndex} {o : ObjectIndex} (hf : Fetched heap id data t o t') :
    t'.contains id = true ∧ ∀ id', id' ≠ id → t'.contains id' = t.contains id' := by
  cases hf with
  | kept ho =>
    refine ⟨?_, fun _ _ => rfl⟩
    rw [Table.contains, ho]
    rfl
  | made v ho hv hobj =>
    refine ⟨?_, fun id' hne => ?_⟩
    · rw [Table.contains, Table.get?_insert_self]
      rfl
    · rw [Table.contains, Table.get?_insert_of_ne hne]
      rfl

namespace Machine

variable {source : TextSource} {m : Machine} {k : Nat} {i : Interp} {key : SessionKey}
  {id : ObjectId} {data : List UInt8}

theorem setInterp_self (hi : m.interps[k]? = some i) : m.setInterp k i = m := by
  obtain ⟨hlt, he⟩ := List.getElem?_eq_some_iff.1 hi
  rw [setInterp, ← he, List.set_getElem_self]

/-- Asking for an object by its identifier fails without a trace, or hands it out. -/
theorem restore_cases (source : TextSource) (key : SessionKey) (id : ObjectId) (data : List UInt8)
    (hi : m.interps[k]? = some i) :
    (∃ e, m.perform source k key (.restore id data) = (.error e, m)) ∨
      ∃ slots n m' i', i.sessions.get? key = some slots ∧
        m.perform source k key (.restore id data) =
          (.ok (.ref ⟨key, UInt32.ofNat slots.length⟩), m') ∧
        m'.interps[k]? = some i' ∧ i'.finalized = i.finalized ∧
        i'.sessions = i.sessions.insert key (slots ++ [n]) ∧
        Fetched m'.heap id data i.loaded n i'.loaded := by
  have hlt : k < m.interps.length := (List.getElem?_eq_some_iff.1 hi).1
  rw [perform_eq hi]
  have hp := Engine.perform_performed source key (.restore id data) ⟨m.heap, i⟩
  generalize Engine.perform source key (.restore id data) ⟨m.heap, i⟩ = x at hp
  cases hp with
  | unknown hk => exact .inl ⟨_, by rw [setInterp_self hi]; rfl⟩
  | failed f => exact .inl ⟨_, by rw [setInterp_self hi]; rfl⟩
  | @done _ slots x hk hd =>
    cases hd with
    | seen hkind hr => exact absurd hkind hr
    | handed n hans hl =>
      exact .inr ⟨slots, n, _, _, hk, rfl, List.getElem?_set_self hlt, rfl, rfl,
        .kept n (hl id data rfl)⟩
    | made v hans hl => exact absurd rfl (hl id data)
    | restored v hn hv =>
      exact .inr ⟨slots, _, _, _, hk, rfl, List.getElem?_set_self hlt, rfl, rfl,
        .made _ v hn (fun _ => hv) (Heap.alloc_get m.heap (.value v))⟩

/-- In an open session an object is dropped, if there is one. -/
theorem unload_ok (source : TextSource) (id : ObjectId) {slots : List ObjectIndex}
    (hi : m.interps[k]? = some i) (hk : i.sessions.get? key = some slots) :
    m.perform source k key (.unload id) =
      (.ok (.bool (i.loaded.contains id)),
        m.setInterp k { i with loaded := i.loaded.erase id }) := by
  rw [perform_eq hi]
  simp only [Engine.perform, hk, Engine.attempt, Engine.settle, Except.mapError_ok]
  rfl

end Machine

/-- The objects that a session of an interpreter handed out. -/
def Host.slotsAt (h : Host) (l : Link) (key : SessionKey) : Option (List ObjectIndex) :=
  (h.interpAt l).bind fun k => (h.machine.interps[k]?).bind fun i => i.sessions.get? key

namespace Host

variable {S T : Nat → Prop} {h h' : Host} {l : Link} {k : Nat} {i i' : Interp} {key : SessionKey}
  {home : InstanceId}

theorem slotsAt_eq (hl : h.interpAt l = some k) (hi : h.machine.interps[k]? = some i) :
    h.slotsAt l key = i.sessions.get? key := by
  simp only [slotsAt, hl, hi, Option.bind_some]

/-- One interpreter changed, and with it what its instance has loaded. -/
theorem Wired.store_after (hw : h.Wired) (hl : h.linkOf home = some l) (hk : h.Serves l k)
    (hs : h.Spares (· ≠ k) (fun _ => True) h') (hi : h'.machine.interps[k]? = some i')
    (hf : i'.finalized = false) :
    h'.Wired ∧ ∀ n, h'.store n = if n = home then some i'.loaded else h.store n := by
  have hown : h.seat home = some k := seat_eq.2 ⟨l, hl, hk.interpAt⟩
  have hlink (n : InstanceId) : h'.linkOf n = h.linkOf n := hs.toSameBooks.linkOf n
  have hseat (n : InstanceId) : h'.seat n = h.seat n := hw.seat_of_spares hs n
  -- A link to the interpreter still leads to it, and links to others do not notice.
  have hserves (n : InstanceId) (l' : Link) (hn : h.linkOf n = some l') :
      ∃ k', h'.Serves l' k' := by
    obtain ⟨k', hk'⟩ := hw.serves n l' hn
    by_cases he : k' = k
    · subst he
      refine ⟨k', hs.interpAt hk'.interpAt, fun c hc => ?_, ⟨i', hi, hf⟩⟩
      obtain ⟨e, he⟩ := hk'.live c hc
      obtain ⟨live, e', he', -, hlive⟩ := hs.channel c true e he
      obtain rfl := hlive trivial
      exact ⟨e', he'⟩
    · exact ⟨k', hk'.of_spares hs he fun _ _ => trivial⟩
  refine ⟨⟨fun n l' hn => hserves n l' ((hlink n).symm.trans hn), fun n n' k' hn hn' => ?_⟩,
    fun n => ?_⟩
  · rw [hseat] at hn hn'
    exact hw.apart n n' k' hn hn'
  · split
    · rename_i he
      subst he
      exact store_eq.2 ⟨k, i', (hseat n).trans hown, hi, rfl⟩
    · rename_i hne
      refine hw.store_of_spares hs fun k' hn' => ?_
      rintro rfl
      exact hne (hw.apart n home k' hn' hown)

end Host

namespace Link

open Host

variable {h : Host} {l : Link} {k : Nat} {i : Interp} {key : SessionKey} {id : ObjectId}
  {data : List UInt8}

/-- An operation spares all interpreters but the one to which the link leads. -/
theorem spares_others (hs : h.Serves l k) (key : SessionKey) (op : Op) :
    h.Spares (· ≠ k) (fun _ => True) (runOn h (l.perform key op)).2 :=
  spares_perform fun _ _ hk' hne => hne (Option.some.inj (hk'.symm.trans hs.interpAt))

theorem restore_cases (key : SessionKey) (id : ObjectId) (data : List UInt8) (hs : h.Serves l k)
    (hi : h.machine.interps[k]? = some i) :
    (∃ e, runOn h (l.perform key (.restore id data)) = (.error e, h)) ∨
      h.Served l key ∧ ∃ slots n i' m', i.sessions.get? key = some slots ∧
        runOn h (l.perform key (.restore id data)) =
          (.ok (.ref ⟨key, UInt32.ofNat slots.length⟩), { h with machine := m' }) ∧
        m'.interps[k]? = some i' ∧ i'.finalized = i.finalized ∧
        i'.sessions = i.sessions.insert key (slots ++ [n]) ∧
        Fetched m'.heap id data i.loaded n i'.loaded := by
  rcases perform_relayed key (.restore id data) hs rfl with
    ⟨-, e, he⟩ | ⟨hserved, op', heard, ha, hr, hrelay⟩
  · exact .inl ⟨e, he⟩
  · rw [hr]
    obtain ⟨data', rfl, hback⟩ := Fetched.of_arrives ha
    rcases Machine.restore_cases h.texts key id data' hi with
      ⟨e, hp⟩ | ⟨slots, n, m', i', hk, hp, hi', hf, hsess, hfetch⟩
    · obtain ⟨e', rfl⟩ := hrelay.error e (by rw [hp])
      exact .inl ⟨e', by rw [hp]⟩
    · have hlen : (Wire.bytesOfNat32 0 ++ (Wire.bytesOfNat32 2 ++
          Wire.bytesOfRef ⟨key, UInt32.ofNat slots.length⟩)).length < 2 ^ 64 := by
        have h0 := Wire.length_bytesOfNat32_le 0
        have h2 := Wire.length_bytesOfNat32_le 2
        have hr := Wire.length_bytesOfRef_le ⟨key, UInt32.ofNat slots.length⟩
        simp only [List.length_append]
        omega
      obtain rfl := hrelay.ok _ _ (by rw [hp]) rfl hlen
      exact .inr ⟨hserved, slots, n, i', m', hk, by rw [hp], hi', hf, hsess, hback _ _ _ _ hfetch⟩

/-- A session can be opened through a link that is in use. It is served, and has handed out nothing. -/
theorem openSession_ok (hs : h.Serves l k) :
    ∃ key h', runOn h l.openSession = (.ok key, h') ∧ h'.Serves l k ∧ h'.Served l key ∧
      h'.slotsAt l key = some [] := by
  obtain ⟨i, hi, hf⟩ := hs.interp
  have hlt : k < h.machine.interps.length := (List.getElem?_eq_some_iff.1 hi).1
  have hopen : h.machine.openSession k = (.ok ⟨h.machine.nextKey⟩,
      { h.machine.setInterp k { i with sessions := i.sessions.insert ⟨h.machine.nextKey⟩ [] } with
        nextKey := h.machine.nextKey + 1 }) := by
    simp only [Machine.openSession, hi, hf]
    rfl
  -- The new session is there with no slot taken, whichever way the link goes.
  have hnew : (h.machine.interps.set k
      { i with sessions := i.sessions.insert ⟨h.machine.nextKey⟩ [] })[k]? =
        some { i with sessions := i.sessions.insert ⟨h.machine.nextKey⟩ [] } :=
    List.getElem?_set_self hlt
  have hwithin := l.within_openSession (S := fun _ => True) (T := fun _ => True) h
  cases l with
  | direct n =>
    obtain rfl : n = k := Option.some.inj hs.interpAt
    have hrun : runOn h (openSession (.direct n)) = (.ok ⟨h.machine.nextKey⟩, { h with machine :=
        { h.machine.setInterp n { i with sessions := i.sessions.insert ⟨h.machine.nextKey⟩ [] } with
          nextKey := h.machine.nextKey + 1 } }) := by
      simp only [openSession, ofMachine, runOn_of, hopen]
    rw [hrun] at hwithin
    refine ⟨_, _, hrun, hs.of_spares hwithin trivial fun _ _ => trivial, fun _ hc => (by cases hc), ?_⟩
    rw [slotsAt_eq (k := n) rfl hnew, Table.get?_insert_self]
  | channel c =>
    obtain ⟨e, hc⟩ := hs.live c rfl
    obtain rfl : e.interp = k := Option.some.inj ((interpAt_channel hc).symm.trans hs.interpAt)
    have hclt : c < h.channels.length := (List.getElem?_eq_some_iff.1 hc).1
    have hrun : runOn h (openSession (.channel c)) = (.ok ⟨h.machine.nextKey⟩, { h with
        machine := (h.machine.openSession e.interp).2
        channels := h.channels.set c
          ⟨true, .exported { e with served := e.served ++ [⟨h.machine.nextKey⟩] }⟩ }) := by
      simp only [openSession, onChannel, runOn_of, hc, Channel.openSession_endpoint hi hf]
    have hset := List.getElem?_set_self (a :=
      (⟨true, .exported { e with served := e.served ++ [⟨h.machine.nextKey⟩] }⟩ : Channel Peer)) hclt
    rw [hrun, hopen] at hwithin
    rw [hopen] at hrun
    refine ⟨_, _, hrun, hs.of_spares hwithin trivial fun _ _ => trivial, ?_, ?_⟩
    · rintro c' ⟨⟩
      exact ⟨_, hset, List.mem_append_right _ List.mem_cons_self⟩
    · have hat := interpAt_channel (h := { h with
        machine := { h.machine.setInterp e.interp
            { i with sessions := i.sessions.insert ⟨h.machine.nextKey⟩ [] } with
          nextKey := h.machine.nextKey + 1 }
        channels := h.channels.set c
          ⟨true, .exported { e with served := e.served ++ [⟨h.machine.nextKey⟩] }⟩ }) hset
      rw [slotsAt_eq hat hnew, Table.get?_insert_self]

theorem closeSession_ok (key : SessionKey) (hs : h.Serves l k) :
    ∃ h', runOn h (l.closeSession key) = (.ok (), h') := by
  cases l with
  | direct n => exact ⟨_, rfl⟩
  | channel c =>
    obtain ⟨e, hc⟩ := hs.live c rfl
    exact ⟨_, by simp only [closeSession, onChannel, runOn_of, hc]; rfl⟩

/-- In a session that is served an object is dropped, if there is one. -/
theorem unload_ok (id : ObjectId) {slots : List ObjectIndex} (hs : h.Serves l k)
    (hserved : h.Served l key) (hk : h.slotsAt l key = some slots)
    (hi : h.machine.interps[k]? = some i) :
    ∃ b, runOn h (l.perform key (.unload id)) = (.ok (.bool b), { h with
      machine := h.machine.setInterp k { i with loaded := i.loaded.erase id } }) := by
  rw [slotsAt_eq hs.interpAt hi] at hk
  rcases perform_relayed key (.unload id) hs rfl with
    ⟨hn, -⟩ | ⟨-, op', heard, ha, hr, hrelay⟩
  · exact absurd ⟨hserved, Nat.two_pow_pos 63⟩ hn
  · cases ha
    have hp := Machine.unload_ok h.texts id hi hk
    obtain rfl := hrelay.ok (.bool (i.loaded.contains id)) _ (by rw [hp]) rfl (by
      cases i.loaded.contains id <;> decide)
    exact ⟨_, by rw [hr, hp]⟩

end Link

end InstancePool
