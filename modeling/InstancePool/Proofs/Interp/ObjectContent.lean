import InstancePool.Proofs.Replica.StoreEffects

/-!
What sessions tell about the objects they handed out. To ask for the content of an object or for its
written form changes nothing, and the two agree.
-/

namespace InstancePool

open HostM

/-- Whether an operation only looks at objects. -/
def Op.looks : Op → Bool
  | .toValue _ | .isOwner _ | .serialize .. => true
  | _ => false

theorem Op.Arrives.eq_of_looks {op op' : Op} (ha : op.Arrives op') (ho : op.looks = true) :
    op' = op := by
  cases ha with
  | same => rfl
  | cut => cases ho

theorem Op.plain_of_looks {op : Op} (ho : op.looks = true) : op.plain = true := by
  cases op with
  | toValue | isOwner | serialize => rfl
  | _ => cases ho

theorem Op.cargo_of_looks {op : Op} (ho : op.looks = true) : op.cargo < 2 ^ 63 := by
  cases op with
  | toValue | isOwner | serialize => exact Nat.two_pow_pos 63
  | _ => cases ho

theorem Op.answers_of_looks {op : Op} (ho : op.looks = true) : op.answers ≠ .ref := by
  cases op with
  | toValue | isOwner | serialize => exact nofun
  | _ => cases ho

namespace Wire

/-- An answer with a value, or with its written form, fits in a memory if the written form does. -/
theorem encodeReply_value {v : Value} {bs : List UInt8} (hv : encodeValue v = .ok bs)
    (hl : bs.length < 2 ^ 63) :
    ∃ output, encodeReply (.ok (.value v)) = .ok output ∧ output.length < 2 ^ 64 := by
  have hcontent : valueBytes Value.maxDepth v = .ok bs := hv
  refine ⟨bytesOfNat32 0 ++ (bytesOfNat32 3 ++ bs), ?_, ?_⟩
  · simp only [encodeReply, replyBytes, responseBytes, hcontent, Except.map]
  · have h0 := length_bytesOfNat32_le 0
    have h3 := length_bytesOfNat32_le 3
    simp only [List.length_append]
    omega

theorem encodeReply_bytes {data : List UInt8} (hl : data.length < 2 ^ 63) :
    ∃ output, encodeReply (.ok (.bytes data)) = .ok output ∧ output.length < 2 ^ 64 := by
  refine ⟨bytesOfNat32 0 ++ (bytesOfNat32 5 ++ bytesOfBytes data), rfl, ?_⟩
  have h0 := length_bytesOfNat32_le 0
  have h5 := length_bytesOfNat32_le 5
  have hn : (bytesOfNat64 data.length).length ≤ 10 := length_varintBytes_le 9 _
  simp only [bytesOfBytes, List.length_append]
  omega

end Wire

namespace Machine

variable {source : TextSource} {m : Machine} {k : Nat} {key : SessionKey} {op : Op}

/-- The content of the object that a reference stands for in a session of an interpreter. -/
def contentOf (m : Machine) (k : Nat) (key : SessionKey) (r : Ref) : Option Value := do
  let i ← m.interps[k]?
  let slots ← i.sessions.get? key
  let n ← (resolveRef key slots r).toOption
  (m.heap.value n).toOption

theorem perform_looks (source : TextSource) (k : Nat) (key : SessionKey) (ho : op.looks = true) :
    (m.perform source k key op).2 = m := by
  cases hi : m.interps[k]? with
  | none => simp only [perform, hi]
  | some i =>
    rw [perform_eq hi]
    have hp := Engine.perform_performed source key op ⟨m.heap, i⟩
    generalize Engine.perform source key op ⟨m.heap, i⟩ = x at hp
    -- Whatever it comes to, the engine is left as it was.
    have hsame : x.2 = ⟨m.heap, i⟩ := by
      cases hp with
      | unknown | failed => rfl
      | missed | found => cases ho
      | done hk hd =>
        cases hd with
        | seen hkind hr => rfl
        | handed n hans hl => exact absurd hans (Op.answers_of_looks ho)
        | made v hans hl => exact absurd hans (Op.answers_of_looks ho)
        | bound | restored | unloaded => cases ho
    rw [hsame]
    exact setInterp_self hi

theorem answer_of_looks (source : TextSource) (k : Nat) (key : SessionKey) (ho : op.looks = true) :
    (m.perform source k key op).1.toOption = (do
      let i ← m.interps[k]?
      let slots ← i.sessions.get? key
      let x ← ((⟨m.heap, i⟩ : Engine).attempt key slots op).toOption
      some x.1) := by
  cases hi : m.interps[k]? with
  | none =>
    simp only [perform, hi]
    rfl
  | some i =>
    rw [perform_eq hi]
    cases hk : i.sessions.get? key with
    | none =>
      simp only [Engine.perform, Option.bind_eq_bind, Option.bind_some, hk]
      rfl
    | some slots =>
      have hperform : Engine.perform source key op ⟨m.heap, i⟩ =
          (⟨m.heap, i⟩ : Engine).settle ((⟨m.heap, i⟩ : Engine).attempt key slots op) := by
        cases op with
        | global => cases ho
        | _ => simp only [Engine.perform, hk]
      rw [hperform]
      simp only [Option.bind_eq_bind, Option.bind_some, hk]
      cases (⟨m.heap, i⟩ : Engine).attempt key slots op <;> rfl

/-- To ask for the content of an object brings it to light. -/
theorem perform_toValue (source : TextSource) (k : Nat) (key : SessionKey) (r : Ref) :
    (m.perform source k key (.toValue r)).1.toOption = (m.contentOf k key r).map .value := by
  rw [answer_of_looks source k key rfl]
  simp only [Engine.attempt, contentOf, Except.toOption_bind, Option.bind_eq_bind, Option.bind_assoc,
    Function.comp_def, Option.map_eq_bind]
  rfl

/-- To ask for the written form of an object brings that of its content. -/
theorem perform_serialize (source : TextSource) (k : Nat) (key : SessionKey) (receiver : Option Ref)
    (r : Ref) : (m.perform source k key (.serialize receiver r)).1.toOption =
      (m.contentOf k key r).bind fun v => (Wire.encodeValue v).toOption.map .bytes := by
  rw [answer_of_looks source k key rfl]
  simp only [Engine.attempt, contentOf, Except.toOption_bind, Option.bind_eq_bind, Option.bind_assoc]
  congr 1
  funext i
  congr 1
  funext slots
  congr 1
  funext n
  rw [Heap.value]
  cases m.heap.get n with
  | value v =>
    simp only []
    cases hv : Wire.encodeValue v with
    | error cause => simp only [Except.toOption, Option.bind_some, hv]; rfl
    | ok data => simp only [Except.toOption, Option.bind_some, hv]; rfl
  | builtin | space => rfl

end Machine

namespace Link

open Host

variable {h : Host} {l : Link} {k : Nat}

/-- To look at an object through a link changes nothing on this side either. In a session that is
served, one hears what there is to hear. -/
theorem perform_looks (key : SessionKey) (op : Op) (hs : h.Serves l k) (ho : op.looks = true) :
    ∃ heard, runOn h (l.perform key op) = (heard, h) ∧
      (¬ h.Served l key ∧ (∃ e, heard = .error e) ∨
        Relayed (h.machine.perform h.texts k key op).1 heard) := by
  rcases perform_relayed key op hs (Op.plain_of_looks ho) with
    ⟨hn, e, he⟩ | ⟨-, op', heard, ha, hr, hrelay⟩
  · refine ⟨.error e, he, .inl ⟨fun hserved => ?_, e, rfl⟩⟩
    exact hn ⟨hserved, Op.cargo_of_looks ho⟩
  · obtain rfl := ha.eq_of_looks ho
    rw [Machine.perform_looks h.texts k key ho] at hr
    exact ⟨heard, hr, .inr hrelay⟩

end Link

namespace Host

variable {h h' : Host} {s : SessionId} {session : Session} {k : Nat} {r : Ref} {v : Value}
  {data : List UInt8}

/-- The content of the object that a reference stands for in a session. -/
def contentOf (h : Host) (s : SessionId) (r : Ref) : Option Value := do
  let session ← h.sessions.get? s
  let k ← h.interpAt session.link
  h.machine.contentOf k session.key r

theorem contentOf_eq (hopen : h.sessions.get? s = some session) (hs : h.Serves session.link k) :
    h.contentOf s r = h.machine.contentOf k session.key r := by
  simp only [contentOf, hopen, hs.interpAt, Option.bind_eq_bind, Option.bind_some]

/-- To look at an object in a session leaves the host as it is. -/
theorem looks_rests (hopen : h.sessions.get? s = some session) (hs : h.Serves session.link k)
    {op : Op} (ho : op.looks = true) {α : Type} (f : Response → Except Error α) :
    (runOn h (perform s op >>= fun a => settle (f a))).2 = h := by
  obtain ⟨heard, hr, -⟩ := Link.perform_looks session.key op hs ho
  rw [← runOn_perform hopen] at hr
  rw [runOn_bind, hr]
  cases heard <;> rfl

/-- The object that was handed out last has the last slot, as long as 32 bits are enough for it. -/
theorem contentOf_last (hopen : h.sessions.get? s = some session) (hs : h.Serves session.link k)
    {slots : List ObjectIndex} {n : ObjectIndex}
    (hslots : h.slotsAt session.link session.key = some (slots ++ [n]))
    (hlen : slots.length < 2 ^ 32) (hobj : h.machine.heap.objects[n]? = some (.value v)) :
    h.contentOf s ⟨session.key, UInt32.ofNat slots.length⟩ = some v := by
  obtain ⟨i, hi, -⟩ := hs.interp
  rw [slotsAt_eq hs.interpAt hi] at hslots
  have hslot : (UInt32.ofNat slots.length).toNat = slots.length := UInt32.toNat_ofNat_of_lt' hlen
  have hlast : (slots ++ [n])[slots.length]? = some n := List.getElem?_concat_length
  have hresolve : resolveRef session.key (slots ++ [n])
      ⟨session.key, UInt32.ofNat slots.length⟩ = .ok n := by
    simp only [resolveRef, hslot, hlast, ne_eq, not_true_eq_false, if_false]
  have hvalue : h.machine.heap.value n = .ok v := by
    simp only [Heap.value, Heap.get, hobj, Option.getD_some]
  rw [contentOf_eq hopen hs]
  simp only [Machine.contentOf, hi, hslots, hresolve, hvalue, Option.bind_eq_bind, Option.bind_some,
    Except.toOption]

/-- If an object has a content that can be written, then that is what one is told when one asks for it,
provided that the session is served. -/
theorem performValue_cases (hopen : h.sessions.get? s = some session) (hs : h.Serves session.link k)
    (hv : h.contentOf s r = some v) (hdata : Wire.encodeValue v = .ok data)
    (hl : data.length < 2 ^ 63) :
    ¬ h.Served session.link session.key ∧
        (∃ e, runOn h (performValue s (.toValue r)) = (.error e, h)) ∨
      runOn h (performValue s (.toValue r)) = (.ok v, h) := by
  obtain ⟨heard, hr, hcases⟩ := Link.perform_looks session.key (.toValue r) hs rfl
  rw [← runOn_perform hopen] at hr
  rcases hcases with ⟨hn, e, rfl⟩ | hrelay
  · exact .inl ⟨hn, e, by rw [performValue, runOn_bind_error hr]⟩
  · have hanswer := Machine.perform_toValue h.texts k session.key r (m := h.machine)
    rw [← contentOf_eq hopen hs, hv] at hanswer
    have hsent : (h.machine.perform h.texts k session.key (.toValue r)).1 = .ok (.value v) := by
      cases hsent : (h.machine.perform h.texts k session.key (.toValue r)).1 with
      | error e =>
        rw [hsent] at hanswer
        cases hanswer
      | ok answer =>
        rw [hsent] at hanswer
        cases hanswer
        rfl
    obtain ⟨output, ho, hlen⟩ := Wire.encodeReply_value hdata hl
    obtain rfl := hrelay.ok _ output hsent ho hlen
    refine .inr ?_
    rw [performValue, runOn_bind_ok hr]
    rfl

/-- If the written form of an object is told, then it is that of its content. -/
theorem performBytes_serialize (hopen : h.sessions.get? s = some session)
    (hs : h.Serves session.link k) {receiver : Option Ref}
    (hfits : ∀ v, h.contentOf s r = some v → Wire.Addressable (Wire.encodeValue v))
    (hr : runOn h (performBytes s (.serialize receiver r)) = (.ok data, h')) :
    ∃ v, h.contentOf s r = some v ∧ Wire.encodeValue v = .ok data ∧ data.length < 2 ^ 63 := by
  obtain ⟨heard, hperform, hcases⟩ := Link.perform_looks session.key (.serialize receiver r) hs rfl
  rw [← runOn_perform hopen] at hperform
  cases heard with
  | error e =>
    rw [performBytes, runOn_bind_error hperform] at hr
    cases hr
  | ok answer =>
    have hrelay := hcases.resolve_left fun hn => by
      obtain ⟨-, e, he⟩ := hn
      cases he
    obtain ⟨sent, hsent⟩ := hrelay.of_ok rfl
    have hanswer := Machine.perform_serialize h.texts k session.key receiver r (m := h.machine)
    rw [hsent, ← contentOf_eq hopen hs] at hanswer
    obtain ⟨v, hv, hbytes⟩ := Option.bind_eq_some_iff.1 hanswer.symm
    obtain ⟨written, hw, rfl⟩ := Option.map_eq_some_iff.1 hbytes
    have hdata : Wire.encodeValue v = .ok written := by
      cases henc : Wire.encodeValue v with
      | error cause =>
        rw [henc] at hw
        cases hw
      | ok data =>
        rw [henc] at hw
        cases hw
        rfl
    have hlen := hfits v hv
    rw [hdata] at hlen
    -- The bytes are few enough to arrive as they are.
    obtain ⟨output, ho, hshort⟩ := Wire.encodeReply_bytes hlen
    obtain rfl := Except.ok.inj (hrelay.ok _ output hsent ho hshort)
    rw [performBytes, runOn_bind_ok hperform] at hr
    cases hr
    exact ⟨v, hv, hdata, hlen⟩

end Host

end InstancePool
