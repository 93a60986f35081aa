import InstancePool.Proofs.Host.LinkUse

/-!
An operation on its way to an interpreter and the answer on its way back. Through a channel an
operation arrives as it was sent, unless it carries more bytes than any memory holds.
-/

namespace InstancePool

namespace Op

/-- Whether an operation has a written form of a few bytes, apart from the bytes of an object. -/
def plain : Op → Bool
  | .toValue _ | .isOwner _ | .serialize .. | .restore .. | .unload _ => true
  | _ => false

/-- How many bytes of an object an operation carries. -/
def cargo : Op → Nat
  | .restore _ data => data.length
  | _ => 0

/-- What an operation can arrive as. -/
inductive Arrives : Op → Op → Prop
  | same (op : Op) : Arrives op op
  | cut (id : ObjectId) (data data' : List UInt8) (h : 2 ^ 63 ≤ data.length) :
    Arrives (.restore id data) (.restore id data')

end Op

namespace Wire

theorem length_bytesOfRef_le (r : Ref) : (bytesOfRef r).length ≤ 15 := by
  have hk := length_bytesOfKey_le r.session
  have hs : (bytesOfUInt32 r.slot).length ≤ 5 := length_bytesOfNat32_le _
  rw [bytesOfRef, List.length_append]
  omega

theorem length_opBytes_le {depth : Nat} {o : Op} {content : List UInt8} (ho : o.plain = true)
    (h : opBytes depth o = .ok content) : content.length ≤ o.cargo + 40 := by
  -- Numbers take ten bytes at most, and nothing but an object's bytes has an unknown length.
  have hnat (n : Nat) : (bytesOfNat64 n).length ≤ 10 := length_varintBytes_le 9 n
  cases o with
  | toValue target =>
    obtain rfl := Except.ok.inj h
    have ht := length_bytesOfRef_le target
    omega
  | isOwner target =>
    obtain rfl := Except.ok.inj h
    have ht := length_bytesOfRef_le target
    omega
  | serialize receiver target =>
    obtain rfl := Except.ok.inj h
    have ht := length_bytesOfRef_le target
    have hr : (bytesOfOption bytesOfRef receiver).length ≤ 16 := by
      cases receiver with
      | none => exact Nat.le_add_left 1 15
      | some r => exact Nat.succ_le_succ (length_bytesOfRef_le r)
    rw [List.length_append]
    omega
  | restore id data =>
    obtain rfl := Except.ok.inj h
    have hi : (bytesOfId id).length ≤ 10 := hnat _
    have hd := hnat data.length
    simp only [bytesOfBytes, List.length_append, Op.cargo]
    omega
  | unload id =>
    obtain rfl := Except.ok.inj h
    have hi : (bytesOfId id).length ≤ 10 := hnat _
    omega
  | _ => cases ho

/-- An operation is read as what it can arrive as. -/
theorem arrives_of_decodeRequest {key : SessionKey} {o : Op} {bs : List UInt8} {r : Request}
    (ho : o.plain = true) (h : encodeRequest (.act key o) = .ok bs)
    (h' : decodeRequest bs = .ok r) : ∃ o', r = .act key o' ∧ o.Arrives o' := by
  simp only [encodeRequest, requestBytes] at h
  rcases hc : opBytes Value.maxDepth o with e | content
  · rw [hc] at h
    cases h
  · rw [hc] at h
    obtain rfl := Except.ok.inj h
    have hlen := length_opBytes_le ho hc
    by_cases hcargo : o.cargo < 2 ^ 63
    · -- All lengths are told in full, so the request is read back.
      have hn := length_bytesOfNat32_le (opIndex o)
      have hk := length_bytesOfKey_le key
      have hbytes : encodeRequest (.act key o) =
          .ok (bytesOfNat32 (opIndex o) ++ bytesOfKey key ++ content) := by
        simp only [encodeRequest, requestBytes, hc, Except.map]
      have hread := decodeRequest_encodeRequest hbytes
        (by simp only [List.length_append]; omega) []
      rw [List.append_nil, h'] at hread
      exact ⟨o, Except.ok.inj hread, .same o⟩
    · cases o with
      | restore id data =>
        -- Number, session and identifier come first, whatever becomes of the rest.
        obtain ⟨rest, hrun⟩ := decodeRequest_ok h'
        obtain rfl := Except.ok.inj hc
        rw [request_act] at hrun
        have hop : (op Value.maxDepth (opIndex (.restore id data))).Yields
            (fun o' => opIndex o' = 11) := yields_op _ _
        have hread := reads_objectId id
        have hrestore (bs' : List UInt8) :
            (Request.act key <$> op Value.maxDepth (opIndex (.restore id data)))
                (bytesOfId id ++ bs') =
              (Request.act key <$> ((fun data => Op.restore id data) <$> bytes)) bs' := by
          simp only [map_eq_pure_bind, opIndex, op, bind_assoc, pure_bind]
          rw [hread.first]
        rw [hrestore] at hrun
        have hyield : (Request.act key <$> ((fun data => Op.restore id data) <$> bytes)).Yields
            (fun r => ∃ data', r = .act key (.restore id data')) := by
          rw [← comp_map]
          exact Decoder.yields_map fun data' => ⟨data', rfl⟩
        obtain ⟨data', rfl⟩ := hyield _ _ _ hrun
        exact ⟨_, rfl, .cut id data data' (Nat.le_of_not_lt hcargo)⟩
      | _ => exact absurd (Nat.two_pow_pos 63) hcargo

end Wire

namespace Channel

/-- What a host hears of a reply. -/
def hear (name : String) (r : Reply) : Except Error Response :=
  match Wire.encodeReply r with
  | .ok output => interpret name .ok output
  | .error _ => interpret name .failed []

variable {source : TextSource}

theorem call_hear {request : Request} {bytes : List UInt8} {s : Machine × Endpoint}
    (hb : Wire.encodeRequest request = .ok bytes) :
    Channel.call (Endpoint.image source) request ⟨true, s⟩ =
      match Wire.decodeRequest bytes with
      | .ok r => (hear request.name (Endpoint.serve source r s).1,
          ⟨true, (Endpoint.serve source r s).2⟩)
      | .error cause => (hear request.name (.error ⟨.protocol, (WireError.decode cause).message⟩),
          ⟨true, s⟩) := by
  simp only [Channel.call, if_true, hb, Endpoint.image, Endpoint.dispatch]
  cases Wire.decodeRequest bytes with
  | error cause => rfl
  | ok r =>
    simp only [hear]
    cases Wire.encodeReply (Endpoint.serve source r s).1 <;> rfl

/-- A call leaves the image alone, or the image serves the request that it reads. -/
theorem call_cases (source : TextSource) (r : Request) (c : Channel (Machine × Endpoint)) :
    (call (Endpoint.image source) r c).2 = c ∨ ∃ bytes r', c.live = true ∧
      Wire.encodeRequest r = .ok bytes ∧ Wire.decodeRequest bytes = .ok r' ∧
      (call (Endpoint.image source) r c).2 = ⟨true, (Endpoint.serve source r' c.peer).2⟩ := by
  obtain ⟨live, s⟩ := c
  cases live with
  | false => exact .inl rfl
  | true =>
    cases hb : Wire.encodeRequest r with
    | error cause => exact .inl (by simp only [call, hb, if_true])
    | ok bytes =>
      rw [call_hear hb]
      cases hd : Wire.decodeRequest bytes with
      | error cause => exact .inl rfl
      | ok r' => exact .inr ⟨bytes, r', rfl, rfl, hd, rfl⟩

/-- A fault is never taken for a response. -/
theorem hear_error (name : String) (f : Fault) : ∃ e, hear name (.error f) = .error e := by
  have hreply (r : Reply)
      (hd : Wire.decodeReply (Wire.bytesOfNat32 1 ++ Wire.bytesOfFault f) = .ok r) :
      ∃ f', r = .error f' := by
    have hk : 1 < 2 ^ 32 := by decide
    unfold Wire.decodeReply Wire.Decoder.run at hd
    rw [Wire.reply, (Wire.reads_nat32 hk).first] at hd
    simp only [] at hd
    rcases hrun : (Except.error <$> Wire.fault : Wire.Decoder Reply) (Wire.bytesOfFault f)
      with cause | ⟨r', rest⟩
    · rw [hrun] at hd
      cases hd
    · rw [hrun] at hd
      cases hd
      exact Wire.Decoder.yields_map (P := fun r : Reply => ∃ f', r = .error f')
        (fun f' => ⟨f', rfl⟩) _ _ _ hrun
  have hencode : Wire.encodeReply (.error f) = .ok (Wire.bytesOfNat32 1 ++ Wire.bytesOfFault f) :=
    rfl
  simp only [hear, hencode, interpret, show Status.ok.isOk = true from rfl, if_true]
  rcases hd : Wire.decodeReply (Wire.bytesOfNat32 1 ++ Wire.bytesOfFault f) with cause | r
  · exact ⟨_, rfl⟩
  · obtain ⟨f', rfl⟩ := hreply r hd
    exact ⟨_, rfl⟩

theorem hear_ok (name : String) {r : Response} {output : List UInt8}
    (ho : Wire.encodeReply (.ok r) = .ok output) (hl : output.length < 2 ^ 64) :
    hear name (.ok r) = .ok r := by
  have hd := Wire.decodeReply_encodeReply ho hl []
  rw [List.append_nil] at hd
  simp only [hear, ho, interpret, show Status.ok.isOk = true from rfl, if_true, hd]

end Channel

/-- What an interpreter comes to and what is heard of it through a link: failures stay failures, and
answers that can be written pass as they are. -/
structure Relayed (sent heard : Except Error Response) : Prop where
  error : ∀ e, sent = .error e → ∃ e', heard = .error e'
  ok : ∀ r output, sent = .ok r → Wire.encodeReply (.ok r) = .ok output →
    output.length < 2 ^ 64 → heard = .ok r

theorem Relayed.refl (sent : Except Error Response) : Relayed sent sent where
  error e he := ⟨e, he⟩
  ok _ _ hr _ _ := hr

/-- What is heard as an answer was one. -/
theorem Relayed.of_ok {sent heard : Except Error Response} {r : Response} (hr : Relayed sent heard)
    (hh : heard = .ok r) : ∃ r', sent = .ok r' := by
  cases sent with
  | ok r' => exact ⟨r', rfl⟩
  | error e =>
    obtain ⟨e', he⟩ := hr.error e rfl
    rw [hh] at he
    cases he

/-- A session is served at the other end of a link. -/
def Host.Served (h : Host) (l : Link) (key : SessionKey) : Prop :=
  ∀ c, l = .channel c → ∃ e, h.channels[c]? = some ⟨true, .exported e⟩ ∧ key ∈ e.served

namespace Channel

variable {m : Machine} {e : Endpoint} {key : SessionKey} {op : Op}

/-- An operation that is read as `op'` is performed as that if its session is served. -/
theorem perform_read {op' : Op} {bytes : List UInt8} (source : TextSource)
    (hb : Wire.encodeRequest (.act key op) = .ok bytes)
    (hd : Wire.decodeRequest bytes = .ok (.act key op')) (ha : op'.answers = op.answers) :
    (key ∉ e.served ∧ ∃ f, Channel.perform (Endpoint.image source) key op ⟨true, (m, e)⟩ =
        (.error f, ⟨true, (m, e)⟩)) ∨
      key ∈ e.served ∧ ∃ heard,
        Channel.perform (Endpoint.image source) key op ⟨true, (m, e)⟩ =
          (heard, ⟨true, ((m.perform source e.interp key op').2, e)⟩) ∧
        Relayed (m.perform source e.interp key op').1 heard := by
  rw [Channel.perform, call_hear hb]
  simp only [hd]
  by_cases hk : key ∈ e.served
  · refine .inr ⟨hk, extract (Response.expect op.answers) (hear (Request.act key op).name
      ((m.perform source e.interp key op').1.mapError Error.toFault)), ?_, ?_⟩
    · simp only [Endpoint.serve, if_pos hk]
    cases hr : (m.perform source e.interp key op').1 with
    | error cause =>
      obtain ⟨f, hf⟩ := hear_error (Request.act key op).name cause.toFault
      simp only [Except.mapError_error, hf, extract]
      exact ⟨fun _ _ => ⟨f, rfl⟩, fun _ _ he => by cases he⟩
    | ok r =>
      refine ⟨fun _ he => (by cases he), fun r' output he hoe hl => ?_⟩
      cases he
      -- What was read answers with what the operation that was sent expects.
      have hkind : r.kind = op.answers := by
        cases hi : m.interps[e.interp]? with
        | none =>
          rw [Machine.perform, hi] at hr
          cases hr
        | some i => exact (Machine.perform_answers hi hr).trans ha
      simp only [Except.mapError_ok, hear_ok _ hoe hl, extract, Response.expect, if_pos hkind]
  · obtain ⟨f, hf⟩ := hear_error (Request.act key op).name (Failure.unknownSession key).fault
    refine .inl ⟨hk, f, ?_⟩
    simp only [Endpoint.serve, if_neg hk, hf, extract]

/-- An operation through a channel either fails before it arrives, or is performed there. -/
theorem perform_relayed (source : TextSource) (key : SessionKey) (op : Op)
    (ho : op.plain = true) :
    (¬ (key ∈ e.served ∧ op.cargo < 2 ^ 63) ∧
        ∃ f, Channel.perform (Endpoint.image source) key op ⟨true, (m, e)⟩ =
          (.error f, ⟨true, (m, e)⟩)) ∨
      key ∈ e.served ∧ ∃ op' heard, op.Arrives op' ∧
        Channel.perform (Endpoint.image source) key op ⟨true, (m, e)⟩ =
          (heard, ⟨true, ((m.perform source e.interp key op').2, e)⟩) ∧
        Relayed (m.perform source e.interp key op').1 heard := by
  obtain ⟨content, hc⟩ : ∃ content, Wire.opBytes Value.maxDepth op = .ok content := by
    refine Wire.opBytes_ok ?_
    cases op with
    | ofValue v => cases ho
    | _ => exact Nat.zero_le _
  have hb : Wire.encodeRequest (.act key op) = .ok (Wire.bytesOfNat32 (Wire.opIndex op) ++
      Wire.bytesOfKey key ++ content) := by
    simp only [Wire.encodeRequest, Wire.requestBytes, hc, Except.map]
  rcases hd : Wire.decodeRequest (Wire.bytesOfNat32 (Wire.opIndex op) ++ Wire.bytesOfKey key ++
    content) with cause | r
  · -- Only a request with too many bytes cannot be read.
    obtain ⟨f, hf⟩ := hear_error (Request.act key op).name ⟨.protocol, (WireError.decode cause).message⟩
    refine .inl ⟨?_, f, by simp only [Channel.perform, call_hear hb, hd, hf, extract]⟩
    rintro ⟨-, hcargo⟩
    have hlen := Wire.length_opBytes_le ho hc
    have hn := Wire.length_bytesOfNat32_le (Wire.opIndex op)
    have hk := Wire.length_bytesOfKey_le key
    have hread := Wire.decodeRequest_encodeRequest hb
      (by simp only [List.length_append]; omega) []
    rw [List.append_nil, hd] at hread
    cases hread
  · obtain ⟨op', rfl, harrives⟩ := Wire.arrives_of_decodeRequest ho hb hd
    have hanswers : op'.answers = op.answers := by cases harrives <;> rfl
    rcases perform_read source hb hd hanswers with ⟨hk, hf⟩ | ⟨hk, heard, hp, hr⟩
    · exact .inl ⟨fun h => hk h.1, hf⟩
    · exact .inr ⟨hk, op', heard, harrives, hp, hr⟩

end Channel

namespace Link

open HostM Host

variable {h : Host} {l : Link} {k : Nat} {key : SessionKey} {op : Op}

/-- What happens at the other end of a channel whose endpoint is as it was. -/
theorem runOn_perform_channel {c : Nat} {e : Endpoint} {m : Machine} {live : Bool}
    {heard : Except Error Response} (hc : h.channels[c]? = some ⟨live, .exported e⟩)
    (hp : Channel.perform (Endpoint.image h.texts) key op ⟨live, (h.machine, e)⟩ =
      (heard, ⟨live, (m, e)⟩)) :
    runOn h (perform key op (.channel c)) = (heard, { h with machine := m }) := by
  have hset : h.channels.set c ⟨live, .exported e⟩ = h.channels := by
    obtain ⟨hlt, he⟩ := List.getElem?_eq_some_iff.1 hc
    rw [← he, List.set_getElem_self]
  simp only [perform, onChannel, runOn_of, hc, hp, hset]

/-- An operation through a link that is in use either fails before it arrives, or is performed at the
interpreter to which the link leads; the channel is the same afterwards. -/
theorem perform_relayed (key : SessionKey) (op : Op) (hs : h.Serves l k) (ho : op.plain = true) :
    (¬ (h.Served l key ∧ op.cargo < 2 ^ 63) ∧ ∃ e, runOn h (l.perform key op) = (.error e, h)) ∨
      h.Served l key ∧ ∃ op' heard, op.Arrives op' ∧
        runOn h (l.perform key op) =
          (heard, { h with machine := (h.machine.perform h.texts k key op').2 }) ∧
        Relayed (h.machine.perform h.texts k key op').1 heard := by
  cases l with
  | direct n =>
    obtain rfl : n = k := Option.some.inj hs.interpAt
    exact .inr ⟨nofun, op, _, .same op, rfl, .refl _⟩
  | channel c =>
    obtain ⟨e, hc⟩ := hs.live c rfl
    obtain rfl : e.interp = k := Option.some.inj ((interpAt_channel hc).symm.trans hs.interpAt)
    rcases Channel.perform_relayed h.texts key op ho with
      ⟨hn, f, hp⟩ | ⟨hk, op', heard, ha, hp, hr⟩
    · refine .inl ⟨fun hserved => hn ⟨?_, hserved.2⟩, f, runOn_perform_channel hc hp⟩
      obtain ⟨e', hc', hk⟩ := hserved.1 c rfl
      rw [hc] at hc'
      cases hc'
      exact hk
    · refine .inr ⟨?_, op', heard, ha, runOn_perform_channel hc hp, hr⟩
      rintro c' ⟨⟩
      exact ⟨e, hc, hk⟩

end Link

end InstancePool
