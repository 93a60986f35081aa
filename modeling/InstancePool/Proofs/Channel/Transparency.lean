import InstancePool.Host.Basic
import InstancePool.Proofs.Interp.Operations
import InstancePool.Proofs.Wire.RoundTrip

/-!
A channel to an endpoint. What the interpreter behind the endpoint does on a request, and what it
answers, is the same as without the boundary, as long as the messages have written forms.
-/

namespace InstancePool

/-- What a host takes a reply for: faults pass as they are. -/
def Channel.answerOf (r : Reply) : Except Error Response := r.mapError .runtime

namespace Machine

variable {source : TextSource} {m : Machine} {n : Nat} {i : Interp} {key : SessionKey} {op : Op}

/-- Where one interpreter is replaced, what holds between it and the new one, and between each and itself,
holds throughout. -/
theorem interps_set {m' : Machine} {i' : Interp} {P : Nat → Interp → Interp → Prop}
    (hi : m.interps[n]? = some i) (hm : m'.interps = m.interps.set n i') (hP : P n i i')
    (hrefl : ∀ k j, P k j j) (k : Nat) (j : Interp) (hj : m.interps[k]? = some j) :
    ∃ j', m'.interps[k]? = some j' ∧ P k j j' := by
  rw [hm]
  by_cases hn : n = k
  · subst hn
    obtain rfl := Option.some.inj (hi.symm.trans hj)
    exact ⟨i', List.getElem?_set_self (List.getElem?_eq_some_iff.1 hi).1, hP⟩
  · exact ⟨j, (List.getElem?_set_ne hn).trans hj, hrefl k j⟩

theorem perform_eq (hi : m.interps[n]? = some i) :
    m.perform source n key op =
      ((Engine.perform source key op ⟨m.heap, i⟩).1.mapError fun f => .runtime f.fault,
        { m.setInterp n (Engine.perform source key op ⟨m.heap, i⟩).2.interp with
          heap := (Engine.perform source key op ⟨m.heap, i⟩).2.heap }) := by
  simp only [Machine.perform, hi]

theorem perform_answer (hi : m.interps[n]? = some i) :
    Channel.answerOf ((m.perform source n key op).1.mapError Error.toFault) =
      (m.perform source n key op).1 := by
  rw [perform_eq hi]
  cases (Engine.perform source key op ⟨m.heap, i⟩).1 <;> rfl

theorem perform_answers (hi : m.interps[n]? = some i) {r : Response}
    (h : (m.perform source n key op).1 = .ok r) : r.kind = op.answers := by
  rw [perform_eq hi] at h
  cases hr : (Engine.perform source key op ⟨m.heap, i⟩).1 with
  | error f => rw [hr] at h; cases h
  | ok r' =>
    rw [hr] at h
    have hr' : r' = r := Except.ok.inj h
    exact Engine.perform_answers (hr' ▸ hr)

end Machine

namespace Wire

theorem length_varintBytes_le (more n : Nat) : (varintBytes more n).length ≤ more + 1 := by
  induction more generalizing n with
  | zero => exact Nat.le_refl 1
  | succ more ih =>
    unfold varintBytes
    split
    · rw [List.length_singleton]; omega
    · rw [List.length_cons]
      have := ih (n / 128)
      omega

theorem length_bytesOfKey_le (k : SessionKey) : (bytesOfKey k).length ≤ 10 :=
  length_varintBytes_le 9 _

theorem length_bytesOfNat32_le (n : Nat) : (bytesOfNat32 n).length ≤ 5 :=
  length_varintBytes_le 4 n

/-- The written form of an operation's request, which can be addressed if its parts can. -/
theorem encodeRequest_act {op : Op} (key : SessionKey) (hn : op.nesting ≤ Value.maxDepth)
    (ha : Addressable (opBytes Value.maxDepth op)) :
    ∃ bytes, encodeRequest (.act key op) = .ok bytes ∧ bytes.length < 2 ^ 64 := by
  obtain ⟨content, hc⟩ := opBytes_ok hn
  rw [hc] at ha
  refine ⟨bytesOfNat32 (opIndex op) ++ bytesOfKey key ++ content, ?_, ?_⟩
  · simp only [encodeRequest, requestBytes, hc, Except.map]
  · have h1 := length_bytesOfNat32_le (opIndex op)
    have h2 := length_bytesOfKey_le key
    have h3 : content.length < 2 ^ 63 := ha
    simp only [List.length_append]
    omega

end Wire

namespace Channel

variable {source : TextSource} {m : Machine} {e : Endpoint} {i : Interp} {key : SessionKey}

/-- A call to an endpoint is the request served and its reply read, if both have written forms. -/
theorem call_endpoint {request : Request} {s : Machine × Endpoint} {bytes output : List UInt8}
    (hb : Wire.encodeRequest request = .ok bytes) (hbl : bytes.length < 2 ^ 64)
    (ho : Wire.encodeReply (Endpoint.serve source request s).1 = .ok output)
    (hol : output.length < 2 ^ 64) :
    Channel.call (Endpoint.image source) request ⟨true, s⟩ =
      (answerOf (Endpoint.serve source request s).1, ⟨true, (Endpoint.serve source request s).2⟩) := by
  have hd := Wire.decodeRequest_encodeRequest hb hbl []
  have hr := Wire.decodeReply_encodeReply ho hol []
  rw [List.append_nil] at hd hr
  simp only [Channel.call, if_true, hb, Endpoint.image, Endpoint.dispatch, hd, ho]
  simp only [interpret, Buffer.ofBytes, Buffer.bytes, Option.getD_some, hr]
  cases (Endpoint.serve source request s).1 <;> rfl

theorem openSession_endpoint (hi : m.interps[e.interp]? = some i) (hf : i.finalized = false) :
    Channel.openSession (Endpoint.image source) ⟨true, (m, e)⟩ =
      (.ok ⟨m.nextKey⟩, ⟨true, ((m.openSession e.interp).2,
        { e with served := e.served ++ [⟨m.nextKey⟩] })⟩) := by
  have hs : Endpoint.serve source .openSession (m, e) = (.ok (.session ⟨m.nextKey⟩),
      ((m.openSession e.interp).2, { e with served := e.served ++ [⟨m.nextKey⟩] })) := by
    simp only [Endpoint.serve, Machine.openSession, hi, hf]
    rfl
  have hlen : (Wire.bytesOfNat32 0 ++ (Wire.bytesOfNat32 1 ++
      Wire.bytesOfKey ⟨m.nextKey⟩)).length < 2 ^ 64 := by
    have h1 := Wire.length_bytesOfNat32_le 0
    have h2 := Wire.length_bytesOfNat32_le 1
    have h3 := Wire.length_bytesOfKey_le ⟨m.nextKey⟩
    simp only [List.length_append]
    omega
  have ho : Wire.encodeReply (Endpoint.serve source .openSession (m, e)).1 =
      .ok (Wire.bytesOfNat32 0 ++ (Wire.bytesOfNat32 1 ++ Wire.bytesOfKey ⟨m.nextKey⟩)) := by
    rw [hs]
    rfl
  have hb : Wire.encodeRequest .openSession = .ok (Wire.bytesOfNat32 0) := rfl
  simp only [Channel.openSession, call_endpoint hb (by decide) ho hlen, hs]
  rfl

theorem closeSession_endpoint (hk : key ∈ e.served) :
    Channel.closeSession (Endpoint.image source) key ⟨true, (m, e)⟩ =
      ⟨true, (m.closeSession e.interp key, { e with served := e.served.erase key })⟩ := by
  have hs : Endpoint.serve source (.closeSession key) (m, e) =
      (.ok .unit, (m.closeSession e.interp key, { e with served := e.served.erase key })) := by
    simp only [Endpoint.serve, if_pos hk]
  have hlen : (Wire.bytesOfNat32 1 ++ Wire.bytesOfKey key).length < 2 ^ 64 := by
    have h1 := Wire.length_bytesOfNat32_le 1
    have h2 := Wire.length_bytesOfKey_le key
    rw [List.length_append]
    omega
  have ho : Wire.encodeReply (Endpoint.serve source (.closeSession key) (m, e)).1 =
      .ok (Wire.bytesOfNat32 0 ++ Wire.bytesOfNat32 0) := by
    rw [hs]
    rfl
  simp only [Channel.closeSession, call_endpoint rfl hlen ho (by decide), hs]

/-- An operation across the boundary is the operation itself. -/
theorem perform_endpoint {op : Op} (hi : m.interps[e.interp]? = some i) (hk : key ∈ e.served)
    (hn : op.nesting ≤ Value.maxDepth) (ha : Wire.Addressable (Wire.opBytes Value.maxDepth op))
    (hrn : ∀ r, (m.perform source e.interp key op).1 = .ok r → r.nesting ≤ Value.maxDepth)
    (hra : Wire.Addressable
      (Wire.encodeReply ((m.perform source e.interp key op).1.mapError Error.toFault))) :
    Channel.perform (Endpoint.image source) key op ⟨true, (m, e)⟩ =
      ((m.perform source e.interp key op).1,
        ⟨true, ((m.perform source e.interp key op).2, e)⟩) := by
  obtain ⟨bytes, hb, hbl⟩ := Wire.encodeRequest_act key hn ha
  have hs : Endpoint.serve source (.act key op) (m, e) =
      ((m.perform source e.interp key op).1.mapError Error.toFault,
        ((m.perform source e.interp key op).2, e)) := by
    simp only [Endpoint.serve, if_pos hk]
  -- The reply can be written, and its length be told.
  have ho : ∃ output, Wire.encodeReply (Endpoint.serve source (.act key op) (m, e)).1 = .ok output ∧
      output.length < 2 ^ 64 := by
    rw [hs]
    cases hr : (m.perform source e.interp key op).1 with
    | error cause =>
      rw [hr] at hra
      exact ⟨_, rfl, Nat.lt_trans hra (by decide)⟩
    | ok r =>
      rw [hr] at hra
      obtain ⟨output, ho⟩ := Wire.encodeReply_ok (hrn r hr)
      simp only [Except.mapError_ok, ho] at hra ⊢
      exact ⟨output, rfl, Nat.lt_trans hra (by decide)⟩
  obtain ⟨output, ho, hol⟩ := ho
  -- So it comes back as it was, and is of the kind that one expects.
  simp only [Channel.perform, call_endpoint hb hbl ho hol, hs, Machine.perform_answer hi]
  cases hr : (m.perform source e.interp key op).1 with
  | error cause => rfl
  | ok r =>
    have hkind := Machine.perform_answers hi hr
    simp only [extract, Response.expect, if_pos hkind]
    rfl

end Channel

end InstancePool
