import InstancePool.Proofs.Interp.ObjectContent
import Mathlib.Data.Nat.Digits.Defs

/-!
An endpoint answers all bytes. There is no reply only where one asks for a value that is nested too deep
to be written, and whatever is not understood, or names a session that is not there, leaves everything as
it is.
-/

namespace InstancePool

namespace Text

/-- A character takes four bytes at most. -/
theorem length_utf8Bytes_le (s : String) : (utf8Bytes s).length ≤ 4 * s.length := by
  have hchars (cs : List Char) : (cs.flatMap String.utf8EncodeChar).length ≤ 4 * cs.length := by
    induction cs with
    | nil => exact Nat.le_refl 0
    | cons c cs ih =>
      have hc : (String.utf8EncodeChar c).length ≤ 4 := by
        rw [String.length_utf8EncodeChar]
        exact Char.utf8Size_le_four c
      rw [List.flatMap_cons, List.length_append, List.length_cons]
      omega
  rw [utf8Bytes_eq_flatMap, ← String.length_toList]
  exact hchars s.toList

theorem sized_of_length {s : String} (h : s.length < 2 ^ 62) : Sized s := by
  have := length_utf8Bytes_le s
  unfold Sized
  omega

/-- A number of 64 bits has twenty digits at most. -/
theorem length_decimal_le {n : Nat} (h : n < 2 ^ 64) : (toString n).length ≤ 20 :=
  Nat.repr_length n 20 (by decide) (Nat.lt_trans h (by decide))

end Text

theorem SessionKey.length_display_le (k : SessionKey) : k.display.length ≤ 28 := by
  have hn := Text.length_decimal_le k.number.toNat_lt
  have hs : "session-".length = 8 := rfl
  rw [display, String.length_append]
  omega

theorem Ref.length_display_le (r : Ref) : r.display.length ≤ 49 := by
  have hk := SessionKey.length_display_le r.session
  have hslot : r.slot.toNat < 2 ^ 64 := Nat.lt_trans r.slot.toNat_lt (by decide)
  have hn := Text.length_decimal_le hslot
  have hs : "#".length = 1 := rfl
  simp only [display, String.length_append]
  omega

/-- The faults about sessions and references have short texts. -/
theorem Failure.sized_unknownSession (key : SessionKey) :
    Text.Sized (Failure.unknownSession key).fault.message := by
  have hk := SessionKey.length_display_le key
  have hlen : ("unknown " ++ key.display).length ≤ 36 := by
    have hs : "unknown ".length = 8 := rfl
    rw [String.length_append]
    omega
  exact Text.sized_of_length (Nat.lt_of_le_of_lt hlen (by decide))

theorem WireError.sized_decode (cause : Wire.DecodeError) :
    Text.Sized (WireError.decode cause).message := by
  cases cause <;> decide

namespace Wire

theorem itemsBytes_mem {depth : Nat} {v : Value} {vs : List Value} {bs : List UInt8}
    (h : itemsBytes depth vs = .ok bs) (hv : v ∈ vs) : ∃ cs, valueBytes depth v = .ok cs := by
  induction vs generalizing bs with
  | nil => cases hv
  | cons w vs ih =>
    obtain ⟨first, rest, hw, hs, -⟩ := itemsBytes_cons h
    rcases List.mem_cons.1 hv with rfl | hv
    · exact ⟨first, hw⟩
    · exact ih hs hv

theorem depthList_le {depth : Nat} {vs : List Value} (h : ∀ v ∈ vs, v.depth ≤ depth) :
    Value.depthList vs ≤ depth := by
  induction vs with
  | nil => exact Nat.zero_le depth
  | cons v vs ih =>
    rw [Value.depthList]
    exact Nat.max_le.2 ⟨h v List.mem_cons_self, ih fun w hw => h w (List.mem_cons_of_mem v hw)⟩

/-- Only values that are nested no deeper than allowed have a written form. -/
theorem depth_le_of_valueBytes {depth : Nat} {v : Value} {bs : List UInt8}
    (h : valueBytes depth v = .ok bs) : v.depth ≤ depth := by
  induction depth generalizing v bs with
  | zero =>
    cases v with
    | list items => cases h
    | _ => exact Nat.zero_le 0
  | succ depth ih =>
    cases v with
    | list items =>
      obtain ⟨content, hc, -⟩ := valueBytes_list h
      rw [Value.depth]
      refine Nat.succ_le_succ (depthList_le fun w hw => ?_)
      obtain ⟨cs, hcs⟩ := itemsBytes_mem hc hw
      exact ih hcs
    | _ => exact Nat.zero_le (depth + 1)

/-- A reply has a written form if and only if what it carries is nested no deeper than allowed. -/
theorem encodeReply_ok_iff {r : Reply} :
    (∃ output, encodeReply r = .ok output) ↔ Reply.nesting r ≤ Value.maxDepth := by
  cases r with
  | error f => exact iff_of_true ⟨_, rfl⟩ (Nat.zero_le _)
  | ok r =>
    refine ⟨fun ⟨output, ho⟩ => ?_, encodeReply_ok⟩
    obtain ⟨content, hc, -⟩ := replyBytes_response ho
    cases r with
    | value v =>
      obtain ⟨bs, hv, -⟩ := responseBytes_value hc
      exact depth_le_of_valueBytes hv
    | _ => exact Nat.zero_le _

/-- A reply whose lengths can be told is read back from its written form. -/
theorem decodeReply_of_sized {r : Reply} {output : List UInt8} (h : encodeReply r = .ok output)
    (hs : Reply.Sized r) : decodeReply output = .ok r := by
  have hread := (reads_reply h hs).run []
  rw [List.append_nil] at hread
  exact hread

end Wire

namespace Machine

variable {source : TextSource} {m : Machine} {k : Nat} {key : SessionKey} {op : Op}

/-- Only the content of an object, asked for as such, is nested in a response. -/
theorem perform_nesting {r : Response} (hr : (m.perform source k key op).1 = .ok r)
    (hn : 0 < r.nesting) :
    ∃ target v, op = .toValue target ∧ r = .value v ∧ m.contentOf k key target = some v := by
  cases r with
  | value v =>
    have hkind : (Response.value v).kind = op.answers := by
      cases hi : m.interps[k]? with
      | none =>
        rw [perform, hi] at hr
        cases hr
      | some i => exact perform_answers hi hr
    cases op with
    | toValue target =>
      have hv := perform_toValue (m := m) source k key target
      rw [hr] at hv
      obtain ⟨w, hw, hwv⟩ := Option.map_eq_some_iff.1 hv.symm
      cases hwv
      exact ⟨target, v, rfl, rfl, hw⟩
    | _ => cases hkind
  | _ => exact absurd hn (Nat.lt_irrefl 0)

end Machine

namespace Endpoint

variable {source : TextSource} {bytes : List UInt8} {s : Machine × Endpoint}

/-- What an endpoint makes of some bytes, before the reply is written. -/
def answer (source : TextSource) (bytes : List UInt8) (s : Machine × Endpoint) :
    Reply × (Machine × Endpoint) :=
  match Wire.decodeRequest bytes with
  | .ok request => serve source request s
  | .error cause => (.error ⟨.protocol, (WireError.decode cause).message⟩, s)

/-- The bytes ask for the content of an object, in a session that is served, and the content is nested
too deep to be written. -/
def TooDeep (bytes : List UInt8) (s : Machine × Endpoint) : Prop :=
  ∃ key target v, Wire.decodeRequest bytes = .ok (.act key (.toValue target)) ∧ key ∈ s.2.served ∧
    s.1.contentOf s.2.interp key target = some v ∧ Value.maxDepth < v.depth

/-- An endpoint answers, and then writes what it can. -/
theorem dispatch_eq : dispatch source bytes s =
    match Wire.encodeReply (answer source bytes s).1 with
    | .ok output => ((.ok, .ofBytes output), (answer source bytes s).2)
    | .error _ => ((.failed, .empty), (answer source bytes s).2) := by
  unfold dispatch answer
  cases Wire.decodeRequest bytes <;> rfl

/-- An answer that is short is what is read in the buffer. -/
theorem read_dispatch {r : Reply} {s' : Machine × Endpoint} (ha : answer source bytes s = (r, s'))
    (hn : Reply.nesting r ≤ Value.maxDepth) (hs : Reply.Sized r) :
    Wire.decodeReply (dispatch source bytes s).1.2.bytes = .ok r ∧
      (dispatch source bytes s).2 = s' := by
  obtain ⟨output, ho⟩ := Wire.encodeReply_ok_iff.2 hn
  simp only [dispatch_eq, ha, ho]
  exact ⟨Wire.decodeReply_of_sized ho hs, trivial⟩

/-- The answer is nested too deep if and only if it is the content of an object that is. -/
theorem tooDeep_iff (source : TextSource) :
    TooDeep bytes s ↔ Value.maxDepth < Reply.nesting (answer source bytes s).1 := by
  obtain ⟨m, e⟩ := s
  constructor
  · rintro ⟨key, target, v, hd, hk, hv, hdeep⟩
    have hperform : (m.perform source e.interp key (.toValue target)).1 = .ok (.value v) := by
      have hread := m.perform_toValue source e.interp key target
      cases hr : (m.perform source e.interp key (.toValue target)).1 with
      | error cause =>
        rw [hr, hv] at hread
        cases hread
      | ok r =>
        rw [hr, hv] at hread
        rw [Option.some.inj hread]
    simp only [answer, hd, serve, if_pos hk, hperform]
    exact hdeep
  · intro hdeep
    -- All other answers are flat.
    rcases hd : Wire.decodeRequest bytes with cause | request
    · simp only [answer, hd] at hdeep
      exact absurd hdeep (Nat.not_lt_zero _)
    simp only [answer, hd] at hdeep
    cases request with
    | openSession =>
      simp only [serve] at hdeep
      split at hdeep <;> exact absurd hdeep (Nat.not_lt_zero _)
    | closeSession key =>
      simp only [serve] at hdeep
      split at hdeep <;> exact absurd hdeep (Nat.not_lt_zero _)
    | act key op =>
      simp only [serve] at hdeep
      by_cases hk : key ∈ e.served
      · rw [if_pos hk] at hdeep
        cases hr : (m.perform source e.interp key op).1 with
        | error cause =>
          rw [hr] at hdeep
          exact absurd hdeep (Nat.not_lt_zero _)
        | ok r =>
          rw [hr] at hdeep
          obtain ⟨target, v, rfl, rfl, hv⟩ := Machine.perform_nesting hr (Nat.zero_lt_of_lt hdeep)
          exact ⟨key, target, v, hd, hk, hv, hdeep⟩
      · rw [if_neg hk] at hdeep
        exact absurd hdeep (Nat.not_lt_zero _)

/-- To ask for too much changes nothing. -/
theorem answer_tooDeep (ht : TooDeep bytes s) : (answer source bytes s).2 = s := by
  obtain ⟨key, target, v, hd, hk, -, -⟩ := ht
  simp only [answer, hd, serve, if_pos hk]
  rw [Machine.perform_looks source s.2.interp key rfl]

/-- Every byte string is answered, and the answer can be read, except for a value that is nested too deep:
then there is no output and nothing has changed. Bytes that are no request, and requests that name a
session that is not open, change nothing either; the former are a violation of the protocol, and so are
the latter unless they close the session. -/
theorem dispatch_answers (source : TextSource) (bytes : List UInt8) (s : Machine × Endpoint) :
    let x := dispatch source bytes s
    (TooDeep bytes s → x = ((.failed, .empty), s)) ∧
    (¬ TooDeep bytes s → ∃ output, x = ((.ok, .ofBytes output), (answer source bytes s).2) ∧
      (output.length < 2 ^ 64 → Wire.decodeReply output = .ok (answer source bytes s).1)) ∧
    (∀ cause, Wire.decodeRequest bytes = .error cause →
      Wire.decodeReply x.1.2.bytes =
        .ok (.error ⟨.protocol, (WireError.decode cause).message⟩) ∧ x.2 = s) ∧
    (∀ key, key ∉ s.2.served →
      (∀ op, Wire.decodeRequest bytes = .ok (.act key op) →
        Wire.decodeReply x.1.2.bytes =
          .ok (.error ⟨.protocol, "unknown session-" ++ toString key.number.toNat⟩) ∧ x.2 = s) ∧
      (Wire.decodeRequest bytes = .ok (.closeSession key) →
        Wire.decodeReply x.1.2.bytes = .ok (.ok .unit) ∧ x.2 = s)) := by
  intro x
  refine ⟨fun ht => ?_, fun ht => ?_, fun cause hd => ?_, fun key hk => ⟨fun op hd => ?_, fun hd => ?_⟩⟩
  · have hdeep := (tooDeep_iff source).1 ht
    cases ho : Wire.encodeReply (answer source bytes s).1 with
    | ok output => exact absurd (Wire.encodeReply_ok_iff.1 ⟨output, ho⟩) (Nat.not_le_of_lt hdeep)
    | error cause => simp only [x, dispatch_eq, ho, answer_tooDeep ht]
  -- Whatever is flat enough can be written, and reads back if its length fits.
  · have hfits := Nat.le_of_not_lt (mt (tooDeep_iff source).2 ht)
    obtain ⟨output, ho⟩ := Wire.encodeReply_ok_iff.2 hfits
    refine ⟨output, by simp only [x, dispatch_eq, ho], fun hl => ?_⟩
    exact Wire.decodeReply_of_sized ho (Wire.sized_of_replyBytes ho hl)
  · exact read_dispatch (by simp only [answer, hd]) (Nat.zero_le _) (WireError.sized_decode cause)
  · have ha : answer source bytes s = (.error (Failure.unknownSession key).fault, s) := by
      simp only [answer, hd, serve, if_neg hk]
    have hmessage : "unknown session-" ++ toString key.number.toNat =
        (Failure.unknownSession key).fault.message := by
      change "unknown " ++ "session-" ++ toString key.number.toNat = "unknown " ++ key.display
      exact String.append_assoc
    rw [hmessage]
    exact read_dispatch ha (Nat.zero_le _) (Failure.sized_unknownSession key)
  · have ha : answer source bytes s = (.ok .unit, s) := by
      simp only [answer, hd, serve, if_neg hk]
    exact read_dispatch ha (Nat.zero_le _) trivial

/-- An endpoint with one session, in which a value that is as deep as allowed was put into a list. -/
def overfull : Machine × Endpoint :=
  let requests : List Request := [.openSession, .act ⟨1⟩ (.ofValue (.nested .null 64)),
    .act ⟨1⟩ (.global "builtins" "list"), .act ⟨1⟩ (.call ⟨⟨1⟩, 1⟩ [⟨⟨1⟩, 0⟩])]
  requests.foldl (fun s request => (serve (fun _ _ => none) request s).2)
    ((({} : Machine).create [] false none).2, { interp := 0 })

/-- The list cannot be told, what is in it can, and the other three kinds of bytes are turned away. -/
theorem dispatch_answers_overfull :
    let source : TextSource := fun _ _ => none
    TooDeep [5, 1, 1, 2] overfull ∧
      dispatch source [5, 1, 1, 2] overfull = ((.failed, .empty), overfull) ∧
      ¬ TooDeep [5, 1, 1, 0] overfull ∧
      (∃ output, (dispatch source [5, 1, 1, 0] overfull).1 = (.ok, .ofBytes output)) ∧
      Wire.decodeReply (dispatch source [255, 255, 255] overfull).1.2.bytes =
        .ok (.error ⟨.protocol, (WireError.decode .endOfBuffer).message⟩) ∧
      Wire.decodeReply (dispatch source [12, 7, 0] overfull).1.2.bytes =
        .ok (.error ⟨.protocol, "unknown session-7"⟩) ∧
      Wire.decodeReply (dispatch source [1, 7] overfull).1.2.bytes = .ok (.ok .unit) := by
  intro source
  have hlist : Wire.decodeRequest [5, 1, 1, 2] = .ok (.act ⟨1⟩ (.toValue ⟨⟨1⟩, 2⟩)) := by
    decide +kernel
  have hcontent : overfull.1.contentOf overfull.2.interp ⟨1⟩ ⟨⟨1⟩, 2⟩ =
      some (.list [.nested .null 64]) := by decide +kernel
  have hdeep : TooDeep [5, 1, 1, 2] overfull :=
    ⟨⟨1⟩, ⟨⟨1⟩, 2⟩, .list [.nested .null 64], hlist, by decide +kernel, hcontent, by decide +kernel⟩
  have hfits : ¬ TooDeep [5, 1, 1, 0] overfull := by
    rw [tooDeep_iff source]
    decide +kernel
  obtain ⟨output, ho, -⟩ := (dispatch_answers source [5, 1, 1, 0] overfull).2.1 hfits
  have hseven : (⟨7⟩ : SessionKey) ∉ overfull.2.served := by decide +kernel
  refine ⟨hdeep, (dispatch_answers source _ _).1 hdeep, hfits, ⟨output, congrArg Prod.fst ho⟩, ?_, ?_, ?_⟩
  · exact ((dispatch_answers source _ _).2.2.1 .endOfBuffer (by decide +kernel)).1
  · exact (((dispatch_answers source _ _).2.2.2 ⟨7⟩ hseven).1 (.unload ⟨0⟩) (by decide +kernel)).1
  · exact (((dispatch_answers source _ _).2.2.2 ⟨7⟩ hseven).2 (by decide +kernel)).1

end Endpoint

end InstancePool
