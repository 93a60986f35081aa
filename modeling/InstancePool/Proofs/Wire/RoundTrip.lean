import InstancePool.Proofs.Wire.Decoding

/-!
What is written is read back, whatever follows it. The lengths of texts and sequences are written as
numbers of 64 bits, which is what every length in memory is.
-/

namespace InstancePool

/-- How many lists are nested in the value that an operation carries. -/
def Op.nesting : Op → Nat
  | .ofValue v => v.depth
  | _ => 0

def Request.nesting : Request → Nat
  | .act _ op => op.nesting
  | _ => 0

/-- How many lists are nested in the value that a response carries. -/
def Response.nesting : Response → Nat
  | .value v => v.depth
  | _ => 0

def Reply.nesting : Reply → Nat
  | .ok r => r.nesting
  | .error _ => 0

/-- The length of a text in bytes is a number of 64 bits. -/
def Text.Sized (s : String) : Prop := (utf8Bytes s).length < 2 ^ 64

instance : DecidablePred Text.Sized := fun s =>
  inferInstanceAs (Decidable ((Text.utf8Bytes s).length < 2 ^ 64))

namespace Value

mutual

/-- The lengths of all texts and lists in a value are numbers of 64 bits. -/
def Sized : Value → Prop
  | .str s => Text.Sized s
  | .list items => items.length < 2 ^ 64 ∧ SizedList items
  | _ => True

def SizedList : List Value → Prop
  | [] => True
  | v :: vs => v.Sized ∧ SizedList vs

end

mutual

def decSized : (v : Value) → Decidable v.Sized
  | .null | .bool _ | .int _ | .float _ => .isTrue trivial
  | .str s => inferInstanceAs (Decidable (Text.Sized s))
  | .list items => @instDecidableAnd _ _ _ (decSizedList items)

def decSizedList : (vs : List Value) → Decidable (SizedList vs)
  | [] => .isTrue trivial
  | v :: vs => @instDecidableAnd _ _ (decSized v) (decSizedList vs)

end

instance : DecidablePred Sized := decSized

end Value

def Op.Sized : Op → Prop
  | .global module name => Text.Sized module ∧ Text.Sized name
  | .eval source => Text.Sized source
  | .ofValue v => v.Sized
  | .attr _ name | .setAttr _ name _ => Text.Sized name
  | .call _ args => args.length < 2 ^ 64
  | .restore _ data => data.length < 2 ^ 64
  | _ => True

def Request.Sized : Request → Prop
  | .act _ op => op.Sized
  | _ => True

def Response.Sized : Response → Prop
  | .value v => v.Sized
  | .bytes data => data.length < 2 ^ 64
  | _ => True

def Reply.Sized : Reply → Prop
  | .ok r => r.Sized
  | .error f => Text.Sized f.message

namespace Wire

variable {α β : Type}

/-- A written form, if there is one, that a memory of 64 bits can hold. -/
def Addressable : Except EncodeError (List UInt8) → Prop
  | .ok bs => bs.length < 2 ^ 63
  | .error _ => True

instance : DecidablePred Addressable
  | .ok bs => inferInstanceAs (Decidable (bs.length < 2 ^ 63))
  | .error _ => inferInstanceAs (Decidable True)

theorem Reads.tagged {f : Nat → Decoder β} {k : Nat} {bs : List UInt8} {b : β} (hk : k < 2 ^ 32)
    (h : Reads (f k) bs b) : Reads (nat32 >>= f) (bytesOfNat32 k ++ bs) b :=
  (reads_nat32 hk).bind h

theorem Reads.tag {f : Nat → Decoder β} {k : Nat} {b : β} (hk : k < 2 ^ 32)
    (h : Reads (f k) [] b) : Reads (nat32 >>= f) (bytesOfNat32 k) b := by
  rw [← List.append_nil (bytesOfNat32 k)]
  exact Reads.tagged hk h

theorem length_bytesOfNat32_pos (k : Nat) : 0 < (bytesOfNat32 k).length := by
  unfold bytesOfNat32 varintBytes
  split <;> exact Nat.succ_pos _

theorem valueBytes_list {depth : Nat} {items : List Value} {bs : List UInt8}
    (h : valueBytes (depth + 1) (.list items) = .ok bs) :
    ∃ content, itemsBytes depth items = .ok content ∧
      bs = bytesOfNat32 5 ++ (bytesOfNat64 items.length ++ content) := by
  simp only [valueBytes] at h
  cases hi : itemsBytes depth items with
  | error e => rw [hi] at h; cases h
  | ok content =>
    rw [hi] at h
    exact ⟨content, rfl, (Except.ok.inj h).symm.trans (List.append_assoc _ _ _)⟩

theorem length_valueBytes_pos {depth : Nat} {v : Value} {bs : List UInt8}
    (h : valueBytes depth v = .ok bs) : 0 < bs.length := by
  -- The tag alone has a byte at least.
  have hp (k : Nat) (cs : List UInt8) : 0 < (bytesOfNat32 k ++ cs).length := by
    have := length_bytesOfNat32_pos k
    rw [List.length_append]
    omega
  cases v with
  | null =>
    obtain rfl := Except.ok.inj h
    exact length_bytesOfNat32_pos 0
  | bool b =>
    obtain rfl := Except.ok.inj h
    exact hp 1 _
  | int i =>
    obtain rfl := Except.ok.inj h
    exact hp 2 _
  | float x =>
    obtain rfl := Except.ok.inj h
    exact hp 3 _
  | str s =>
    obtain rfl := Except.ok.inj h
    exact hp 4 _
  | list items =>
    cases depth with
    | zero => cases h
    | succ depth =>
      obtain ⟨content, -, rfl⟩ := valueBytes_list h
      exact hp 5 _

theorem itemsBytes_cons {depth : Nat} {v : Value} {vs : List Value} {bs : List UInt8}
    (h : itemsBytes depth (v :: vs) = .ok bs) :
    ∃ first rest, valueBytes depth v = .ok first ∧ itemsBytes depth vs = .ok rest ∧
      bs = first ++ rest := by
  simp only [itemsBytes] at h
  cases hv : valueBytes depth v with
  | error e => rw [hv] at h; cases h
  | ok first =>
    rw [hv] at h
    cases hs : itemsBytes depth vs with
    | error e => rw [hs] at h; cases h
    | ok rest =>
      rw [hs] at h
      exact ⟨first, rest, rfl, rfl, (Except.ok.inj h).symm⟩

theorem length_le_itemsBytes {depth : Nat} {vs : List Value} {bs : List UInt8}
    (h : itemsBytes depth vs = .ok bs) : vs.length ≤ bs.length := by
  induction vs generalizing bs with
  | nil => exact Nat.zero_le _
  | cons v vs ih =>
    obtain ⟨first, rest, hv, hs, rfl⟩ := itemsBytes_cons h
    have h1 := length_valueBytes_pos hv
    have h2 := ih hs
    rw [List.length_cons, List.length_append]
    omega

theorem reads_items {depth : Nat} {vs : List Value} {bs : List UInt8}
    (hd : ∀ v cs, valueBytes depth v = .ok cs → v.Sized → Reads (value depth) cs v)
    (h : itemsBytes depth vs = .ok bs) (hs : Value.SizedList vs) :
    Reads (Decoder.replicate (value depth) vs.length) bs vs := by
  induction vs generalizing bs with
  | nil =>
    obtain rfl := Except.ok.inj h
    exact Reads.ret []
  | cons v vs ih =>
    obtain ⟨first, rest, hv, hrest, rfl⟩ := itemsBytes_cons h
    have hitems : Reads (Decoder.replicate (value depth) vs.length) rest vs := ih hrest hs.2
    rw [← List.append_nil rest]
    exact (hd v first hv hs.1).bind (hitems.bind (Reads.ret (v :: vs)))

/-- One layer of a value: the items of a list are read by the decoder for one list less. -/
theorem reads_layer {depth : Nat} {v : Value} {bs : List UInt8}
    (hd : ∀ d, depth = d + 1 → ∀ w cs, valueBytes d w = .ok cs → w.Sized → Reads (value d) cs w)
    (h : valueBytes depth v = .ok bs) (hs : v.Sized) : Reads (value depth) bs v := by
  unfold value
  cases v with
  | null =>
    obtain rfl := Except.ok.inj h
    exact Reads.tag (by decide) (Reads.ret Value.null)
  | bool b =>
    obtain rfl := Except.ok.inj h
    exact Reads.tagged (by decide) ((reads_bool b).map Value.bool)
  | int i =>
    obtain rfl := Except.ok.inj h
    exact Reads.tagged (by decide) ((reads_int64 i).map Value.int)
  | float x =>
    obtain rfl := Except.ok.inj h
    exact Reads.tagged (by decide) ((reads_float x).map Value.float)
  | str s =>
    obtain rfl := Except.ok.inj h
    exact Reads.tagged (by decide) ((reads_text hs).map Value.str)
  | list items =>
    cases depth with
    | zero => cases h
    | succ depth =>
      obtain ⟨content, hi, rfl⟩ := valueBytes_list h
      -- The items are of the next layer, and their number is told in front of them.
      have hitems := reads_items (hd depth rfl) hi hs.2
      exact Reads.tagged (by decide) (((reads_nat64 hs.1).bind hitems).map Value.list)

theorem reads_value {depth : Nat} {v : Value} {bs : List UInt8}
    (h : valueBytes depth v = .ok bs) (hs : v.Sized) : Reads (value depth) bs v := by
  induction depth generalizing v bs with
  | zero => exact reads_layer (fun d hd => by omega) h hs
  | succ depth ih =>
    refine reads_layer (fun d hd w cs hw hws => ?_) h hs
    obtain rfl : depth = d := by omega
    exact ih hw hws

theorem sizedList_of_length {depth : Nat} {vs : List Value} {bs : List UInt8}
    (hd : ∀ v cs, valueBytes depth v = .ok cs → cs.length < 2 ^ 64 → v.Sized)
    (h : itemsBytes depth vs = .ok bs) (hl : bs.length < 2 ^ 64) : Value.SizedList vs := by
  induction vs generalizing bs with
  | nil => exact trivial
  | cons v vs ih =>
    obtain ⟨first, rest, hv, hs, rfl⟩ := itemsBytes_cons h
    rw [List.length_append] at hl
    exact ⟨hd v first hv (by omega), ih hs (by omega)⟩

/-- A text is no longer than its written form. -/
theorem sized_of_bytesOfText {s : String} (h : (bytesOfText s).length < 2 ^ 64) : Text.Sized s := by
  simp only [bytesOfText, bytesOfBytes, List.length_append] at h
  unfold Text.Sized
  omega

/-- The texts and lists of a value are no longer than its written form. -/
theorem sized_of_valueBytes {depth : Nat} {v : Value} {bs : List UInt8}
    (h : valueBytes depth v = .ok bs) (hl : bs.length < 2 ^ 64) : v.Sized := by
  induction depth generalizing v bs with
  | zero =>
    cases v with
    | str s =>
      obtain rfl := Except.ok.inj h
      rw [List.length_append] at hl
      exact sized_of_bytesOfText (by omega)
    | list items => cases h
    | _ => exact trivial
  | succ depth ih =>
    cases v with
    | str s =>
      obtain rfl := Except.ok.inj h
      rw [List.length_append] at hl
      exact sized_of_bytesOfText (by omega)
    | list items =>
      obtain ⟨content, hi, rfl⟩ := valueBytes_list h
      have hc : items.length ≤ content.length := length_le_itemsBytes hi
      simp only [List.length_append] at hl
      exact ⟨by omega, sizedList_of_length (fun w cs hw hcs => ih hw hcs) hi (by omega)⟩
    | _ => exact trivial

theorem itemsBytes_ok {depth : Nat} {vs : List Value}
    (h : ∀ v ∈ vs, ∃ bs, valueBytes depth v = .ok bs) : ∃ bs, itemsBytes depth vs = .ok bs := by
  induction vs with
  | nil => exact ⟨[], rfl⟩
  | cons v vs ih =>
    obtain ⟨first, hv⟩ := h v List.mem_cons_self
    obtain ⟨rest, hs⟩ := ih fun w hw => h w (List.mem_cons_of_mem v hw)
    exact ⟨first ++ rest, by simp only [itemsBytes, hv, hs, Except.map]⟩

theorem depth_le_depthList {v : Value} {vs : List Value} (h : v ∈ vs) :
    v.depth ≤ Value.depthList vs := by
  induction vs with
  | nil => cases h
  | cons w vs ih =>
    rw [Value.depthList]
    rcases List.mem_cons.1 h with rfl | h
    · exact Nat.le_max_left _ _
    · exact Nat.le_trans (ih h) (Nat.le_max_right _ _)

/-- A value that is nested no deeper than allowed has a written form. -/
theorem valueBytes_ok {depth : Nat} {v : Value} (h : v.depth ≤ depth) :
    ∃ bs, valueBytes depth v = .ok bs := by
  induction depth generalizing v with
  | zero =>
    cases v with
    | list items => rw [Value.depth] at h; omega
    | _ => exact ⟨_, rfl⟩
  | succ depth ih =>
    cases v with
    | list items =>
      rw [Value.depth] at h
      obtain ⟨content, hc⟩ := itemsBytes_ok fun w hw =>
        ih (Nat.le_trans (depth_le_depthList hw) (Nat.le_of_succ_le_succ h))
      exact ⟨_, by simp only [valueBytes, hc, Except.map]; rfl⟩
    | _ => exact ⟨_, rfl⟩

theorem reads_key (k : SessionKey) : Reads key (bytesOfKey k) k :=
  (reads_uint64 k.number).map SessionKey.mk

theorem reads_objectId (id : ObjectId) : Reads objectId (bytesOfId id) id :=
  (reads_uint64 id.number).map ObjectId.mk

theorem reads_ref (r : Ref) : Reads ref (bytesOfRef r) r := by
  unfold ref bytesOfRef
  rw [← List.append_nil (bytesOfUInt32 r.slot)]
  exact (reads_key r.session).bind ((reads_uint32 r.slot).bind (Reads.ret r))

/-- The bytes of a sequence are no fewer than its items, if each of these takes one. -/
theorem length_le_flatMap {α : Type} {item : α → List UInt8} (items : List α)
    (h : ∀ a, 0 < (item a).length) : items.length ≤ (items.flatMap item).length := by
  induction items with
  | nil => exact Nat.le_refl 0
  | cons a items ih =>
    have := h a
    rw [List.flatMap_cons, List.length_append, List.length_cons]
    omega

theorem length_bytesOfRef_pos (r : Ref) : 0 < (bytesOfRef r).length := by
  have : 0 < (bytesOfUInt32 r.slot).length := length_bytesOfNat32_pos _
  rw [bytesOfRef, List.length_append]
  omega

theorem reads_op {depth : Nat} {o : Op} {bs : List UInt8} (h : opBytes depth o = .ok bs)
    (hs : o.Sized) : Reads (op depth (opIndex o)) bs o := by
  -- Operands are read one after the other, and nothing is left behind the last.
  cases o with
  | global module name =>
    obtain rfl := Except.ok.inj h
    rw [← List.append_nil (bytesOfText name)]
    exact (reads_text hs.1).bind ((reads_text hs.2).bind (Reads.ret _))
  | eval source =>
    obtain rfl := Except.ok.inj h
    exact (reads_text hs).map Op.eval
  | ofValue v => exact (reads_value h hs).map Op.ofValue
  | toValue target =>
    obtain rfl := Except.ok.inj h
    exact (reads_ref target).map Op.toValue
  | attr target name =>
    obtain rfl := Except.ok.inj h
    rw [← List.append_nil (bytesOfText name)]
    exact (reads_ref target).bind ((reads_text hs).bind (Reads.ret _))
  | setAttr target name v =>
    obtain rfl := Except.ok.inj h
    rw [List.append_assoc, ← List.append_nil (bytesOfRef v)]
    exact (reads_ref target).bind ((reads_text hs).bind ((reads_ref v).bind (Reads.ret _)))
  | call callee args =>
    obtain rfl := Except.ok.inj h
    rw [← List.append_nil (bytesOfList bytesOfRef args)]
    exact (reads_ref callee).bind ((reads_list hs fun r _ => reads_ref r).bind (Reads.ret _))
  | isOwner target =>
    obtain rfl := Except.ok.inj h
    exact (reads_ref target).map Op.isOwner
  | serialize receiver target =>
    obtain rfl := Except.ok.inj h
    rw [← List.append_nil (bytesOfRef target)]
    exact (reads_option fun r _ => reads_ref r).bind ((reads_ref target).bind (Reads.ret _))
  | restore id data =>
    obtain rfl := Except.ok.inj h
    rw [← List.append_nil (bytesOfBytes data)]
    exact (reads_objectId id).bind ((reads_bytes hs).bind (Reads.ret _))
  | unload id =>
    obtain rfl := Except.ok.inj h
    exact (reads_objectId id).map Op.unload

theorem sized_of_opBytes {depth : Nat} {o : Op} {bs : List UInt8} (h : opBytes depth o = .ok bs)
    (hl : bs.length < 2 ^ 64) : o.Sized := by
  cases o with
  | ofValue v => exact sized_of_valueBytes h hl
  | call callee args =>
    obtain rfl := Except.ok.inj h
    have ha := length_le_flatMap args length_bytesOfRef_pos
    simp only [bytesOfList, List.length_append] at hl
    simp only [Op.Sized]
    omega
  | global | eval | attr | setAttr =>
    obtain rfl := Except.ok.inj h
    simp only [bytesOfText, bytesOfBytes, List.length_append] at hl
    simp only [Op.Sized, Text.Sized]
    omega
  | restore id data =>
    obtain rfl := Except.ok.inj h
    simp only [bytesOfBytes, List.length_append] at hl
    simp only [Op.Sized]
    omega
  -- nothing else that an operation carries has a length of its own
  | toValue | isOwner | serialize | unload => exact trivial

/-- What is written of a request that acts in a session: the operation comes last. -/
theorem requestBytes_act {depth : Nat} {session : SessionKey} {o : Op} {bs : List UInt8}
    (h : requestBytes depth (.act session o) = .ok bs) :
    ∃ content, opBytes depth o = .ok content ∧
      bs = bytesOfNat32 (opIndex o) ++ (bytesOfKey session ++ content) := by
  simp only [requestBytes] at h
  cases ho : opBytes depth o with
  | error e => rw [ho] at h; cases h
  | ok content =>
    rw [ho] at h
    exact ⟨content, rfl, (Except.ok.inj h).symm.trans (List.append_assoc _ _ _)⟩

theorem reads_request {depth : Nat} {r : Request} {bs : List UInt8}
    (h : requestBytes depth r = .ok bs) (hs : r.Sized) : Reads (request depth) bs r := by
  cases r with
  | openSession =>
    obtain rfl := Except.ok.inj h
    exact Reads.tag (by decide) (Reads.ret _)
  | closeSession session =>
    obtain rfl := Except.ok.inj h
    exact Reads.tagged (by decide) ((reads_key session).map Request.closeSession)
  | act session o =>
    have hi : 2 ≤ opIndex o ∧ opIndex o ≤ 12 := by cases o <;> simp [opIndex]
    have h0 : ¬ opIndex o = 0 := by omega
    have h1 : ¬ opIndex o = 1 := by omega
    obtain ⟨content, ho, rfl⟩ := requestBytes_act h
    apply Reads.tagged (by omega)
    rw [if_neg h0, if_neg h1, if_pos hi.2]
    exact (reads_key session).bind ((reads_op ho hs).map (Request.act session))

theorem sized_of_requestBytes {depth : Nat} {r : Request} {bs : List UInt8}
    (h : requestBytes depth r = .ok bs) (hl : bs.length < 2 ^ 64) : r.Sized := by
  cases r with
  | act session o =>
    obtain ⟨content, ho, rfl⟩ := requestBytes_act h
    simp only [List.length_append] at hl
    exact sized_of_opBytes ho (by omega)
  | _ => exact trivial

theorem responseBytes_value {depth : Nat} {v : Value} {bs : List UInt8}
    (h : responseBytes depth (.value v) = .ok bs) :
    ∃ content, valueBytes depth v = .ok content ∧ bs = bytesOfNat32 3 ++ content := by
  simp only [responseBytes] at h
  cases hv : valueBytes depth v with
  | error e => rw [hv] at h; cases h
  | ok content =>
    rw [hv] at h
    exact ⟨content, rfl, (Except.ok.inj h).symm⟩

theorem reads_response {depth : Nat} {r : Response} {bs : List UInt8}
    (h : responseBytes depth r = .ok bs) (hs : r.Sized) : Reads (response depth) bs r := by
  cases r with
  | unit =>
    obtain rfl := Except.ok.inj h
    exact Reads.tag (by decide) (Reads.ret _)
  | session k =>
    obtain rfl := Except.ok.inj h
    exact Reads.tagged (by decide) ((reads_key k).map Response.session)
  | ref r =>
    obtain rfl := Except.ok.inj h
    exact Reads.tagged (by decide) ((reads_ref r).map Response.ref)
  | value v =>
    obtain ⟨content, hv, rfl⟩ := responseBytes_value h
    exact Reads.tagged (by decide) ((reads_value hv hs).map Response.value)
  | bool b =>
    obtain rfl := Except.ok.inj h
    exact Reads.tagged (by decide) ((reads_bool b).map Response.bool)
  | bytes data =>
    obtain rfl := Except.ok.inj h
    exact Reads.tagged (by decide) ((reads_bytes hs).map Response.bytes)

theorem sized_of_responseBytes {depth : Nat} {r : Response} {bs : List UInt8}
    (h : responseBytes depth r = .ok bs) (hl : bs.length < 2 ^ 64) : r.Sized := by
  cases r with
  | value v =>
    obtain ⟨content, hv, rfl⟩ := responseBytes_value h
    rw [List.length_append] at hl
    exact sized_of_valueBytes hv (by omega)
  | bytes data =>
    obtain rfl := Except.ok.inj h
    simp only [bytesOfBytes, List.length_append] at hl
    simp only [Response.Sized]
    omega
  | _ => exact trivial

theorem reads_faultKind (k : FaultKind) : Reads faultKind (bytesOfNat32 (faultKindIndex k)) k := by
  cases k <;> exact Reads.tag (by decide) (Reads.ret _)

theorem reads_fault {f : Fault} (hs : Text.Sized f.message) : Reads fault (bytesOfFault f) f := by
  unfold fault bytesOfFault
  rw [← List.append_nil (bytesOfText f.message)]
  exact (reads_faultKind f.kind).bind ((reads_text hs).bind (Reads.ret f))

theorem replyBytes_response {depth : Nat} {r : Response} {bs : List UInt8}
    (h : replyBytes depth (.ok r) = .ok bs) :
    ∃ content, responseBytes depth r = .ok content ∧ bs = bytesOfNat32 0 ++ content := by
  simp only [replyBytes] at h
  cases hr : responseBytes depth r with
  | error e => rw [hr] at h; cases h
  | ok content =>
    rw [hr] at h
    exact ⟨content, rfl, (Except.ok.inj h).symm⟩

theorem reads_reply {depth : Nat} {r : Reply} {bs : List UInt8}
    (h : replyBytes depth r = .ok bs) (hs : Reply.Sized r) : Reads (reply depth) bs r := by
  cases r with
  | ok r =>
    obtain ⟨content, hr, rfl⟩ := replyBytes_response h
    exact Reads.tagged (by decide) ((reads_response hr hs).map Except.ok)
  | error f =>
    obtain rfl := Except.ok.inj h
    exact Reads.tagged (by decide) ((reads_fault hs).map Except.error)

theorem sized_of_replyBytes {depth : Nat} {r : Reply} {bs : List UInt8}
    (h : replyBytes depth r = .ok bs) (hl : bs.length < 2 ^ 64) : Reply.Sized r := by
  cases r with
  | ok r =>
    obtain ⟨content, hr, rfl⟩ := replyBytes_response h
    rw [List.length_append] at hl
    exact sized_of_responseBytes hr (by omega)
  | error f =>
    obtain rfl := Except.ok.inj h
    simp only [bytesOfFault, List.length_append] at hl
    exact sized_of_bytesOfText (by omega)

theorem opBytes_ok {depth : Nat} {o : Op} (h : o.nesting ≤ depth) :
    ∃ bs, opBytes depth o = .ok bs := by
  cases o with
  | ofValue v => exact valueBytes_ok h
  | _ => exact ⟨_, rfl⟩

theorem encodeReply_ok {r : Response} (h : r.nesting ≤ Value.maxDepth) :
    ∃ bs, encodeReply (.ok r) = .ok bs := by
  have hr : ∃ content, responseBytes Value.maxDepth r = .ok content := by
    cases r with
    | value v =>
      obtain ⟨bs, hv⟩ := valueBytes_ok h
      exact ⟨_, by simp only [responseBytes, hv, Except.map]; rfl⟩
    | _ => exact ⟨_, rfl⟩
  obtain ⟨content, hc⟩ := hr
  exact ⟨_, by simp only [encodeReply, replyBytes, hc, Except.map]; rfl⟩

theorem encodeRequest_ok {r : Request} (h : r.nesting ≤ Value.maxDepth) :
    ∃ bs, encodeRequest r = .ok bs := by
  cases r with
  | act session o =>
    obtain ⟨content, hc⟩ := opBytes_ok (o := o) h
    exact ⟨_, by simp only [encodeRequest, requestBytes, hc, Except.map]; rfl⟩
  | _ => exact ⟨_, rfl⟩

theorem decodeValue_encodeValue {v : Value} {bs : List UInt8} (h : encodeValue v = .ok bs)
    (hl : bs.length < 2 ^ 64) (rest : List UInt8) : decodeValue (bs ++ rest) = .ok v :=
  (reads_value h (sized_of_valueBytes h hl)).run rest

theorem decodeRequest_encodeRequest {r : Request} {bs : List UInt8}
    (h : encodeRequest r = .ok bs) (hl : bs.length < 2 ^ 64) (rest : List UInt8) :
    decodeRequest (bs ++ rest) = .ok r :=
  (reads_request h (sized_of_requestBytes h hl)).run rest

theorem decodeReply_encodeReply {r : Reply} {bs : List UInt8} (h : encodeReply r = .ok bs)
    (hl : bs.length < 2 ^ 64) (rest : List UInt8) : decodeReply (bs ++ rest) = .ok r :=
  (reads_reply h (sized_of_replyBytes h hl)).run rest

/-- Values, requests and replies that nest no deeper than allowed have a written form, from which they
are read back in every bit, whatever bytes follow it. -/
theorem decode_append_of_encode :
    (∀ v : Value, v.depth ≤ Value.maxDepth → v.Sized →
      ∃ bs, encodeValue v = .ok bs ∧ ∀ rest, decodeValue (bs ++ rest) = .ok v) ∧
    (∀ r : Request, r.nesting ≤ Value.maxDepth → r.Sized →
      ∃ bs, encodeRequest r = .ok bs ∧ ∀ rest, decodeRequest (bs ++ rest) = .ok r) ∧
    (∀ r : Reply, Reply.nesting r ≤ Value.maxDepth → Reply.Sized r →
      ∃ bs, encodeReply r = .ok bs ∧ ∀ rest, decodeReply (bs ++ rest) = .ok r) := by
  refine ⟨?_, ?_, ?_⟩
  · intro v hd hs
    obtain ⟨bs, hbs⟩ := valueBytes_ok hd
    exact ⟨bs, hbs, fun rest => (reads_value hbs hs).run rest⟩
  · intro r hd hs
    obtain ⟨bs, hbs⟩ := encodeRequest_ok hd
    exact ⟨bs, hbs, fun rest => (reads_request hbs hs).run rest⟩
  · intro r hd hs
    obtain ⟨bs, hbs⟩ : ∃ bs, encodeReply r = .ok bs := by
      cases r with
      | ok r => exact encodeReply_ok hd
      | error f => exact ⟨_, rfl⟩
    exact ⟨bs, hbs, fun rest => (reads_reply hbs hs).run rest⟩

end Wire

/-- A value inside of so many lists. -/
def Value.nested (v : Value) : Nat → Value
  | 0 => v
  | n + 1 => .list [.int (Int64.ofNat n), v.nested n]

/-- As deep as allowed, with the least integer, a quiet float that is no number and a text of several
bytes for a character. -/
def Value.deepest : Value :=
  .nested (.list [.int (-9223372036854775808), .float ⟨0xFFF8000000000001⟩, .str "é\x00√"]) 63

theorem Wire.decode_append_of_encode_deepest :
    (Value.deepest.depth = Value.maxDepth ∧ Value.deepest.Sized ∧
      ∃ bs, Wire.encodeValue Value.deepest = .ok bs ∧
        ∀ rest, Wire.decodeValue (bs ++ rest) = .ok Value.deepest) ∧
    (∃ bs, Wire.encodeRequest (.act ⟨300⟩ (.serialize (some ⟨⟨0xFFFFFFFFFFFFFFFF⟩, 7⟩)
        ⟨⟨300⟩, 0xFFFFFFFF⟩)) = .ok bs ∧
      ∀ rest, Wire.decodeRequest (bs ++ rest) = .ok (.act ⟨300⟩ (.serialize
        (some ⟨⟨0xFFFFFFFFFFFFFFFF⟩, 7⟩) ⟨⟨300⟩, 0xFFFFFFFF⟩))) ∧
    (∃ bs, Wire.encodeReply (.error ⟨.ownership, "no"⟩) = .ok bs ∧
      ∀ rest, Wire.decodeReply (bs ++ rest) = .ok (.error ⟨.ownership, "no"⟩)) :=
  have hd : Value.deepest.depth = Value.maxDepth := by decide +kernel
  have hs : Value.deepest.Sized := by decide +kernel
  ⟨⟨hd, hs, Wire.decode_append_of_encode.1 _ (Nat.le_of_eq hd) hs⟩,
    Wire.decode_append_of_encode.2.1 _ (by decide) trivial,
    Wire.decode_append_of_encode.2.2 _ (by decide) (show Text.Sized "no" by decide +kernel)⟩

end InstancePool
