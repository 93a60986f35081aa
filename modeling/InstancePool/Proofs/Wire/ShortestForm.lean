import InstancePool.Proofs.Wire.NestingLimit

/-!
The written form is the shortest of all bytes from which something is read, and the only one of its
length. What else is accepted has superfluous groups in some number: a tag, a length, a key or an integer,
at any depth. So no more is read than there are bytes, whatever the lengths in them promise.
-/

namespace InstancePool

namespace Value

mutual

/-- How many values there are in a value, together with the bytes of its texts. -/
def content : Value → Nat
  | .str s => 1 + (Text.utf8Bytes s).length
  | .list items => 1 + contentList items
  | _ => 1

def contentList : List Value → Nat
  | [] => 0
  | v :: vs => v.content + contentList vs

end

end Value

/-- The values that an operation carries, the bytes of its texts and data, and its arguments. -/
def Op.content : Op → Nat
  | .global module name => (Text.utf8Bytes module).length + (Text.utf8Bytes name).length
  | .eval source => (Text.utf8Bytes source).length
  | .ofValue v => v.content
  | .attr _ name | .setAttr _ name _ => (Text.utf8Bytes name).length
  | .call _ args => args.length
  | .restore _ data => data.length
  | _ => 0

def Request.content : Request → Nat
  | .act _ op => op.content
  | _ => 0

def Response.content : Response → Nat
  | .value v => v.content
  | .bytes data => data.length
  | _ => 0

def Reply.content : Reply → Nat
  | .ok r => r.content
  | .error f => (Text.utf8Bytes f.message).length

namespace Wire

variable {α β : Type} {d : Decoder α} {F : α → List UInt8 → Prop} {bs bs' cs cs' : List UInt8}

/-- Bytes that are fewer than others, or the same. -/
def Tighter (cs bs : List UInt8) : Prop := cs.length < bs.length ∨ cs = bs

theorem Tighter.refl (bs : List UInt8) : Tighter bs bs := .inr rfl

theorem Tighter.length_le (h : Tighter cs bs) : cs.length ≤ bs.length := by
  rcases h with h | rfl
  · exact Nat.le_of_lt h
  · exact Nat.le_refl _

theorem Tighter.append (h : Tighter cs bs) (h' : Tighter cs' bs') :
    Tighter (cs ++ cs') (bs ++ bs') := by
  have hle := h.length_le
  have hle' := h'.length_le
  rcases h with hlt | rfl
  · exact .inl (by simp only [List.length_append]; omega)
  rcases h' with hlt' | rfl
  · exact .inl (by simp only [List.length_append]; omega)
  · exact .refl _

/-- Whatever bytes are read, what is made of them has a written form, from which it is read again; and that
form is shorter than the bytes, unless it is they. -/
def Tightens (d : Decoder α) (F : α → List UInt8 → Prop) : Prop :=
  ∀ bs a rest, d bs = .ok (a, rest) → ∃ used cs, bs = used ++ rest ∧ F a cs ∧ Reads d cs a ∧
    Tighter cs used

theorem tightens_pure {a : α} (h : F a []) : Tightens (pure a) F := by
  intro bs b rest hok
  cases hok
  exact ⟨[], [], rfl, h, Reads.ret a, .refl []⟩

theorem tightens_fail (e : DecodeError) : Tightens (Decoder.fail e) F := nofun

/-- The form of the whole is that of the first part, followed by that of the second. -/
theorem Tightens.bind {G : β → List UInt8 → Prop} {f : α → Decoder β} (hd : Tightens d F)
    (hf : ∀ a cs, F a cs → Tightens (f a) fun b cs' => G b (cs ++ cs')) : Tightens (d >>= f) G := by
  intro bs b rest hok
  obtain ⟨a, mid, ha, hb⟩ := Decoder.bind_eq_ok.1 hok
  obtain ⟨used, cs, rfl, hF, hread, htight⟩ := hd bs a mid ha
  obtain ⟨used', cs', rfl, hG, hread', htight'⟩ := hf a cs hF mid b rest hb
  exact ⟨used ++ used', cs ++ cs', (List.append_assoc ..).symm, hG, hread.bind hread',
    htight.append htight'⟩

theorem Tightens.map {G : β → List UInt8 → Prop} {f : α → β} (hd : Tightens d F)
    (hf : ∀ a cs, F a cs → G (f a) cs) : Tightens (f <$> d) G := by
  rw [map_eq_pure_bind]
  refine hd.bind fun a cs hF => tightens_pure ?_
  rw [List.append_nil]
  exact hf a cs hF

/-- Two parts that are written one after the other. -/
theorem Tightens.pair {γ : Type} {e : Decoder β} {item : α → List UInt8} {item' : β → List UInt8}
    {G : γ → List UInt8 → Prop} {f : α → β → γ} (hd : Tightens d fun a cs => cs = item a)
    (he : Tightens e fun b cs => cs = item' b) (hf : ∀ a b, G (f a b) (item a ++ item' b)) :
    Tightens (do let a ← d; let b ← e; pure (f a b)) G := by
  refine hd.bind fun a cs hcs => he.bind fun b cs' hcs' => tightens_pure ?_
  rw [hcs, hcs', List.append_nil]
  exact hf a b

theorem Tightens.mono {G : α → List UInt8 → Prop} (hd : Tightens d F)
    (h : ∀ a cs, F a cs → G a cs) : Tightens d G := by
  intro bs a rest hok
  obtain ⟨used, cs, hbs, hF, hread⟩ := hd bs a rest hok
  exact ⟨used, cs, hbs, h a cs hF, hread⟩

theorem Tightens.replicate {G : List α → List UInt8 → Prop} (hd : Tightens d F) (hnil : G [] [])
    (hcons : ∀ a cs as cs', F a cs → G as cs' → G (a :: as) (cs ++ cs')) (n : Nat) :
    Tightens (Decoder.replicate d n) fun as cs => as.length = n ∧ G as cs := by
  induction n with
  | zero => exact tightens_pure ⟨rfl, hnil⟩
  | succ n ih =>
    refine hd.bind fun a cs hF => ih.bind fun as cs' ⟨hlen, hG⟩ => tightens_pure ?_
    rw [List.append_nil]
    exact ⟨congrArg Nat.succ hlen, hcons a cs as cs' hF hG⟩

/-! ### Numbers, texts and sequences -/

theorem tightens_byte : Tightens Decoder.byte fun n cs => ∃ b : UInt8, n = b.toNat ∧ cs = [b] := by
  intro bs n rest hok
  cases bs with
  | nil => cases hok
  | cons b bs =>
    cases hok
    exact ⟨[b], [b], rfl, ⟨b, rfl, rfl⟩, reads_byte b, .refl _⟩

theorem tightens_take (n : Nat) : Tightens (Decoder.take n) fun data cs => data.length = n ∧ cs = data := by
  intro bs data rest hok
  unfold Decoder.take at hok
  split at hok
  · cases hok
  · rename_i hn
    cases hok
    have hlen : (bs.take n).length = n := by
      rw [List.length_take]
      omega
    refine ⟨bs.take n, bs.take n, (List.take_append_drop n bs).symm, ⟨hlen, rfl⟩, ?_, .refl _⟩
    have hread := reads_take (bs.take n)
    rwa [hlen] at hread

/-- A group is superfluous if nothing is left for those after it. -/
theorem tightens_varint {last : Nat} (hl : last < 128) (more : Nat) :
    Tightens (varint last more) fun n cs =>
      n < (last + 1) * 128 ^ more ∧ cs = varintBytes more n := by
  -- Within the bound, what is written is read; it is left to compare the bytes.
  suffices h : ∀ bs n rest, varint last more bs = .ok (n, rest) → ∃ used, bs = used ++ rest ∧
      n < (last + 1) * 128 ^ more ∧ Tighter (varintBytes more n) used by
    intro bs n rest hok
    obtain ⟨used, hbs, hn, htight⟩ := h bs n rest hok
    exact ⟨used, _, hbs, ⟨hn, rfl⟩, reads_varint last (by omega) more n hn, htight⟩
  intro bs n rest hok
  induction more generalizing bs n rest with
  | zero =>
    obtain ⟨b, rfl, rfl, hle⟩ := varint_zero_ok hok
    refine ⟨[b], rfl, by omega, ?_⟩
    rw [varintBytes, UInt8.ofNat_toNat]
    exact .refl _
  | succ more ih =>
    obtain ⟨b, mid, rfl, hcases⟩ := varint_succ_ok hok
    have hpos : 0 < (last + 1) * 128 ^ more := Nat.mul_pos (Nat.succ_pos _) (Nat.pow_pos (by decide))
    rw [Nat.pow_succ, ← Nat.mul_assoc]
    rcases hcases with ⟨hlt, rfl, rfl⟩ | ⟨hge, high, hhigh, rfl⟩
    · refine ⟨[b], rfl, by omega, ?_⟩
      rw [varintBytes, if_pos hlt, UInt8.ofNat_toNat]
      exact .refl _
    · have hmid := length_lt_of_varint hhigh
      obtain ⟨used, rfl, hn, htight⟩ := ih mid high rest hhigh
      have hb := b.toNat_lt
      refine ⟨b :: used, rfl, by omega, ?_⟩
      rw [List.length_append] at hmid
      -- With nothing in the groups above, the lowest one would have done alone.
      rcases Nat.eq_zero_or_pos high with rfl | hhigh
      · have hlow : b.toNat - 128 + 128 * 0 < 128 := by omega
        rw [varintBytes, if_pos hlow]
        exact .inl (by simp only [List.length_cons, List.length_nil]; omega)
      · have hmore : ¬ b.toNat - 128 + 128 * high < 128 := by omega
        have hlow : (b.toNat - 128 + 128 * high) % 128 + 128 = b.toNat := by omega
        have hrest : (b.toNat - 128 + 128 * high) / 128 = high := by omega
        rw [varintBytes, if_neg hmore, hlow, hrest, UInt8.ofNat_toNat]
        exact Tighter.append (.refl [b]) htight

theorem tightens_nat64 : Tightens nat64 fun n cs => n < 2 ^ 64 ∧ cs = bytesOfNat64 n :=
  (tightens_varint (by decide) 9).mono fun _ _ h => ⟨h.1, h.2⟩

theorem tightens_nat32 : Tightens nat32 fun n cs => n < 2 ^ 32 ∧ cs = bytesOfNat32 n :=
  (tightens_varint (by decide) 4).mono fun _ _ h => ⟨h.1, h.2⟩

theorem tightens_uint64 : Tightens uint64 fun n cs => cs = bytesOfUInt64 n :=
  tightens_nat64.map fun n cs ⟨hn, hcs⟩ => by
    rw [bytesOfUInt64, UInt64.toNat_ofNat_of_lt' hn]
    exact hcs

theorem tightens_uint32 : Tightens uint32 fun n cs => cs = bytesOfUInt32 n :=
  tightens_nat32.map fun n cs ⟨hn, hcs⟩ => by
    rw [bytesOfUInt32, UInt32.toNat_ofNat_of_lt' hn]
    exact hcs

theorem zigzag_unzigzag (n : Nat) : zigzag (unzigzag n) = n := by
  unfold unzigzag zigzag
  split <;> split <;> omega

theorem unzigzag_bounds {n : Nat} (h : n < 2 ^ 64) :
    -2 ^ 63 ≤ unzigzag n ∧ unzigzag n < 2 ^ 63 := by
  unfold unzigzag
  split <;> omega

theorem tightens_int64 : Tightens int64 fun i cs => cs = bytesOfInt64 i :=
  tightens_nat64.map fun n cs ⟨hn, hcs⟩ => by
    have hbounds := unzigzag_bounds hn
    rw [bytesOfInt64, Int64.toInt_ofInt_of_le hbounds.1 hbounds.2, zigzag_unzigzag]
    exact hcs

theorem littleEndian_ofLittleEndian (bs : List UInt8) :
    littleEndian bs.length (ofLittleEndian bs) = bs := by
  induction bs with
  | nil => rfl
  | cons b bs ih =>
    have hb := b.toNat_lt
    have hlow : (b.toNat + 256 * ofLittleEndian bs) % 256 = b.toNat := by omega
    have hrest : (b.toNat + 256 * ofLittleEndian bs) / 256 = ofLittleEndian bs := by omega
    rw [List.length_cons, ofLittleEndian, littleEndian, hlow, hrest, ih, UInt8.ofNat_toNat]

theorem ofLittleEndian_lt (bs : List UInt8) : ofLittleEndian bs < 256 ^ bs.length := by
  induction bs with
  | nil => exact Nat.one_pos
  | cons b bs ih =>
    have hb := b.toNat_lt
    rw [ofLittleEndian, List.length_cons, Nat.pow_succ]
    omega

theorem tightens_float : Tightens float fun x cs => cs = bytesOfFloat x :=
  (tightens_take 8).map fun data cs ⟨hlen, hcs⟩ => by
    have hlt := ofLittleEndian_lt data
    rw [hlen] at hlt
    rw [bytesOfFloat, UInt64.toNat_ofNat_of_lt' hlt, ← hlen, littleEndian_ofLittleEndian]
    exact hcs

theorem tightens_bool : Tightens bool fun b cs => cs = bytesOfBool b := by
  refine tightens_byte.bind fun n cs hbyte => ?_
  obtain ⟨b, hn, rfl⟩ := hbyte
  split
  · exact tightens_pure (congrArg (fun b => [b]) (UInt8.toNat_inj.1 hn.symm))
  · exact tightens_pure (congrArg (fun b => [b]) (UInt8.toNat_inj.1 hn.symm))
  · exact tightens_fail .badBool

theorem tightens_bytes : Tightens bytes fun data cs => cs = bytesOfBytes data :=
  tightens_nat64.bind fun n cs hcs => (tightens_take n).mono fun data cs' hdata => by
    rw [bytesOfBytes, hdata.1, hcs.2, hdata.2]

theorem utf8Bytes_of_ofUtf8? {data : List UInt8} {s : String} (h : Text.ofUtf8? data = some s) :
    Text.utf8Bytes s = data := by
  unfold Text.ofUtf8? String.fromUTF8? at h
  split at h
  · cases h
    rfl
  · cases h

theorem tightens_text : Tightens text fun s cs => cs = bytesOfText s := by
  refine tightens_bytes.bind fun data cs hcs => ?_
  split
  · rename_i s hs
    refine tightens_pure ?_
    rw [List.append_nil, bytesOfText, utf8Bytes_of_ofUtf8? hs, hcs]
  · exact tightens_fail .badText

theorem Tightens.option {item : α → List UInt8} (hd : Tightens d fun a cs => cs = item a) :
    Tightens (Wire.option d) fun o cs => cs = bytesOfOption item o := by
  refine tightens_byte.bind fun n cs hbyte => ?_
  obtain ⟨b, hn, rfl⟩ := hbyte
  split
  · exact tightens_pure (congrArg (fun b => [b]) (UInt8.toNat_inj.1 hn.symm))
  · obtain rfl : b = 1 := UInt8.toNat_inj.1 hn.symm
    exact hd.map fun a cs hcs => by rw [hcs]; rfl
  · exact tightens_fail .badOption

theorem Tightens.list {item : α → List UInt8} (hd : Tightens d fun a cs => cs = item a) :
    Tightens (Wire.list d) fun as cs => cs = bytesOfList item as := by
  refine tightens_nat64.bind fun n cs hcs => ?_
  have hitems : Tightens (Decoder.replicate d n) fun as cs => as.length = n ∧ cs = as.flatMap item :=
    hd.replicate rfl (fun a cs as cs' hcs hcs' => by rw [List.flatMap_cons, hcs, hcs']) n
  exact hitems.mono fun as cs' has => by rw [bytesOfList, has.1, hcs.2, has.2]

/-! ### Values and messages -/

/-- The items of a list have one list less around them. -/
theorem tightens_value (depth : Nat) :
    Tightens (value depth) fun v cs => valueBytes depth v = .ok cs := by
  unfold value
  refine tightens_nat32.bind fun tag cs htag => ?_
  obtain ⟨-, rfl⟩ := htag
  split
  · refine tightens_pure ?_
    rw [List.append_nil]
    rfl
  · exact tightens_bool.map fun b cs hcs => by rw [hcs]; rfl
  · exact tightens_int64.map fun i cs hcs => by rw [hcs]; rfl
  · exact tightens_float.map fun x cs hcs => by rw [hcs]; rfl
  · exact tightens_text.map fun s cs hcs => by rw [hcs]; rfl
  -- A list is read with the limit that is left for its items, and written with the same one.
  · cases depth with
    | zero => exact tightens_fail .malformed
    | succ depth =>
      have hitems (n : Nat) : Tightens (Decoder.replicate (value depth) n) fun vs cs =>
          vs.length = n ∧ itemsBytes depth vs = .ok cs :=
        (tightens_value depth).replicate rfl
          (fun v cs vs cs' hv hvs => by simp only [itemsBytes, hv, hvs, Except.map]) n
      have hlist : Tightens (list (value depth)) fun vs cs =>
          ∃ content, itemsBytes depth vs = .ok content ∧ cs = bytesOfNat64 vs.length ++ content :=
        tightens_nat64.bind fun n cs hcs => (hitems n).mono fun vs cs' hvs =>
          ⟨cs', hvs.2, by rw [hcs.2, hvs.1]⟩
      refine hlist.map fun vs cs hvs => ?_
      obtain ⟨content, hvs, hcs⟩ := hvs
      simp only [valueBytes, hvs, Except.map, hcs, List.append_assoc]
  · exact tightens_fail .malformed

theorem tightens_key : Tightens key fun k cs => cs = bytesOfKey k :=
  tightens_uint64.map fun _ _ hcs => hcs

theorem tightens_objectId : Tightens objectId fun id cs => cs = bytesOfId id :=
  tightens_uint64.map fun _ _ hcs => hcs

theorem tightens_ref : Tightens ref fun r cs => cs = bytesOfRef r :=
  tightens_key.pair tightens_uint32 fun _ _ => rfl

/-- An operation is read under its own number. -/
theorem tightens_op (depth index : Nat) :
    Tightens (op depth index) fun o cs => opIndex o = index ∧ opBytes depth o = .ok cs := by
  unfold op
  split
  · exact tightens_text.pair tightens_text fun _ _ => ⟨rfl, rfl⟩
  · exact tightens_text.map fun source cs hcs => ⟨rfl, by rw [hcs]; rfl⟩
  · exact (tightens_value depth).map fun v cs hcs => ⟨rfl, hcs⟩
  · exact tightens_ref.map fun target cs hcs => ⟨rfl, by rw [hcs]; rfl⟩
  · exact tightens_ref.pair tightens_text fun _ _ => ⟨rfl, rfl⟩
  · refine tightens_ref.bind fun target cs hcs => tightens_text.bind fun name cs' hcs' =>
      tightens_ref.bind fun v cs'' hcs'' => tightens_pure ⟨rfl, ?_⟩
    rw [hcs, hcs', hcs'', List.append_nil, ← List.append_assoc]
    rfl
  · exact tightens_ref.pair tightens_ref.list fun _ _ => ⟨rfl, rfl⟩
  · exact tightens_ref.map fun target cs hcs => ⟨rfl, by rw [hcs]; rfl⟩
  · exact tightens_ref.option.pair tightens_ref fun _ _ => ⟨rfl, rfl⟩
  · exact tightens_objectId.pair tightens_bytes fun _ _ => ⟨rfl, rfl⟩
  · exact tightens_objectId.map fun id cs hcs => ⟨rfl, by rw [hcs]; rfl⟩
  · exact tightens_fail .malformed

theorem tightens_request (depth : Nat) :
    Tightens (request depth) fun r cs => requestBytes depth r = .ok cs := by
  refine tightens_nat32.bind fun index cs hindex => ?_
  obtain ⟨-, rfl⟩ := hindex
  split
  · rename_i hindex
    refine tightens_pure ?_
    rw [hindex, List.append_nil]
    rfl
  · split
    · rename_i hindex
      exact tightens_key.map fun session cs hcs => by rw [hindex, hcs]; rfl
    · split
      · refine tightens_key.bind fun session cs hcs => (tightens_op depth index).map fun o cs' ho => ?_
        obtain ⟨hindex, hcontent⟩ := ho
        simp only [requestBytes, hcontent, Except.map, hindex, hcs, List.append_assoc]
      · exact tightens_fail .malformed

theorem tightens_response (depth : Nat) :
    Tightens (response depth) fun r cs => responseBytes depth r = .ok cs := by
  refine tightens_nat32.bind fun index cs hindex => ?_
  obtain ⟨-, rfl⟩ := hindex
  split
  · refine tightens_pure ?_
    rw [List.append_nil]
    rfl
  · exact tightens_key.map fun k cs hcs => by rw [hcs]; rfl
  · exact tightens_ref.map fun r cs hcs => by rw [hcs]; rfl
  · exact (tightens_value depth).map fun v cs hv => by simp only [responseBytes, hv, Except.map]
  · exact tightens_bool.map fun b cs hcs => by rw [hcs]; rfl
  · exact tightens_bytes.map fun data cs hcs => by rw [hcs]; rfl
  · exact tightens_fail .malformed

theorem tightens_faultKind :
    Tightens faultKind fun k cs => cs = bytesOfNat32 (faultKindIndex k) := by
  refine tightens_nat32.bind fun index cs hindex => ?_
  obtain ⟨-, rfl⟩ := hindex
  split
  · exact tightens_pure (List.append_nil _)
  · exact tightens_pure (List.append_nil _)
  · exact tightens_pure (List.append_nil _)
  · exact tightens_pure (List.append_nil _)
  · exact tightens_fail .malformed

theorem tightens_fault : Tightens fault fun f cs => cs = bytesOfFault f :=
  tightens_faultKind.pair tightens_text fun _ _ => rfl

theorem tightens_reply (depth : Nat) :
    Tightens (reply depth) fun r cs => replyBytes depth r = .ok cs := by
  refine tightens_nat32.bind fun index cs hindex => ?_
  obtain ⟨-, rfl⟩ := hindex
  split
  · exact (tightens_response depth).map fun r cs hr => by simp only [replyBytes, hr, Except.map]
  · exact tightens_fault.map fun f cs hcs => by rw [hcs]; rfl
  · exact tightens_fail .malformed

/-! ### What is in the bytes -/

theorem contentList_le {depth : Nat} {vs : List Value}
    (hd : ∀ v cs, valueBytes depth v = .ok cs → v.content ≤ cs.length)
    (h : itemsBytes depth vs = .ok bs) : Value.contentList vs ≤ bs.length := by
  induction vs generalizing bs with
  | nil => exact Nat.zero_le _
  | cons v vs ih =>
    obtain ⟨first, rest, hv, hvs, rfl⟩ := itemsBytes_cons h
    have hfirst := hd v first hv
    have hrest := ih hvs
    rw [Value.contentList, List.length_append]
    omega

theorem length_utf8Bytes_le_bytesOfText (s : String) :
    (Text.utf8Bytes s).length ≤ (bytesOfText s).length := by
  rw [bytesOfText, bytesOfBytes, List.length_append]
  exact Nat.le_add_left _ _

/-- The tag of a text stands for the value, and its bytes for themselves. -/
theorem content_le_of_str (s : String) :
    (Value.str s).content ≤ (bytesOfNat32 4 ++ bytesOfText s).length := by
  have htag := length_bytesOfNat32_pos 4
  have htext := length_utf8Bytes_le_bytesOfText s
  rw [Value.content, List.length_append]
  omega

/-- Every value in a value has a tag, and every byte of a text stands for itself. -/
theorem content_le_of_valueBytes {depth : Nat} {v : Value} (h : valueBytes depth v = .ok bs) :
    v.content ≤ bs.length := by
  have hpos := length_valueBytes_pos h
  induction depth generalizing v bs with
  | zero =>
    cases v with
    | str s =>
      obtain rfl := Except.ok.inj h
      exact content_le_of_str s
    | list items => cases h
    | _ => exact hpos
  | succ depth ih =>
    cases v with
    | str s =>
      obtain rfl := Except.ok.inj h
      exact content_le_of_str s
    | list items =>
      obtain ⟨content, hi, rfl⟩ := valueBytes_list h
      have htag := length_bytesOfNat32_pos 5
      have hitems := contentList_le (fun v cs hv => ih hv (length_valueBytes_pos hv)) hi
      rw [Value.content, List.length_append, List.length_append]
      omega
    | _ => exact hpos

theorem content_le_of_opBytes {depth : Nat} {o : Op} (h : opBytes depth o = .ok bs) :
    o.content ≤ bs.length := by
  -- What is written besides the content only makes it longer.
  cases o with
  | ofValue v => exact content_le_of_valueBytes h
  | global module name =>
    obtain rfl := Except.ok.inj h
    have hmodule := length_utf8Bytes_le_bytesOfText module
    have hname := length_utf8Bytes_le_bytesOfText name
    rw [Op.content, List.length_append]
    omega
  | eval source =>
    obtain rfl := Except.ok.inj h
    exact length_utf8Bytes_le_bytesOfText source
  | attr target name =>
    obtain rfl := Except.ok.inj h
    have hname := length_utf8Bytes_le_bytesOfText name
    rw [Op.content, List.length_append]
    omega
  | setAttr target name v =>
    obtain rfl := Except.ok.inj h
    have hname := length_utf8Bytes_le_bytesOfText name
    rw [Op.content, List.length_append, List.length_append]
    omega
  | call callee args =>
    obtain rfl := Except.ok.inj h
    have hargs := length_le_flatMap args length_bytesOfRef_pos
    rw [Op.content, bytesOfList, List.length_append, List.length_append]
    omega
  | restore id data =>
    obtain rfl := Except.ok.inj h
    rw [Op.content, bytesOfBytes, List.length_append, List.length_append]
    omega
  | toValue | isOwner | serialize | unload => exact Nat.zero_le _

theorem content_le_of_requestBytes {depth : Nat} {r : Request} (h : requestBytes depth r = .ok bs) :
    r.content ≤ bs.length := by
  cases r with
  | act session o =>
    obtain ⟨content, ho, rfl⟩ := requestBytes_act h
    have hcontent := content_le_of_opBytes ho
    rw [Request.content, List.length_append, List.length_append]
    omega
  | openSession | closeSession => exact Nat.zero_le _

theorem content_le_of_responseBytes {depth : Nat} {r : Response} (h : responseBytes depth r = .ok bs) :
    r.content ≤ bs.length := by
  cases r with
  | value v =>
    obtain ⟨content, hv, rfl⟩ := responseBytes_value h
    have hcontent := content_le_of_valueBytes hv
    rw [Response.content, List.length_append]
    omega
  | bytes data =>
    obtain rfl := Except.ok.inj h
    rw [Response.content, bytesOfBytes, List.length_append, List.length_append]
    omega
  | unit | session | ref | bool => exact Nat.zero_le _

theorem content_le_of_replyBytes {depth : Nat} {r : Reply} (h : replyBytes depth r = .ok bs) :
    Reply.content r ≤ bs.length := by
  cases r with
  | ok r =>
    obtain ⟨content, hr, rfl⟩ := replyBytes_response h
    have hcontent := content_le_of_responseBytes hr
    rw [Reply.content, List.length_append]
    omega
  | error f =>
    obtain rfl := Except.ok.inj h
    have hmessage := length_utf8Bytes_le_bytesOfText f.message
    rw [Reply.content, bytesOfFault, List.length_append, List.length_append]
    omega

/-- Whatever bytes a message is decoded from, `reader` uses up the first `k` of them. To encode the message
succeeds, and what comes of it decodes to the message again; it has no more than `k` bytes, and if it has
as many, it is those bytes. There is no more in the message than bytes that were used. -/
def EncodesShortest (encode : α → Except EncodeError (List UInt8))
    (decode : List UInt8 → Except DecodeError α) (reader : Decoder α) (content : α → Nat) : Prop :=
  ∀ bs a, decode bs = .ok a → ∃ k ≤ bs.length, reader bs = .ok (a, bs.drop k) ∧
    ∃ cs, encode a = .ok cs ∧ decode cs = .ok a ∧ cs.length ≤ k ∧ (cs.length = k → cs = bs.take k) ∧
      content a ≤ k

theorem Tightens.encodesShortest {encode : α → Except EncodeError (List UInt8)} {content : α → Nat}
    (hd : Tightens d fun a cs => encode a = .ok cs)
    (hc : ∀ a cs, encode a = .ok cs → content a ≤ cs.length) :
    EncodesShortest encode d.run d content := by
  intro bs a hok
  obtain ⟨rest, hrest⟩ := Decoder.run_eq_ok.1 hok
  obtain ⟨used, cs, rfl, henc, hread, htight⟩ := hd bs a rest hrest
  have hle := htight.length_le
  have hcontent := hc a cs henc
  have hagain := hread.run []
  rw [List.append_nil] at hagain
  refine ⟨used.length, ?_, ?_, cs, henc, hagain, hle, fun heq => ?_, Nat.le_trans hcontent hle⟩
  · rw [List.length_append]
    exact Nat.le_add_right _ _
  · rw [List.drop_left, hrest]
  · rw [List.take_left]
    exact htight.resolve_left (by omega)

/-- The written forms of values, requests and replies are the shortest of all bytes that are decoded as
these, and the only ones so short. -/
theorem messages_encodeShortest :
    EncodesShortest encodeValue decodeValue (value Value.maxDepth) Value.content ∧
      EncodesShortest encodeRequest decodeRequest (request Value.maxDepth) Request.content ∧
      EncodesShortest encodeReply decodeReply (reply Value.maxDepth) Reply.content :=
  ⟨(tightens_value _).encodesShortest fun _ _ => content_le_of_valueBytes,
    (tightens_request _).encodesShortest fun _ _ => content_le_of_requestBytes,
    (tightens_reply _).encodesShortest fun _ _ => content_le_of_replyBytes⟩

/-- A list of one integer, whose tag, length and zigzag number have a superfluous group each. -/
example : decodeValue [133, 0, 129, 0, 2, 131, 0, 9] = .ok (.list [.int (-2)]) ∧
    encodeValue (.list [.int (-2)]) = .ok [5, 1, 2, 3] := by
  decide +kernel

end Wire

end InstancePool
