import InstancePool.Wire.Message
import InstancePool.Proofs.Text.Utf8

/-!
What the decoders of numbers, texts, bytes and lists read. Each reads off what the encoder for the same
kind of thing wrote, and leaves the rest.
-/

namespace InstancePool.Wire

variable {α β : Type}

theorem Decoder.run_eq_ok {d : Decoder α} {bs : List UInt8} {a : α} :
    d.run bs = .ok a ↔ ∃ rest, d bs = .ok (a, rest) := by
  unfold Decoder.run
  rcases d bs with e | ⟨b, rest⟩
  · refine iff_of_false (fun h => by cases h) fun h => ?_
    obtain ⟨_, h⟩ := h
    cases h
  · constructor
    · intro h
      cases h
      exact ⟨rest, rfl⟩
    · rintro ⟨_, h⟩
      cases h
      rfl

/-- A decoder reads `a` off the bytes `bs`, whatever follows them. -/
def Reads (d : Decoder α) (bs : List UInt8) (a : α) : Prop :=
  ∀ rest, d (bs ++ rest) = .ok (a, rest)

namespace Reads

theorem ret (a : α) : Reads (pure a) [] a := fun _ => rfl

theorem first {d : Decoder α} {bs : List UInt8} {a : α} (hd : Reads d bs a) (f : α → Decoder β)
    (rest : List UInt8) : (d >>= f) (bs ++ rest) = f a rest := by
  change (d (bs ++ rest) >>= fun x => f x.1 x.2) = _
  rw [hd]
  rfl

theorem bind {d : Decoder α} {f : α → Decoder β} {bs cs : List UInt8} {a : α} {b : β}
    (hd : Reads d bs a) (hf : Reads (f a) cs b) : Reads (d >>= f) (bs ++ cs) b := by
  intro rest
  rw [List.append_assoc, hd.first]
  exact hf rest

theorem map {d : Decoder α} {bs : List UInt8} {a : α} (f : α → β) (hd : Reads d bs a) :
    Reads (f <$> d) bs (f a) := by
  intro rest
  change (d (bs ++ rest) >>= fun x => pure (f x.1, x.2)) = _
  rw [hd]
  rfl

theorem run {d : Decoder α} {bs : List UInt8} {a : α} (hd : Reads d bs a) (rest : List UInt8) :
    d.run (bs ++ rest) = .ok a := by
  rw [Decoder.run, hd]
  rfl

end Reads

theorem reads_byte (b : UInt8) : Reads Decoder.byte [b] b.toNat := fun _ => rfl

theorem reads_take (data : List UInt8) : Reads (Decoder.take data.length) data data := by
  intro rest
  have h : ¬ (data ++ rest).length < data.length := by
    simp only [List.length_append]; omega
  simp [Decoder.take]

/-- A decoder that starts with a byte reads it and goes on. -/
theorem Reads.cons {f : Nat → Decoder β} {b : UInt8} {bs : List UInt8} {a : β}
    (h : Reads (f b.toNat) bs a) : Reads (Decoder.byte >>= f) (b :: bs) a :=
  (reads_byte b).bind h

theorem reads_replicate {d : Decoder α} (item : α → List UInt8) (items : List α)
    (h : ∀ a ∈ items, Reads d (item a) a) :
    Reads (Decoder.replicate d items.length) (items.flatMap item) items := by
  induction items with
  | nil => exact Reads.ret []
  | cons a items ih =>
    have hrest := ih fun b hb => h b (List.mem_cons_of_mem a hb)
    rw [List.flatMap_cons, ← List.append_nil (items.flatMap item)]
    exact (h a List.mem_cons_self).bind (hrest.bind (Reads.ret (a :: items)))

theorem toNat_ofNat_byte {n : Nat} (h : n < 256) : (UInt8.ofNat n).toNat = n := by
  simp [Nat.mod_eq_of_lt h]

theorem reads_varint (last : Nat) (hl : last < 256) (more n : Nat)
    (hn : n < (last + 1) * 128 ^ more) : Reads (varint last more) (varintBytes more n) n := by
  induction more generalizing n with
  | zero =>
    have hle : n ≤ last := by omega
    apply Reads.cons
    rw [toNat_ofNat_byte (by omega), if_pos hle]
    exact Reads.ret n
  | succ more ih =>
    unfold varint varintBytes
    by_cases hs : n < 128
    · rw [if_pos hs]
      apply Reads.cons
      rw [toNat_ofNat_byte (by omega), if_pos hs]
      exact Reads.ret n
    · have hh : n / 128 < (last + 1) * 128 ^ more := by
        apply Nat.div_lt_of_lt_mul
        calc n < (last + 1) * (128 ^ more * 128) := by rwa [← Nat.pow_succ]
          _ = 128 * ((last + 1) * 128 ^ more) := by ac_rfl
      have hge : ¬ n % 128 + 128 < 128 := by omega
      have hsum : n % 128 + 128 - 128 + 128 * (n / 128) = n := by omega
      rw [if_neg hs]
      apply Reads.cons
      rw [toNat_ofNat_byte (by omega), if_neg hge, ← List.append_nil (varintBytes more (n / 128))]
      apply (ih (n / 128) hh).bind
      rw [hsum]
      exact Reads.ret n

theorem reads_nat64 {n : Nat} (h : n < 2 ^ 64) : Reads nat64 (bytesOfNat64 n) n :=
  reads_varint 1 (by decide) 9 n (by omega)

theorem reads_nat32 {n : Nat} (h : n < 2 ^ 32) : Reads nat32 (bytesOfNat32 n) n :=
  reads_varint 15 (by decide) 4 n (by omega)

theorem reads_uint64 (n : UInt64) : Reads uint64 (bytesOfUInt64 n) n := by
  have h := (reads_nat64 n.toNat_lt).map UInt64.ofNat
  rwa [UInt64.ofNat_toNat] at h

theorem reads_uint32 (n : UInt32) : Reads uint32 (bytesOfUInt32 n) n := by
  have h := (reads_nat32 n.toNat_lt).map UInt32.ofNat
  rwa [UInt32.ofNat_toNat] at h

theorem unzigzag_zigzag (i : Int) : unzigzag (zigzag i) = i := by
  unfold unzigzag zigzag
  by_cases h : 0 ≤ i
  · have he : 2 * i.toNat % 2 = 0 := by omega
    rw [if_pos h, if_pos he]
    omega
  · have ho : ¬ (2 * (-i).toNat - 1) % 2 = 0 := by omega
    rw [if_neg h, if_neg ho]
    omega

theorem zigzag_lt (i : Int64) : zigzag i.toInt < 2 ^ 64 := by
  have h1 := i.le_toInt
  have h2 := i.toInt_lt
  unfold zigzag
  split <;> omega

theorem reads_int64 (i : Int64) : Reads int64 (bytesOfInt64 i) i := by
  have h := (reads_nat64 (zigzag_lt i)).map fun n => Int64.ofInt (unzigzag n)
  rwa [unzigzag_zigzag, Int64.ofInt_toInt] at h

theorem reads_bool (b : Bool) : Reads bool (bytesOfBool b) b := by
  cases b
  · exact Reads.cons (Reads.ret false)
  · exact Reads.cons (Reads.ret true)

theorem length_littleEndian (count n : Nat) : (littleEndian count n).length = count := by
  induction count generalizing n with
  | zero => rfl
  | succ count ih => rw [littleEndian, List.length_cons, ih]

theorem ofLittleEndian_littleEndian (count n : Nat) (h : n < 256 ^ count) :
    ofLittleEndian (littleEndian count n) = n := by
  induction count generalizing n with
  | zero =>
    have : n = 0 := by omega
    rw [this, littleEndian, ofLittleEndian]
  | succ count ih =>
    have hd : n / 256 < 256 ^ count := by
      apply Nat.div_lt_of_lt_mul
      rwa [Nat.mul_comm, ← Nat.pow_succ]
    rw [littleEndian, ofLittleEndian, toNat_ofNat_byte (by omega), ih _ hd]
    omega

theorem reads_float (x : Binary64) : Reads float (bytesOfFloat x) x := by
  have hb : x.bits.toNat < 256 ^ 8 := x.bits.toNat_lt
  have h := (reads_take (bytesOfFloat x)).map fun bs =>
    (⟨UInt64.ofNat (ofLittleEndian bs)⟩ : Binary64)
  rw [show (bytesOfFloat x).length = 8 from length_littleEndian 8 _] at h
  rwa [bytesOfFloat, ofLittleEndian_littleEndian 8 _ hb, UInt64.ofNat_toNat] at h

theorem reads_bytes {data : List UInt8} (h : data.length < 2 ^ 64) :
    Reads bytes (bytesOfBytes data) data :=
  (reads_nat64 h).bind (reads_take data)

theorem reads_text {s : String} (h : (Text.utf8Bytes s).length < 2 ^ 64) :
    Reads text (bytesOfText s) s := by
  unfold text bytesOfText
  rw [← List.append_nil (bytesOfBytes _)]
  apply (reads_bytes h).bind
  rw [Text.ofUtf8?_utf8Bytes]
  exact Reads.ret s

theorem reads_option {d : Decoder α} {item : α → List UInt8} {o : Option α}
    (h : ∀ a, o = some a → Reads d (item a) a) : Reads (option d) (bytesOfOption item o) o := by
  cases o with
  | none => exact Reads.cons (Reads.ret none)
  | some a => exact Reads.cons ((h a rfl).map some)

theorem reads_list {d : Decoder α} {item : α → List UInt8} {items : List α}
    (hl : items.length < 2 ^ 64) (h : ∀ a ∈ items, Reads d (item a) a) :
    Reads (list d) (bytesOfList item items) items :=
  (reads_nat64 hl).bind (reads_replicate item items h)

end InstancePool.Wire
