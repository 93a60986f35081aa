import InstancePool.Text.Utf8

/-!
Text survives its encoding, also where it is read leniently.
-/

namespace InstancePool.Text

theorem ofUtf8?_utf8Bytes (s : String) : ofUtf8? (utf8Bytes s) = some s := by
  have hv : s.toByteArray.IsValidUTF8 := s.isValidUTF8
  have he : (⟨(utf8Bytes s).toArray⟩ : ByteArray) = s.toByteArray := by
    simp [utf8Bytes, String.toUTF8]
  unfold ofUtf8? String.fromUTF8?
  rw [he, dif_pos hv]
  rfl

theorem utf8Bytes_eq_flatMap (s : String) : utf8Bytes s = s.toList.flatMap String.utf8EncodeChar := by
  have h : s.toByteArray = s.toList.utf8Encode := by
    rw [String.utf8Encode_toList]
  simp [utf8Bytes, String.toUTF8, h, List.utf8Encode]

theorem decodeFrom_cons (st : Utf8State) (b : UInt8) (bs : List UInt8) :
    decodeFrom st (b :: bs) = (readByte st b.toNat).1 ++ decodeFrom (readByte st b.toNat).2 bs := by
  cases st <;> rfl

theorem decodeFrom_more (code left lo hi n : Nat) (bs : List UInt8) (hn : n < 256) (hl : 1 < left)
    (h : lo ≤ n ∧ n ≤ hi) :
    decodeFrom (.inside code left lo hi) (UInt8.ofNat n :: bs) =
      decodeFrom (.inside (code * 64 + (n - 0x80)) (left - 1) 0x80 0xBF) bs := by
  have ht : (UInt8.ofNat n).toNat = n := by simp [Nat.mod_eq_of_lt hn]
  have h1 : left ≠ 1 := by omega
  rw [decodeFrom_cons, ht]
  simp [readByte, h, h1]

theorem decodeFrom_last (code lo hi n : Nat) (bs : List UInt8) (hn : n < 256)
    (h : lo ≤ n ∧ n ≤ hi) :
    decodeFrom (.inside code 1 lo hi) (UInt8.ofNat n :: bs) =
      Char.ofNat (code * 64 + (n - 0x80)) :: decodeFrom .between bs := by
  have ht : (UInt8.ofNat n).toNat = n := by simp [Nat.mod_eq_of_lt hn]
  rw [decodeFrom_cons, ht]
  simp [readByte, h]

theorem decodeFrom_lead (n : Nat) (bs : List UInt8) (hn : n < 256) :
    decodeFrom .between (UInt8.ofNat n :: bs) =
      (readLead n).1 ++ decodeFrom (readLead n).2 bs := by
  have ht : (UInt8.ofNat n).toNat = n := by simp [Nat.mod_eq_of_lt hn]
  rw [decodeFrom_cons, ht]
  rfl

/-- A byte that begins three of them: the second is kept away from what two bytes can say and from the
surrogates. -/
theorem readLead_three (n : Nat) (h : 0xE0 ≤ n ∧ n < 0xF0) :
    readLead n = ([], .inside (n - 0xE0) 2 (if n = 0xE0 then 0xA0 else 0x80)
      (if n = 0xED then 0x9F else 0xBF)) := by
  have h1 : ¬ n < 0x80 := by omega
  have h2 : ¬ n < 0xC2 := by omega
  have h3 : ¬ n < 0xE0 := by omega
  simp only [readLead, if_neg h1, if_neg h2, if_neg h3]
  by_cases he : n = 0xE0
  · simp [he]
  by_cases hd : n = 0xED
  · simp [hd]
  · simp [he, hd, h.2]

/-- A byte that begins four of them: the second is kept away from what three bytes can say and from what
lies beyond the last code point. -/
theorem readLead_four (n : Nat) (h : 0xF0 ≤ n ∧ n ≤ 0xF4) :
    readLead n = ([], .inside (n - 0xF0) 3 (if n = 0xF0 then 0x90 else 0x80)
      (if n = 0xF4 then 0x8F else 0xBF)) := by
  have h1 : ¬ n < 0x80 := by omega
  have h2 : ¬ n < 0xC2 := by omega
  have h3 : ¬ n < 0xE0 := by omega
  have h4 : ¬ n = 0xE0 := by omega
  have h5 : ¬ n = 0xED := by omega
  have h6 : ¬ n < 0xF0 := by omega
  simp only [readLead, if_neg h1, if_neg h2, if_neg h3, if_neg h4, if_neg h5, if_neg h6]
  by_cases he : n = 0xF0
  · simp [he]
  by_cases hl : n = 0xF4
  · simp [hl]
  · have h7 : n < 0xF4 := by omega
    simp [he, hl, h7]

theorem decodeFrom_encodeChar (c : Char) (bs : List UInt8) :
    decodeFrom .between (String.utf8EncodeChar c ++ bs) = c :: decodeFrom .between bs := by
  have hv : c.val.toNat < 0xD800 ∨ 0xDFFF < c.val.toNat ∧ c.val.toNat < 0x110000 := c.valid
  have hc : Char.ofNat c.val.toNat = c := Char.ofNat_toNat c
  unfold String.utf8EncodeChar
  generalize c.val.toNat = v at hv hc
  dsimp only
  -- One case for each length: every byte leads into the state that the next one is read in.
  by_cases h1 : v ≤ 127
  · have hl : v < 0x80 := by omega
    rw [if_pos h1, List.singleton_append, decodeFrom_lead v bs (by omega)]
    simp [readLead, hl, hc]
  by_cases h2 : v ≤ 2047
  · have hb : readLead (v / 64 % 32 + 192) = ([], .inside (v / 64) 1 0x80 0xBF) := by
      have e1 : ¬ v / 64 % 32 + 192 < 0x80 := by omega
      have e2 : ¬ v / 64 % 32 + 192 < 0xC2 := by omega
      have e3 : v / 64 % 32 + 192 < 0xE0 := by omega
      have e4 : v / 64 % 32 + 192 - 0xC0 = v / 64 := by omega
      simp only [readLead, if_neg e1, if_neg e2, if_pos e3, e4]
    rw [if_neg h1, if_pos h2, List.cons_append, List.singleton_append,
      decodeFrom_lead _ _ (by omega), hb, List.nil_append,
      decodeFrom_last _ _ _ _ _ (by omega) (by omega)]
    have e : v / 64 * 64 + (v % 64 + 128 - 0x80) = v := by omega
    rw [e, hc]
  by_cases h3 : v ≤ 65535
  · have hb := readLead_three (v / 4096 % 16 + 224) (by omega)
    -- The second byte is neither that of an overlong form nor that of a surrogate.
    have hlo : (if v / 4096 % 16 + 224 = 0xE0 then 0xA0 else 0x80) ≤ v / 64 % 64 + 128 := by
      split <;> omega
    have hhi : v / 64 % 64 + 128 ≤ (if v / 4096 % 16 + 224 = 0xED then 0x9F else 0xBF) := by
      split <;> omega
    rw [if_neg h1, if_neg h2, if_pos h3, List.cons_append, List.cons_append, List.singleton_append,
      decodeFrom_lead _ _ (by omega), hb, List.nil_append,
      decodeFrom_more _ _ _ _ _ _ (by omega) (by omega) ⟨hlo, hhi⟩,
      decodeFrom_last _ _ _ _ _ (by omega) (by omega)]
    have e : ((v / 4096 % 16 + 224 - 0xE0) * 64 + (v / 64 % 64 + 128 - 0x80)) * 64 +
        (v % 64 + 128 - 0x80) = v := by omega
    rw [e, hc]
  · have hb := readLead_four (v / 262144 % 8 + 240) (by omega)
    have hlo : (if v / 262144 % 8 + 240 = 0xF0 then 0x90 else 0x80) ≤ v / 4096 % 64 + 128 := by
      split <;> omega
    have hhi : v / 4096 % 64 + 128 ≤ (if v / 262144 % 8 + 240 = 0xF4 then 0x8F else 0xBF) := by
      split <;> omega
    rw [if_neg h1, if_neg h2, if_neg h3, List.cons_append, List.cons_append, List.cons_append,
      List.singleton_append, decodeFrom_lead _ _ (by omega), hb, List.nil_append,
      decodeFrom_more _ _ _ _ _ _ (by omega) (by omega) ⟨hlo, hhi⟩,
      decodeFrom_more _ _ _ _ _ _ (by omega) (by omega) (by omega),
      decodeFrom_last _ _ _ _ _ (by omega) (by omega)]
    have e : (((v / 262144 % 8 + 240 - 0xF0) * 64 + (v / 4096 % 64 + 128 - 0x80)) * 64 +
        (v / 64 % 64 + 128 - 0x80)) * 64 + (v % 64 + 128 - 0x80) = v := by omega
    rw [e, hc]

theorem decodeLenient_utf8Bytes (s : String) : decodeLenient (utf8Bytes s) = s := by
  have h (cs : List Char) : decodeFrom .between (cs.flatMap String.utf8EncodeChar) = cs := by
    induction cs with
    | nil => rfl
    | cons c cs ih => rw [List.flatMap_cons, decodeFrom_encodeChar, ih]
  rw [decodeLenient, utf8Bytes_eq_flatMap, h, String.ofList_toList]
end InstancePool.Text
