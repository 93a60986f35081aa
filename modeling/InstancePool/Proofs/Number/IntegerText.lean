import InstancePool.Number.DecimalText
import InstancePool.Proofs.Except

/-!
The texts of integers. Which texts are read as an integer is told by their characters: a sign, digits, and the
range of 64 bits. The decimal text of an integer is one of them.
-/

namespace InstancePool

namespace DecimalText

variable {s : List Char}

/-! ### Digits -/

theorem digitsValue_eq (s : List Char) : digitsValue s = Nat.ofDigitChars 10 s 0 := by
  rw [digitsValue, Nat.ofDigitChars_eq_foldl]
  simp only [digitValue, Nat.mul_comm 10]

theorem digitsValue_toDigits (n : Nat) : digitsValue (Nat.toDigits 10 n) = n := by
  rw [digitsValue_eq, Nat.ofDigitChars_ten_toDigits]

theorem isDigit_of_mem_toDigits {n : Nat} : ∀ c ∈ Nat.toDigits 10 n, c.isDigit = true :=
  fun _ hc => Nat.isDigit_of_mem_toDigits (by decide) (by decide) hc

/-- A digit is no sign, no point and no letter. -/
theorem ne_of_isDigit {c d : Char} (hc : c.isDigit = true) (hd : d.isDigit = false) : c ≠ d := by
  rintro rfl
  rw [hc] at hd
  cases hd

theorem toList_toString_int (i : Int) :
    (toString i).toList = if 0 ≤ i then Nat.toDigits 10 i.toNat else '-' :: Nat.toDigits 10 (-i).toNat := by
  rw [Int.toString_eq_repr, Int.repr_eq_if]
  split
  · rw [Nat.toList_repr]
  · rw [String.toList_append, Nat.toList_repr]
    rfl

theorem head_toDigits (n : Nat) : ∃ c ∈ (Nat.toDigits 10 n).head?, c.isDigit = true := by
  cases hs : Nat.toDigits 10 n with
  | nil => exact absurd hs Nat.toDigits_ne_nil
  | cons c s =>
    exact ⟨c, rfl, isDigit_of_mem_toDigits c (hs ▸ List.mem_cons_self ..)⟩

/-- The text of an integer is made of digits, and a minus sign before them. -/
theorem mem_toString_int {i : Int} {c : Char} (hc : c ∈ (toString i).toList) : c = '-' ∨ c.isDigit = true := by
  rw [toList_toString_int] at hc
  split at hc
  · exact .inr (isDigit_of_mem_toDigits c hc)
  · exact (List.mem_cons.1 hc).imp id (isDigit_of_mem_toDigits c)

theorem head_toString_int (i : Int) : ∃ c ∈ (toString i).toList.head?, c = '-' ∨ c.isDigit = true := by
  cases hs : (toString i).toList with
  | nil =>
    rw [toList_toString_int] at hs
    split at hs
    · exact absurd hs Nat.toDigits_ne_nil
    · cases hs
  | cons c s => exact ⟨c, rfl, mem_toString_int (hs ▸ List.mem_cons_self ..)⟩

/-! ### Integers -/

/-- Digits are read just if what they spell is within the limit, as every number on the way is smaller. -/
theorem readBounded_eq_ok_iff {limit value n : Nat} {overflow : IntTextError} (hvalue : value ≤ limit) :
    readBounded limit overflow value s = .ok n ↔
      (∀ c ∈ s, c.isDigit = true) ∧ Nat.ofDigitChars 10 s value = n ∧ n ≤ limit := by
  induction s generalizing value with
  | nil =>
    rw [readBounded, Nat.ofDigitChars_nil, Except.ok.injEq]
    exact ⟨fun h => ⟨nofun, h, h ▸ hvalue⟩, fun h => h.2.1⟩
  | cons c s ih =>
    rw [readBounded, Nat.ofDigitChars_cons, Nat.mul_comm 10, List.forall_mem_cons]
    cases hc : c.isDigit with
    | false => exact ⟨nofun, fun h => nomatch h.1.1⟩
    | true =>
      rw [if_neg (by decide)]
      split
      · rename_i hover
        refine ⟨nofun, ?_⟩
        rintro ⟨-, hn, hle⟩
        -- More digits make the number no smaller, so it stays beyond the limit.
        rw [Nat.ofDigitChars_eq_ofDigitChars_zero] at hn
        have hmore : value * 10 + digitValue c ≤ 10 ^ s.length * (value * 10 + digitValue c) :=
          Nat.le_mul_of_pos_left _ (Nat.pow_pos (by decide))
        simp only [digitValue] at hover hmore
        omega
      · rename_i hwithin
        rw [ih (Nat.le_of_not_lt hwithin)]
        simp only [true_and, digitValue]

theorem readMagnitude_eq_ok_iff {limit n : Nat} {overflow : IntTextError} :
    readMagnitude limit overflow s = .ok n ↔
      s ≠ [] ∧ (∀ c ∈ s, c.isDigit = true) ∧ digitsValue s = n ∧ n ≤ limit := by
  rw [readMagnitude, digitsValue_eq]
  split
  · rename_i hs
    exact ⟨nofun, fun h => absurd hs h.1⟩
  · rename_i hs
    rw [readBounded_eq_ok_iff (Nat.zero_le _), and_iff_right hs]

/-- A sign is put to a magnitude that is within the limit. -/
theorem signed_eq_ok_iff {limit : Nat} {overflow : IntTextError} (f : Int → Int) {i : Int64}
    (hf : ∀ n : Nat, n ≤ limit → (Int64.ofInt (f n)).toInt = f n)
    (hlimit : ∀ n : Nat, i.toInt = f n → n ≤ limit) :
    ((readMagnitude limit overflow s >>= fun n => pure (n : Int)).map fun n => Int64.ofInt (f n)) = .ok i ↔
      s ≠ [] ∧ (∀ c ∈ s, c.isDigit = true) ∧ i.toInt = f (digitsValue s) := by
  constructor
  · intro h
    obtain ⟨_, hcast, rfl⟩ := Except.map_ok h
    obtain ⟨n, hn, hcast⟩ := Except.bind_ok hcast
    cases hcast
    obtain ⟨hne, hdigits, rfl, hle⟩ := readMagnitude_eq_ok_iff.1 hn
    exact ⟨hne, hdigits, hf _ hle⟩
  · rintro ⟨hne, hdigits, hi⟩
    rw [readMagnitude_eq_ok_iff.2 ⟨hne, hdigits, rfl, hlimit _ hi⟩]
    show Except.ok (Int64.ofInt (f (digitsValue s))) = Except.ok i
    rw [← hi, Int64.ofInt_toInt]

theorem readInt64_minus {i : Int64} :
    readInt64 ('-' :: s) = .ok i ↔
      s ≠ [] ∧ (∀ c ∈ s, c.isDigit = true) ∧ i.toInt = -(digitsValue s : Int) := by
  have hlow : -2 ^ 63 ≤ i.toInt := i.le_toInt
  exact signed_eq_ok_iff (fun n => -n) (fun n hn => Int64.toInt_ofInt_of_le (by omega) (by omega))
    fun n hi => by omega

theorem readInt64_plus {i : Int64} :
    readInt64 ('+' :: s) = .ok i ↔ s ≠ [] ∧ (∀ c ∈ s, c.isDigit = true) ∧ i.toInt = digitsValue s := by
  have hhigh : i.toInt < 2 ^ 63 := i.toInt_lt
  exact signed_eq_ok_iff (fun n => n) (fun n hn => Int64.toInt_ofInt_of_le (by omega) (by omega))
    fun n hi => by omega

/-- What has no sign is read as with a plus. -/
theorem readInt64_unsigned {c : Char} (hminus : c ≠ '-') (hplus : c ≠ '+') :
    readInt64 (c :: s) = readInt64 ('+' :: c :: s) := by
  rw [readInt64.eq_def (c :: s)]
  split
  · rename_i hnil
    cases hnil
  · rename_i hcons
    exact absurd (List.head_eq_of_cons_eq hcons) hminus
  · rename_i hcons
    exact absurd (List.head_eq_of_cons_eq hcons) hplus
  · rfl

/-- A text is read as an integer just if it consists of digits, which may have a sign before them, and spells
that integer. Every other text is refused, also one that spells a number beyond 64 bits. -/
theorem readInt64_eq_ok_iff {i : Int64} :
    readInt64 s = .ok i ↔ ∃ sign digits, s = sign ++ digits ∧ sign ∈ [[], ['+'], ['-']] ∧ digits ≠ [] ∧
      (∀ c ∈ digits, c.isDigit = true) ∧
      i.toInt = if sign = ['-'] then -(digitsValue digits : Int) else digitsValue digits := by
  constructor
  · intro h
    cases s with
    | nil => cases h
    | cons c t =>
      by_cases hminus : c = '-'
      · subst hminus
        exact ⟨['-'], t, rfl, by decide, readInt64_minus.1 h⟩
      by_cases hplus : c = '+'
      · subst hplus
        exact ⟨['+'], t, rfl, by decide, readInt64_plus.1 h⟩
      · rw [readInt64_unsigned hminus hplus] at h
        exact ⟨[], c :: t, rfl, by decide, readInt64_plus.1 h⟩
  · rintro ⟨sign, digits, rfl, hsign, hspells⟩
    simp only [List.mem_cons, List.not_mem_nil, or_false] at hsign
    rcases hsign with rfl | rfl | rfl
    · obtain ⟨c, t, rfl⟩ := List.exists_cons_of_ne_nil hspells.1
      have hdigit : c.isDigit = true := hspells.2.1 c List.mem_cons_self
      exact (readInt64_unsigned (ne_of_isDigit hdigit rfl) (ne_of_isDigit hdigit rfl)).trans
        (readInt64_plus.2 hspells)
    · exact readInt64_plus.2 hspells
    · exact readInt64_minus.2 hspells

/-- The least integer, and the number below it. -/
example : readInt64 "-9223372036854775808".toList = .ok Int64.minValue ∧
    readInt64 "-9223372036854775809".toList = .error .tooSmall := ⟨rfl, rfl⟩

/-- The decimal text of an integer is a text of that kind, and spells the integer. -/
theorem toString_int_spells (i : Int) :
    ∃ sign digits, (toString i).toList = sign ++ digits ∧ sign ∈ [[], ['-']] ∧ digits ≠ [] ∧
      (∀ c ∈ digits, c.isDigit = true) ∧
      i = if sign = ['-'] then -(digitsValue digits : Int) else digitsValue digits := by
  rw [toList_toString_int]
  split
  · refine ⟨[], Nat.toDigits 10 i.toNat, rfl, by decide, Nat.toDigits_ne_nil, isDigit_of_mem_toDigits, ?_⟩
    rw [digitsValue_toDigits, if_neg (List.cons_ne_nil _ _).symm]
    omega
  · refine ⟨['-'], Nat.toDigits 10 (-i).toNat, rfl, by decide, Nat.toDigits_ne_nil, isDigit_of_mem_toDigits, ?_⟩
    rw [digitsValue_toDigits, if_pos rfl]
    omega

end DecimalText

end InstancePool
