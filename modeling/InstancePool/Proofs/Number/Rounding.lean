import InstancePool.Number.Shortest

/-!
Every float attracts an interval of numbers: those nearer to it than to its neighbours, and the two ends if
its last bit is zero. Rounding takes the numbers of the interval to the float, and the shortest decimal of
a float is one of them.
-/

namespace InstancePool.Binary64

variable {x : Binary64} {num den num' den' : Nat}

/-- Whether `num / den` units of 2^-1074 lie in the interval of `x`. -/
def Attracts (x : Binary64) (num den : Nat) : Prop :=
  (4 * x.scaled - x.halfGapBelow) * den ≤ 4 * num ∧ 4 * num ≤ (4 * x.scaled + 2 * x.gapAbove) * den ∧
    (x.fraction % 2 = 1 →
      (4 * x.scaled - x.halfGapBelow) * den ≠ 4 * num ∧ 4 * num ≠ (4 * x.scaled + 2 * x.gapAbove) * den)

/-- Whether `digits * 10 ^ exponent` lies in the interval of `x`. -/
def AttractsDecimal (x : Binary64) (digits : Nat) (exponent : Int) : Prop :=
  x.Attracts (digits * 10 ^ exponent.toNat * 2 ^ 1074) (10 ^ (-exponent).toNat)

/-- The integer that the digits of a finite number stand for, with the leading one of a normal number. -/
def significand (x : Binary64) : Nat :=
  if x.exponentField = 0 then x.fraction else 2 ^ 52 + x.fraction

theorem scaled_eq (x : Binary64) : x.scaled = x.significand * x.gapAbove := by
  unfold scaled significand gapAbove
  by_cases he : x.exponentField = 0
  · simp only [he, if_true, Nat.zero_sub, Nat.pow_zero, Nat.mul_one]
  · simp only [he, if_false]

theorem gapAbove_pos (x : Binary64) : 0 < x.gapAbove := Nat.two_pow_pos _

theorem fraction_lt (x : Binary64) : x.fraction < 2 ^ 52 := Nat.mod_lt _ (Nat.two_pow_pos _)

theorem magnitude_eq (x : Binary64) : x.magnitude = x.exponentField * 2 ^ 52 + x.fraction :=
  (Nat.div_add_mod' _ _).symm

/-- An integer attracts what is at most one half away, and strictly less if it is odd. -/
theorem roundHalfEven_eq {k : Nat} (hlow : 2 * (k * den) ≤ 2 * num + den)
    (hhigh : 2 * num ≤ 2 * (k * den) + den)
    (hodd : k % 2 = 1 → 2 * (k * den) ≠ 2 * num + den ∧ 2 * num ≠ 2 * (k * den) + den) (hden : 0 < den) :
    roundHalfEven num den = k := by
  have hdiv : num / den * den + num % den = num := Nat.div_add_mod' num den
  have hmod : num % den < den := Nat.mod_lt _ hden
  unfold roundHalfEven
  generalize num / den = q at hdiv
  generalize num % den = r at hdiv hmod
  -- The quotient is `k` or the integer before it.
  have hle : q ≤ k := by
    refine Nat.le_of_not_lt fun hlt => ?_
    have := Nat.mul_le_mul_right den hlt
    rw [Nat.succ_mul] at this
    omega
  have hge : k ≤ q + 1 := by
    refine Nat.le_of_not_lt fun hlt => ?_
    have := Nat.mul_le_mul_right den hlt
    rw [Nat.succ_mul, Nat.succ_mul] at this
    omega
  rcases Nat.lt_or_ge q k with hlt | hge'
  · obtain rfl : k = q + 1 := by omega
    rw [Nat.succ_mul q den] at hlow hhigh hodd
    simp only []
    split
    · omega
    · split <;> omega
  · obtain rfl : k = q := by omega
    simp only []
    split
    · rfl
    · split <;> omega

/-- Whether a number lies above a bound does not depend on how it is written as a quotient. -/
theorem mul_le_iff_of_ratio {a : Nat} (hratio : num * den' = num' * den) (hden : 0 < den) (hden' : 0 < den') :
    a * den ≤ 4 * num ↔ a * den' ≤ 4 * num' := by
  calc a * den ≤ 4 * num
    _ ↔ a * den * den' ≤ 4 * num * den' := (Nat.mul_le_mul_right_iff hden').symm
    _ ↔ a * den' * den ≤ 4 * num' * den := by
      rw [Nat.mul_right_comm, Nat.mul_assoc 4, hratio, Nat.mul_assoc 4]
    _ ↔ a * den' ≤ 4 * num' := Nat.mul_le_mul_right_iff hden

theorem le_mul_iff_of_ratio {a : Nat} (hratio : num * den' = num' * den) (hden : 0 < den) (hden' : 0 < den') :
    4 * num ≤ a * den ↔ 4 * num' ≤ a * den' := by
  calc 4 * num ≤ a * den
    _ ↔ 4 * num * den' ≤ a * den * den' := (Nat.mul_le_mul_right_iff hden').symm
    _ ↔ 4 * num' * den ≤ a * den' * den := by
      rw [Nat.mul_right_comm a, Nat.mul_assoc 4, hratio, Nat.mul_assoc 4]
    _ ↔ 4 * num' ≤ a * den' := Nat.mul_le_mul_right_iff hden

theorem attracts_of_ratio (hratio : num * den' = num' * den) (hden : 0 < den) (hden' : 0 < den') :
    x.Attracts num den ↔ x.Attracts num' den' := by
  have hlow {a : Nat} := mul_le_iff_of_ratio (a := a) hratio hden hden'
  have hhigh {a : Nat} := le_mul_iff_of_ratio (a := a) hratio hden hden'
  have heq {a : Nat} : a * den = 4 * num ↔ a * den' = 4 * num' := by
    rw [Nat.le_antisymm_iff, Nat.le_antisymm_iff, hlow, hhigh]
  have heq' {a : Nat} : 4 * num = a * den ↔ 4 * num' = a * den' := by
    rw [eq_comm, heq, eq_comm]
  simp only [Attracts, hlow, hhigh, ne_eq, heq, heq']

theorem mul_two_pow {m n : Nat} (hn : n = m + 2) (a : Nat) : a * 2 ^ n = 4 * (a * 2 ^ m) := by
  rw [hn, Nat.pow_add, ← Nat.mul_assoc, Nat.mul_comm _ (2 ^ 2)]

/-- The number that a decimal stands for lies in the interval exactly if the decimal reads back. -/
theorem readsBack_iff {d : Decimal} :
    x.readsBack d = true ↔ x.AttractsDecimal d.digits d.exponent := by
  have hunits : d.digits * 10 ^ d.exponent.toNat * 2 ^ 1076 =
      4 * (d.digits * 10 ^ d.exponent.toNat * 2 ^ 1074) := @mul_two_pow 1074 1076 rfl _
  unfold readsBack AttractsDecimal Attracts
  simp only [hunits]
  have hparity : x.fraction % 2 = 0 ∨ x.fraction % 2 = 1 := Nat.mod_two_eq_zero_or_one _
  -- The ends count for an even last bit, which is when the strict and the weak bounds differ.
  rcases hparity with heven | hodd
  · simp only [heven, if_true, Bool.and_eq_true, decide_eq_true_eq, Nat.zero_ne_one, false_imp_iff, and_true]
  · simp only [hodd, Nat.one_ne_zero, if_false, Bool.and_eq_true, decide_eq_true_eq, true_imp_iff,
      Nat.lt_iff_le_and_ne]
    exact ⟨fun ⟨⟨a, b⟩, c, d⟩ => ⟨a, c, b, d⟩, fun ⟨a, c, b, d⟩ => ⟨⟨a, b⟩, c, d⟩⟩

/-! ### Rounding -/

/-- The quotient has 53 bits before the last place that counts, or fewer where that place is the first. -/
theorem log2_div {t : Nat} (hden : 0 < den) (hlow : t = 0 ∨ 2 ^ 52 * (2 ^ t * den) ≤ num)
    (hhigh : num < 2 ^ 53 * (2 ^ t * den)) : (num / den).log2 - 52 = t := by
  -- The logarithm is taken of the quotient without its remainder, so bounds in whole units suffice.
  have hlt : num / den < 2 ^ (53 + t) := by
    rw [Nat.div_lt_iff_lt_mul hden, Nat.pow_add, Nat.mul_assoc]
    exact hhigh
  by_cases hzero : num / den = 0
  · rcases hlow with rfl | hlow
    · rw [hzero, Nat.log2_zero]
    · -- A quotient of at least `2 ^ (52 + t)` is not zero.
      have hpos : 0 < 2 ^ t * den := Nat.mul_pos (Nat.two_pow_pos t) hden
      have hnum := (Nat.div_eq_zero_iff.1 hzero).resolve_left (Nat.ne_of_gt hden)
      have hle : den ≤ 2 ^ t * den := Nat.le_mul_of_pos_left den (Nat.two_pow_pos t)
      omega
  · have hupper : (num / den).log2 < 53 + t := (Nat.log2_lt hzero).2 hlt
    rcases hlow with rfl | hlow
    · omega
    · have hlower : 52 + t ≤ (num / den).log2 := by
        rw [Nat.le_log2 hzero, Nat.le_div_iff_mul_le hden, Nat.pow_add, Nat.mul_assoc]
        exact hlow
      omega

theorem ofQuotient_of_round {negative : Bool} {t r : Nat} (hden : 0 < den)
    (hlow : t = 0 ∨ 2 ^ 52 * (2 ^ t * den) ≤ num) (hhigh : num < 2 ^ 53 * (2 ^ t * den))
    (hround : roundHalfEven num (2 ^ t * den) = r) (hr : t * 2 ^ 52 + r = x.magnitude)
    (hfinite : x.isFinite = true) : ofQuotient negative num den = ofSign negative x.magnitude := by
  have hle : x.magnitude ≤ infinityMagnitude := Nat.le_of_lt (of_decide_eq_true hfinite)
  rw [ofQuotient, log2_div hden hlow hhigh, Nat.mul_comm den, hround, hr, Nat.min_eq_left hle]

theorem halfGapBelow_le (x : Binary64) : x.halfGapBelow ≤ 2 * x.gapAbove := by
  unfold halfGapBelow
  split <;> omega

theorem significand_lt (x : Binary64) : x.significand < 2 ^ 53 := by
  have hf := x.fraction_lt
  unfold significand
  split <;> omega

/-- The interval in terms of the significand and the last place. -/
theorem Attracts.bounds (h : x.Attracts num den) :
    4 * (x.significand * (x.gapAbove * den)) ≤ 4 * num + x.halfGapBelow * den ∧
      2 * num ≤ 2 * (x.significand * (x.gapAbove * den)) + x.gapAbove * den ∧
      (x.significand % 2 = 1 →
        2 * (x.significand * (x.gapAbove * den)) ≠ 2 * num + x.gapAbove * den ∧
        2 * num ≠ 2 * (x.significand * (x.gapAbove * den)) + x.gapAbove * den) := by
  obtain ⟨hlow, hhigh, hodd⟩ := h
  rw [x.scaled_eq] at hlow hhigh hodd
  rw [Nat.sub_mul, Nat.mul_assoc, Nat.mul_assoc] at hlow hodd
  rw [Nat.add_mul, Nat.mul_assoc, Nat.mul_assoc, Nat.mul_assoc] at hhigh hodd
  refine ⟨by omega, by omega, fun hk => ?_⟩
  have hparity : x.fraction % 2 = 1 := by
    unfold significand at hk
    split at hk <;> omega
  -- An odd significand is no power of two, so its neighbours are equally far.
  have hgap : x.halfGapBelow = 2 * x.gapAbove := by
    unfold halfGapBelow
    exact if_neg fun h => by omega
  obtain ⟨hlow', hhigh'⟩ := hodd hparity
  rw [hgap, Nat.mul_assoc] at hlow'
  have hle : x.gapAbove * den ≤ x.significand * (x.gapAbove * den) :=
    Nat.le_mul_of_pos_left _ (by omega)
  omega

/-- A number that a float attracts is rounded to it. -/
theorem ofQuotient_of_attracts {negative : Bool} (hfinite : x.isFinite = true) (hden : 0 < den)
    (h : x.Attracts num den) : ofQuotient negative num den = ofSign negative x.magnitude := by
  obtain ⟨hlow, hhigh, hodd⟩ := h.bounds
  have hk := x.significand_lt
  have hpos : 0 < x.gapAbove * den := Nat.mul_pos x.gapAbove_pos hden
  by_cases hbelow : (x.fraction = 0 ∧ 1 < x.exponentField) ∧ num < x.significand * (x.gapAbove * den)
  · -- Below a power of two the numbers lie twice as dense.
    obtain ⟨⟨hf, he⟩, hlt⟩ := hbelow
    obtain ⟨t, ht⟩ : ∃ t, x.exponentField = t + 2 := ⟨x.exponentField - 2, by omega⟩
    have hgap : x.halfGapBelow = x.gapAbove := if_pos ⟨hf, he⟩
    have hplace : x.gapAbove * den = 2 * (2 ^ t * den) := by
      rw [gapAbove, ht, show t + 2 - 1 = t + 1 from rfl, Nat.pow_succ, Nat.mul_comm _ 2, Nat.mul_assoc]
    have hsig : x.significand = 2 ^ 52 := by
      rw [significand, if_neg (by omega), hf]
    rw [hgap, hplace, hsig] at hlow
    rw [hplace, hsig] at hlt
    refine ofQuotient_of_round (t := t) (r := 2 ^ 53) hden (.inr (by omega)) (by omega) ?_ ?_ hfinite
    · exact roundHalfEven_eq (by omega) (by omega) (by omega) (by omega)
    · rw [magnitude_eq, hf, ht]
      omega
  · have hlow' : 2 * (x.significand * (x.gapAbove * den)) ≤ 2 * num + x.gapAbove * den := by
      by_cases hf : x.fraction = 0 ∧ 1 < x.exponentField
      · have := fun hlt => hbelow ⟨hf, hlt⟩
        omega
      · have hgap : x.halfGapBelow = 2 * x.gapAbove := if_neg hf
        rw [hgap, Nat.mul_assoc] at hlow
        omega
    -- Otherwise the quotient has its last place where the float has it.
    refine ofQuotient_of_round (t := x.exponentField - 1) (r := x.significand) hden ?_ ?_
      (roundHalfEven_eq hlow' hhigh hodd hpos) ?_ hfinite
    · by_cases he : x.exponentField ≤ 1
      · exact .inl (by omega)
      · refine .inr ?_
        show 2 ^ 52 * (x.gapAbove * den) ≤ num
        by_cases hf : x.fraction = 0
        · have hge := Nat.not_lt.1 fun hlt => hbelow ⟨⟨hf, by omega⟩, hlt⟩
          have hsig : x.significand = 2 ^ 52 := by rw [significand, if_neg (by omega), hf]
          rw [hsig] at hge
          omega
        · have hsig : 2 ^ 52 + 1 ≤ x.significand := by
            rw [significand, if_neg (by omega)]
            omega
          have hle := Nat.mul_le_mul_right (x.gapAbove * den) hsig
          omega
    · have := Nat.mul_le_mul_right (x.gapAbove * den) hk
      rw [Nat.succ_mul x.significand] at this
      show num < 2 ^ 53 * (x.gapAbove * den)
      omega
    · rw [magnitude_eq, significand]
      split <;> omega

/-! ### Decimals -/

theorem scaled_pos (hzero : x.isZero = false) : 0 < x.scaled := by
  have hm : x.magnitude ≠ 0 := of_decide_eq_false hzero
  rw [magnitude_eq] at hm
  rw [scaled_eq]
  refine Nat.mul_pos ?_ x.gapAbove_pos
  unfold significand
  split
  · simp only [*, Nat.zero_mul, Nat.zero_add] at hm
    omega
  · omega

/-- The interval of a float other than zero lies above zero. -/
theorem halfGapBelow_lt (hzero : x.isZero = false) : x.halfGapBelow < 4 * x.scaled := by
  have hle := x.halfGapBelow_le
  have hg : x.gapAbove ≤ x.scaled := by
    have hpos := scaled_pos hzero
    rw [scaled_eq] at hpos ⊢
    exact Nat.le_mul_of_pos_left _ (Nat.pos_of_mul_pos_right hpos)
  have := x.gapAbove_pos
  omega

theorem mul_two_pow_mul {a b c d : Nat} (h : a + b = c + d) (k : Nat) :
    k * 2 ^ a * 2 ^ b = k * (2 ^ c * 2 ^ d) := by
  rw [Nat.mul_assoc, ← Nat.pow_add, h, Nat.pow_add]

/-- The interval of a finite float lies below 2^1024. -/
theorem interval_le (hfinite : x.isFinite = true) :
    4 * x.scaled + 2 * x.gapAbove ≤ 4 * (2 ^ 1024 * 2 ^ 1074) := by
  have hm : x.magnitude < infinityMagnitude := of_decide_eq_true hfinite
  have he : x.exponentField - 1 ≤ 2045 := by
    rw [magnitude_eq, infinityMagnitude] at hm
    omega
  have hg (n : Nat) (hn : x.exponentField - 1 ≤ n) : x.gapAbove ≤ 2 ^ n := Nat.pow_le_pow_right Nat.two_pos hn
  have hk : 4 * x.significand + 2 ≤ 4 * 2 ^ 53 := by
    have := x.significand_lt
    omega
  calc 4 * x.scaled + 2 * x.gapAbove
    _ = (4 * x.significand + 2) * x.gapAbove := by rw [scaled_eq, Nat.add_mul, Nat.mul_assoc]
    _ ≤ 4 * 2 ^ 53 * 2 ^ 2045 := Nat.mul_le_mul hk (hg 2045 he)
    _ = 4 * (2 ^ 1024 * 2 ^ 1074) := @mul_two_pow_mul 53 2045 1024 1074 rfl 4

theorem length_toDigits_bounds {n : Nat} (hn : n ≠ 0) :
    10 ^ ((Nat.toDigits 10 n).length - 1) ≤ n ∧ n < 10 ^ (Nat.toDigits 10 n).length := by
  have hpos : 0 < (Nat.toDigits 10 n).length := Nat.length_toDigits_pos
  refine ⟨?_, (Nat.length_toDigits_le_iff (by decide) hpos).1 (Nat.le_refl _)⟩
  by_cases hone : (Nat.toDigits 10 n).length = 1
  · rw [hone]
    exact Nat.pos_of_ne_zero hn
  · refine Nat.le_of_not_lt fun hlt => ?_
    have := (Nat.length_toDigits_le_iff (by decide) (by omega)).2 hlt
    omega

theorem le_mul_of_mul_le {a b c unit : Nat} (hunit : 0 < unit) (h : 4 * (a * unit) ≤ 4 * (b * unit) * c) :
    a ≤ b * c := by
  rw [Nat.mul_assoc 4, Nat.mul_right_comm] at h
  exact Nat.le_of_mul_le_mul_right (Nat.le_of_mul_le_mul_left h (by decide)) hunit

theorem smallest_bound : 4 * 2 ^ 1074 < 10 ^ 331 := by decide +kernel

theorem largest_bound : 2 ^ 1024 < 10 ^ 310 := by decide +kernel

/-- A decimal that a float attracts is read as that float: it is neither zero nor so small or large that it
would not be computed. -/
theorem ofDecimal_of_attracts {negative : Bool} {digits : Nat} {exponent : Int} (hfinite : x.isFinite = true)
    (hzero : x.isZero = false) (h : x.AttractsDecimal digits exponent) :
    ofDecimal negative digits exponent = ofSign negative x.magnitude := by
  have hden : 0 < 10 ^ (-exponent).toNat := Nat.pow_pos (by decide)
  have hbelow := halfGapBelow_lt hzero
  -- Powers of two cancel, and what is left are powers of ten.
  have hlow : 10 ^ (-exponent).toNat ≤ digits * 10 ^ exponent.toNat * (4 * 2 ^ 1074) := by
    have hle := Nat.mul_le_mul_right (10 ^ (-exponent).toNat) (Nat.sub_pos_of_lt hbelow)
    rw [Nat.succ_mul, Nat.zero_mul, Nat.zero_add] at hle
    have hle := Nat.le_trans hle h.1
    rwa [Nat.mul_left_comm] at hle
  have hhigh : digits * 10 ^ exponent.toNat ≤ 2 ^ 1024 * 10 ^ (-exponent).toNat := by
    have hle := Nat.le_trans h.2.1 (Nat.mul_le_mul_right _ (interval_le hfinite))
    generalize 2 ^ 1024 = limit at hle ⊢
    exact le_mul_of_mul_le (Nat.two_pow_pos 1074) hle
  have hdigits : digits ≠ 0 := by
    have hpos := Nat.pos_of_mul_pos_right (Nat.lt_of_lt_of_le hden hlow)
    exact Nat.ne_of_gt (Nat.pos_of_mul_pos_right hpos)
  obtain ⟨hten, hlt⟩ := length_toDigits_bounds hdigits
  generalize hlength : (Nat.toDigits 10 digits).length = length at hten hlt
  -- With so small an exponent the decimal would lie below half of the least float.
  have hsmall : ¬ exponent + (length : Int) < -330 := by
    intro hsmall
    have hle : 10 ^ 331 * 10 ^ (length + exponent.toNat) ≤
        4 * 2 ^ 1074 * 10 ^ (length + exponent.toNat) := by
      calc 10 ^ 331 * 10 ^ (length + exponent.toNat)
        _ = 10 ^ (331 + (length + exponent.toNat)) := (Nat.pow_add ..).symm
        _ ≤ 10 ^ (-exponent).toNat := Nat.pow_le_pow_right (by decide) (by omega)
        _ ≤ digits * 10 ^ exponent.toNat * (4 * 2 ^ 1074) := hlow
        _ ≤ 10 ^ length * 10 ^ exponent.toNat * (4 * 2 ^ 1074) :=
          Nat.mul_le_mul_right _ (Nat.mul_le_mul_right _ (Nat.le_of_lt hlt))
        _ = 4 * 2 ^ 1074 * 10 ^ (length + exponent.toNat) := by rw [Nat.pow_add, Nat.mul_comm]
    have hpos : 0 < 10 ^ (length + exponent.toNat) := Nat.pow_pos (by decide)
    exact absurd ((Nat.mul_le_mul_right_iff hpos).1 hle) (Nat.not_le.2 smallest_bound)
  -- With so large an exponent it would lie above all finite floats.
  have hlarge : ¬ 310 < exponent + (length : Int) := by
    intro hlarge
    have hle : 10 ^ 310 * 10 ^ (-exponent).toNat ≤ 2 ^ 1024 * 10 ^ (-exponent).toNat := by
      calc 10 ^ 310 * 10 ^ (-exponent).toNat
        _ = 10 ^ (310 + (-exponent).toNat) := (Nat.pow_add ..).symm
        _ ≤ 10 ^ (length - 1 + exponent.toNat) := Nat.pow_le_pow_right (by decide) (by omega)
        _ = 10 ^ (length - 1) * 10 ^ exponent.toNat := Nat.pow_add ..
        _ ≤ digits * 10 ^ exponent.toNat := Nat.mul_le_mul_right _ hten
        _ ≤ 2 ^ 1024 * 10 ^ (-exponent).toNat := hhigh
    exact absurd ((Nat.mul_le_mul_right_iff hden).1 hle) (Nat.not_le.2 largest_bound)
  unfold ofDecimal
  simp only [hlength, hdigits, hsmall, or_self, if_false, hlarge]
  exact ofQuotient_of_attracts hfinite hden h

/-! ### The shortest decimal -/

variable {digits : Nat} {exponent : Int} {tie : Tie} {d : Decimal}

/-- Zeros can be added to the digits if the exponent is lowered as much. -/
theorem attractsDecimal_shift (k : Nat) :
    x.AttractsDecimal (digits * 10 ^ k) (exponent - k) ↔ x.AttractsDecimal digits exponent := by
  have hpos {n : Nat} : 0 < 10 ^ n := Nat.pow_pos (by decide)
  refine attracts_of_ratio ?_ hpos hpos
  have hexponents :
      k + (exponent - k).toNat + (-exponent).toNat = exponent.toNat + (-(exponent - k)).toNat := by omega
  generalize 2 ^ 1074 = unit
  calc digits * 10 ^ k * 10 ^ (exponent - k).toNat * unit * 10 ^ (-exponent).toNat
    _ = digits * unit * 10 ^ (k + (exponent - k).toNat + (-exponent).toNat) := by
      rw [Nat.pow_add, Nat.pow_add]
      ac_rfl
    _ = digits * 10 ^ exponent.toNat * unit * 10 ^ (-(exponent - k)).toNat := by
      rw [hexponents, Nat.pow_add]
      ac_rfl

theorem readsBack_of_onGrid? (h : x.onGrid? tie exponent = some d) : x.readsBack d = true := by
  unfold onGrid? at h
  simp only [] at h
  generalize preferBelow tie _ _ _ = choice at h
  split at h
  · rename_i hbelow habove
    cases choice with
    | true =>
      cases h
      exact hbelow
    | false =>
      cases h
      exact habove
  · rename_i hbelow _
    cases h
    exact hbelow
  · rename_i _ habove
    cases h
    exact habove
  · cases h

/-- The value of a float lies in its own interval. -/
theorem attracts_scaled (hzero : x.isZero = false) : x.Attracts x.scaled 1 := by
  have hbelow := halfGapBelow_lt hzero
  have hg := x.gapAbove_pos
  have hpos : 0 < x.halfGapBelow := by
    unfold halfGapBelow
    split <;> omega
  refine ⟨?_, ?_, fun _ => ⟨?_, ?_⟩⟩ <;> omega

theorem exact_ratio {a n : Nat} (he : exponent = -(n : Int)) :
    a * 10 ^ (-exponent).toNat = a * 5 ^ n * 10 ^ exponent.toNat * 2 ^ n * 1 := by
  rw [he, Int.neg_neg, Int.toNat_natCast, Int.toNat_neg_natCast, Nat.pow_zero, Nat.mul_one, Nat.mul_one,
    Nat.mul_assoc, ← Nat.mul_pow]

theorem readsBack_exact (hzero : x.isZero = false) : x.readsBack ⟨x.scaled * 5 ^ 1074, -1074⟩ = true := by
  rw [readsBack_iff]
  exact (attracts_of_ratio (@exact_ratio (-1074) _ 1074 rfl) Nat.one_pos (Nat.pow_pos (by decide))).1
    (attracts_scaled hzero)

theorem readsBack_stripZeros (n : Nat) (h : x.readsBack d = true) : x.readsBack (stripZeros n d) = true := by
  induction n generalizing d with
  -- A zero less and an exponent more by one are the same value.
  | zero => exact h
  | succ n ih =>
    unfold stripZeros
    split
    · rename_i hd
      refine ih (readsBack_iff.2 ((attractsDecimal_shift 1).1 ?_))
      have hdigits : d.digits / 10 * 10 ^ 1 = d.digits := by omega
      have hexponent : d.exponent + 1 - ((1 : Nat) : Int) = d.exponent := by omega
      rw [hdigits, hexponent]
      exact readsBack_iff.1 h
    · exact h

/-- The shortest decimal of a float reads back. -/
theorem readsBack_shortest (hzero : x.isZero = false) : x.readsBack (x.shortest tie) = true := by
  unfold shortest
  refine readsBack_stripZeros _ ?_
  cases hfound : (List.range 17).findSome? fun (n : Nat) => x.onGrid? tie (x.decimalScale - 1 - (n : Int)) with
  -- If no short decimal reads back, the exact one is taken, which does.
  | none => exact readsBack_exact hzero
  | some d =>
    obtain ⟨n, -, hn⟩ := List.exists_of_findSome?_eq_some hfound
    exact readsBack_of_onGrid? hn

end InstancePool.Binary64
