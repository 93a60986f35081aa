import InstancePool.Number.FloatText
import InstancePool.Proofs.Literal.Parser
import InstancePool.Proofs.Number.IntegerText
import InstancePool.Proofs.Number.Rounding

/-!
The texts of floats read back. A layout places the point and the exponent of the shortest decimal as it
likes: the text stands for the same decimal, with zeros added to its digits.
-/

namespace InstancePool

namespace DecimalText

variable {s t : List Char}

theorem digitsValue_append_zeros (s : List Char) (n : Nat) :
    digitsValue (s ++ List.replicate n '0') = digitsValue s * 10 ^ n := by
  rw [digitsValue_eq, digitsValue_eq, Nat.ofDigitChars_append, Nat.ofDigitChars_replicate_zero, Nat.mul_comm]

theorem digitsValue_zeros_append (n : Nat) (s : List Char) :
    digitsValue (List.replicate n '0' ++ s) = digitsValue s := by
  rw [digitsValue_eq, digitsValue_eq, Nat.ofDigitChars_append, Nat.ofDigitChars_replicate_zero, Nat.mul_zero]

theorem isDigit_zeros (n : Nat) : ∀ c ∈ List.replicate n '0', c.isDigit = true := by
  intro c hc
  rw [(List.mem_replicate.1 hc).2]
  rfl

theorem splitSign_of_isDigit (h : ∀ c ∈ s.head?, c.isDigit = true) : splitSign s = (false, s) := by
  cases s with
  | nil => rfl
  | cons c s =>
    have hc := h c rfl
    unfold splitSign
    split
    · rename_i he
      exact absurd (List.head_eq_of_cons_eq he) (ne_of_isDigit hc rfl)
    · rename_i he
      exact absurd (List.head_eq_of_cons_eq he) (ne_of_isDigit hc rfl)
    · rfl

theorem readExponent_of_splitSign {negative : Bool} {n : Nat}
    (h : splitSign s = (negative, Nat.toDigits 10 n)) :
    readExponent ('e' :: s) = some (if negative then -(n : Int) else n) := by
  have hdigits : Nat.toDigits 10 n ≠ [] ∧ (Nat.toDigits 10 n).all Char.isDigit = true :=
    ⟨Nat.toDigits_ne_nil, List.all_eq_true.2 isDigit_of_mem_toDigits⟩
  simp only [readExponent, true_or, if_true, h, if_pos hdigits, digitsValue_toDigits]

/-- The sign and the digits of an exponent, whatever follows them. -/
theorem splitSign_exponentChars (l : FloatLayout) (lead : Int) (s : List Char) :
    ∃ negative n, splitSign (l.exponentChars lead ++ s) = (negative, Nat.toDigits 10 n ++ s) ∧
      (if negative then -(n : Int) else n) = lead := by
  unfold FloatLayout.exponentChars
  rw [toList_toString_int]
  by_cases hlead : 0 ≤ lead
  · refine ⟨false, lead.toNat, ?_, Int.toNat_of_nonneg hlead⟩
    rw [if_pos hlead]
    split
    · rfl
    · obtain ⟨c, hc, hdigit⟩ := head_toDigits lead.toNat
      refine splitSign_of_isDigit fun d hd => ?_
      rw [List.head?_append, Option.mem_def.1 hc] at hd
      cases hd
      exact hdigit
  · refine ⟨true, (-lead).toNat, ?_, ?_⟩
    · rw [if_neg hlead, if_neg fun h => hlead h.2]
      rfl
    · rw [if_pos rfl]
      omega

theorem readExponent_exponentChars (l : FloatLayout) (lead : Int) :
    readExponent ('e' :: l.exponentChars lead) = some lead := by
  obtain ⟨negative, n, hsign, hvalue⟩ := splitSign_exponentChars l lead []
  rw [List.append_nil, List.append_nil] at hsign
  rw [readExponent_of_splitSign hsign, hvalue]

/-- What stands behind the digits of a float: nothing, or an exponent. -/
inductive ScaleText : List Char → Int → Prop
  | none : ScaleText [] 0
  | marked (l : FloatLayout) (lead : Int) : ScaleText ('e' :: l.exponentChars lead) lead

/-- Digits with a point before them; no digits need none. -/
def pointed : List Char → List Char
  | [] => []
  | c :: s => '.' :: c :: s

theorem pointed_of_ne_nil (h : s ≠ []) : pointed s = '.' :: s := by
  cases s with
  | nil => exact absurd rfl h
  | cons c s => rfl

/-- The text of a float without its sign, and the decimal that it stands for. -/
inductive Spells : List Char → Nat → Int → Prop
  | intro {whole places rest : List Char} {scale : Int} (hwhole : whole ≠ [])
    (hdigits : ∀ c ∈ whole ++ places, c.isDigit = true) (hscale : ScaleText rest scale)
    (hmark : places ≠ [] ∨ rest ≠ []) :
    Spells (whole ++ (pointed places ++ rest)) (digitsValue (whole ++ places)) (scale - places.length)

theorem ScaleText.read {scale : Int} (h : ScaleText s scale) : readExponent s = some scale := by
  cases h with
  | none => rfl
  | marked l _ => exact readExponent_exponentChars l _

theorem ScaleText.head {scale : Int} (h : ScaleText s scale) : ∀ c ∈ s.head?, c = 'e' := by
  cases h with
  | none => exact nofun
  | marked l lead =>
    intro c hc
    cases hc
    rfl

theorem splitFraction_pointed {places rest : List Char} {scale : Int} (h : ScaleText rest scale)
    (hplaces : ∀ c ∈ places, c.isDigit = true) : splitFraction (pointed places ++ rest) = (places, rest) := by
  cases places with
  | nil =>
    cases h with
    | none => rfl
    | marked l lead => rfl
  | cons c s =>
    have hrun : Literal.Run Char.isDigit (c :: s) rest := ⟨hplaces, fun d hd => by rw [h.head d hd]; rfl⟩
    show ((c :: s ++ rest).takeWhile Char.isDigit, (c :: s ++ rest).dropWhile Char.isDigit) = _
    rw [hrun.takeWhile, hrun.dropWhile]

theorem Spells.head {n : Nat} {e : Int} (h : Spells s n e) : ∃ c ∈ s.head?, c.isDigit = true := by
  cases h with
  | @intro whole _ _ _ hwhole hdigits _ _ =>
    cases whole with
    | nil => exact absurd rfl hwhole
    | cons c s => exact ⟨c, rfl, hdigits c (List.mem_cons_self ..)⟩

theorem readFloat_of_spells {n : Nat} {e : Int} (negative : Bool) (h : Spells s n e) :
    readFloat (if negative then '-' :: s else s) = .ok (Binary64.ofDecimal negative n e) := by
  have hhead := h.head
  cases h with
  | @intro whole places rest scale hwhole hdigits hscale hmark =>
    obtain ⟨hwholeDigits, hplaces⟩ := List.forall_mem_append.1 hdigits
    -- A point or an `e` ends the digits before it.
    have hrun : Literal.Run Char.isDigit whole (pointed places ++ rest) := by
      refine ⟨hwholeDigits, fun c hc => ?_⟩
      cases places with
      | nil =>
        rw [hscale.head c hc]
        rfl
      | cons d places =>
        cases hc
        rfl
    generalize htext : whole ++ (pointed places ++ rest) = text at hhead
    have hsign : splitSign (if negative then '-' :: text else text) = (negative, text) := by
      cases negative with
      | true => rfl
      | false =>
        obtain ⟨c, hc, hdigit⟩ := hhead
        refine splitSign_of_isDigit fun d hd => ?_
        cases Option.mem_unique hc hd
        exact hdigit
    have hne : (if negative then '-' :: text else text) ≠ [] := by
      obtain ⟨c, hc, -⟩ := hhead
      cases negative with
      | true => exact List.cons_ne_nil _ _
      | false =>
        rintro rfl
        cases hc
    rw [readFloat, if_neg hne, hsign]
    simp only [← htext, hrun.takeWhile, hrun.dropWhile, splitFraction_pointed hscale hplaces, hscale.read,
      hwhole, false_and, if_false]

/-- A decimal of one value written another way. -/
theorem spells_of_parts (whole places : List Char) {rest : List Char} {scale exponent : Int} {digits : Nat}
    (hscale : ScaleText rest scale) (hwhole : whole ≠ []) (hmark : places ≠ [] ∨ rest ≠ [])
    (hdigits : ∀ c ∈ whole ++ places, c.isDigit = true) (hs : s = whole ++ (pointed places ++ rest))
    (hvalue : digitsValue (whole ++ places) = digits) (hexponent : scale - places.length = exponent) :
    Spells s digits exponent := by
  subst hs hvalue hexponent
  exact .intro hwhole hdigits hscale hmark

theorem spells_plain (digits : Nat) (exponent : Int) :
    ∃ k : Nat,
      Spells (FloatLayout.plain (Nat.toDigits 10 digits) exponent) (digits * 10 ^ k) (exponent - k) := by
  have hdigits := @isDigit_of_mem_toDigits digits
  have hvalue := digitsValue_toDigits digits
  have hne : Nat.toDigits 10 digits ≠ [] := Nat.toDigits_ne_nil
  unfold FloatLayout.plain
  generalize Nat.toDigits 10 digits = s at hdigits hvalue hne ⊢
  simp only []
  split
  · -- Zeros fill the places before the point, and one stands behind it.
    refine ⟨exponent.toNat + 1, spells_of_parts (s ++ List.replicate exponent.toNat '0') ['0'] .none ?_
      (.inl (List.cons_ne_nil _ _)) ?_ ?_ ?_ ?_⟩
    · exact fun h => hne (List.append_eq_nil_iff.1 h).1
    · rw [List.append_assoc]
      exact List.forall_mem_append.2 ⟨hdigits, List.forall_mem_append.2 ⟨isDigit_zeros _, isDigit_zeros 1⟩⟩
    · rw [pointed, List.append_nil]
    · rw [show ['0'] = List.replicate 1 '0' from rfl, digitsValue_append_zeros,
        digitsValue_append_zeros, hvalue, Nat.pow_add, Nat.mul_assoc]
    · simp only [List.length_singleton]
      omega
  · split
    · -- All digits stand behind the point, and zeros before them.
      have hplaces : List.replicate ((-exponent).toNat - s.length) '0' ++ s ≠ [] :=
        fun h => hne (List.append_eq_nil_iff.1 h).2
      refine ⟨0, spells_of_parts ['0'] (List.replicate ((-exponent).toNat - s.length) '0' ++ s) .none
        (List.cons_ne_nil _ _) (.inl hplaces) ?_ ?_ ?_ ?_⟩
      · exact List.forall_mem_append.2 ⟨isDigit_zeros 1, List.forall_mem_append.2 ⟨isDigit_zeros _, hdigits⟩⟩
      · rw [pointed_of_ne_nil hplaces, List.append_nil]
        rfl
      · rw [show ['0'] = List.replicate 1 '0' from rfl, digitsValue_zeros_append,
          digitsValue_zeros_append, hvalue, Nat.pow_zero, Nat.mul_one]
      · simp only [List.length_append, List.length_replicate]
        omega
    · -- The point stands among the digits.
      have hplaces : s.drop (s.length - (-exponent).toNat) ≠ [] := by
        intro h
        rw [List.drop_eq_nil_iff] at h
        omega
      refine ⟨0, spells_of_parts (s.take (s.length - (-exponent).toNat))
        (s.drop (s.length - (-exponent).toNat)) .none ?_ (.inl ?_) ?_ ?_ ?_ ?_⟩
      · intro h
        rcases List.take_eq_nil_iff.1 h with h | h
        · omega
        · exact hne h
      · exact hplaces
      · rwa [List.take_append_drop]
      · rw [pointed_of_ne_nil hplaces, List.append_nil]
      · rw [List.take_append_drop, hvalue, Nat.pow_zero, Nat.mul_one]
      · rw [List.length_drop]
        omega

theorem spells_scientific (l : FloatLayout) (digits : Nat) (exponent : Int) :
    Spells (l.scientific (Nat.toDigits 10 digits) (exponent + (Nat.toDigits 10 digits).length - 1)) digits
      exponent := by
  have hdigits := @isDigit_of_mem_toDigits digits
  have hvalue := digitsValue_toDigits digits
  have hne : Nat.toDigits 10 digits ≠ [] := Nat.toDigits_ne_nil
  generalize Nat.toDigits 10 digits = s at hdigits hvalue hne ⊢
  have hmarked (lead : Int) : 'e' :: l.exponentChars lead ≠ [] := List.cons_ne_nil _ _
  -- One digit stands before the point; if there are no others, the point is left out.
  match s, hdigits, hvalue, hne with
  | [], _, _, hne => exact absurd rfl hne
  | [d], hdigits, hvalue, _ =>
    refine spells_of_parts [d] [] (.marked l _) (List.cons_ne_nil d []) (.inr (hmarked _)) ?_ rfl ?_ ?_
    · rwa [List.append_nil]
    · rwa [List.append_nil]
    · simp only [List.length_singleton, List.length_nil]
      omega
  | d :: c :: s, hdigits, hvalue, _ =>
    refine spells_of_parts [d] (c :: s) (.marked l _) (List.cons_ne_nil d [])
      (.inl (List.cons_ne_nil c s)) hdigits rfl hvalue ?_
    simp only [List.length_cons]
    omega

end DecimalText

namespace Binary64

theorem ofSign_magnitude (x : Binary64) : ofSign x.negative x.magnitude = x := by
  have hbits : (if x.negative then 2 ^ 63 + x.magnitude else x.magnitude) = x.bits.toNat := by
    have hlt : x.bits.toNat < 2 ^ 64 := x.bits.toNat_lt
    unfold negative magnitude
    simp only [decide_eq_true_eq]
    split <;> omega
  rw [ofSign, hbits, UInt64.ofNat_toNat]

end Binary64

namespace FloatLayout

open DecimalText

/-- The text of a magnitude spells a decimal that is read as that magnitude, with either sign. -/
theorem spells_magnitudeChars (l : FloatLayout) {x : Binary64} (hfinite : x.isFinite = true) :
    ∃ digits exponent, Spells (l.magnitudeChars x) digits exponent ∧ ∀ negative,
      Binary64.ofDecimal negative digits exponent = Binary64.ofSign negative x.magnitude := by
  unfold magnitudeChars
  cases hzero : x.isZero with
  | true =>
    have hm : x.magnitude = 0 := of_decide_eq_true hzero
    refine ⟨0, -1, spells_of_parts ['0'] ['0'] .none (List.cons_ne_nil _ _)
      (.inl (List.cons_ne_nil _ _)) (isDigit_zeros 2) rfl rfl rfl, fun negative => ?_⟩
    rw [hm]
    rfl
  | false =>
    -- Neither layout changes the value of the shortest decimal, which the float attracts.
    have hattracts := Binary64.readsBack_iff.1 (@Binary64.readsBack_shortest x l.tie hzero)
    simp only [Bool.false_eq_true, if_false]
    split
    · obtain ⟨k, hspells⟩ := spells_plain (x.shortest l.tie).digits (x.shortest l.tie).exponent
      exact ⟨_, _, hspells, fun negative => Binary64.ofDecimal_of_attracts hfinite hzero
        ((Binary64.attractsDecimal_shift k).2 hattracts)⟩
    · exact ⟨_, _, spells_scientific l _ _, fun negative =>
        Binary64.ofDecimal_of_attracts hfinite hzero hattracts⟩

/-- The text of a finite float reads back, in every layout. -/
theorem readFloat_finiteChars (l : FloatLayout) {x : Binary64} (hfinite : x.isFinite = true) :
    readFloat (l.finiteChars x) = .ok x := by
  obtain ⟨digits, exponent, hspells, hvalue⟩ := l.spells_magnitudeChars hfinite
  rw [finiteChars, readFloat_of_spells x.negative hspells, hvalue, Binary64.ofSign_magnitude]

end FloatLayout

end InstancePool
