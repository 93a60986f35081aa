import InstancePool.Proofs.Number.FloatText
import InstancePool.Tagged.Json

/-!
The text of a tree is read as that tree. A part of a text ends where a mark closes it, so that each part is
read the same whatever stands behind it; a float is left to the rule of the reader.
-/

namespace InstancePool

namespace Binary64

end Binary64

namespace DecimalText

/-- The digits of a number other than zero start with none. -/
theorem toDigits_eq_cons {n : Nat} (hn : n ≠ 0) :
    ∃ c digits, Nat.toDigits 10 n = c :: digits ∧ c ≠ '0' := by
  induction n using Nat.strongRecOn with
  | _ n ih =>
    rw [Nat.toDigits_eq_if (by decide)]
    split
    · rename_i hlt
      have hfirst : ∀ k < 10, k ≠ 0 → Nat.digitChar k ≠ '0' := by decide
      exact ⟨_, [], rfl, hfirst n hlt hn⟩
    · obtain ⟨c, digits, hdigits, hc⟩ := ih (n / 10) (by omega) (by omega)
      rw [hdigits]
      exact ⟨c, _, rfl, hc⟩

end DecimalText

namespace Json

open DecimalText

variable {rule : FloatRule} {s : List Char}

/-! ### Strings -/

theorem ofHexDigits?_control : ∀ n < 0x20, Text.ofHexDigits? (Text.hexDigits 4 n) = some n := by decide

theorem escape?_control {c : Char} (hc : c.toNat < 0x20) (s : List Char) :
    escape? ('u' :: Text.hexDigits 4 c.toNat ++ s) = some (c, s) := by
  have hunit : hexUnit? (Text.hexDigits 4 c.toNat ++ s) = some (c.toNat, s) := by
    show (Text.ofHexDigits? (Text.hexDigits 4 c.toNat)).map (·, s) = _
    rw [ofHexDigits?_control _ hc]
    rfl
  have hchar : unitChar? c.toNat s = some (c, s) := by
    unfold unitChar?
    rw [if_pos (.inl (by omega)), Char.ofNat_toNat]
  show (hexUnit? (Text.hexDigits 4 c.toNat ++ s)).bind (fun r => unitChar? r.1 r.2) = _
  rw [hunit]
  exact hchar

/-- A character is written as it is, or as an escape that stands for it. -/
theorem escapeChar_cases (c : Char) :
    (escapeChar c = [c] ∧ c ≠ '"' ∧ c ≠ '\\' ∧ ¬ c.toNat < 0x20) ∨
      ∃ d t, escapeChar c = '\\' :: d :: t ∧ ∀ s, escape? (d :: t ++ s) = some (c, s) := by
  by_cases hnamed : c ∈ ['"', '\\', '\x08', '\x0c', '\n', '\r', '\t']
  · simp only [List.mem_cons, List.not_mem_nil, or_false] at hnamed
    rcases hnamed with rfl | rfl | rfl | rfl | rfl | rfl | rfl <;> exact .inr ⟨_, _, rfl, fun _ => rfl⟩
  · simp only [List.mem_cons, List.not_mem_nil, or_false, not_or] at hnamed
    have hescape :
        escapeChar c = if c.toNat < 0x20 then '\\' :: 'u' :: Text.hexDigits 4 c.toNat else [c] := by
      simp only [escapeChar, hnamed, if_false]
    rw [hescape]
    split
    · rename_i hcontrol
      exact .inr ⟨'u', _, rfl, escape?_control hcontrol⟩
    · rename_i hcontrol
      exact .inl ⟨rfl, hnamed.1, hnamed.2.1, hcontrol⟩

theorem escapeChar_length_pos (c : Char) : 0 < (escapeChar c).length := by
  rcases escapeChar_cases c with ⟨hplain, -⟩ | ⟨d, t, hescaped, -⟩
  · rw [hplain]
    exact Nat.zero_lt_one
  · rw [hescaped]
    exact Nat.succ_pos _

theorem readString_escapeChar (fuel : Nat) (c : Char) (s : List Char) :
    readString (fuel + 1) (escapeChar c ++ s) = (readString fuel s).map fun r => (c :: r.1, r.2) := by
  rcases escapeChar_cases c with ⟨hplain, hquote, hslash, hcontrol⟩ | ⟨d, t, hescaped, hread⟩
  · rw [hplain, List.singleton_append, readString, if_neg hquote, if_neg hslash, if_neg hcontrol]
    cases readString fuel s <;> rfl
  · rw [hescaped, List.cons_append, readString, if_neg (by decide), if_pos rfl, hread]
    cases h : readString fuel s <;> simp [h]

theorem readString_flatMap {fuel : Nat} {cs : List Char} (hfuel : cs.length < fuel) (s : List Char) :
    readString fuel (cs.flatMap escapeChar ++ '"' :: s) = some (cs, s) := by
  induction cs generalizing fuel with
  | nil =>
    obtain ⟨fuel, rfl⟩ := Nat.exists_eq_add_of_lt hfuel
    rfl
  | cons c cs ih =>
    cases fuel with
    | zero => cases hfuel
    | succ fuel =>
      rw [List.flatMap_cons, List.append_assoc, readString_escapeChar, ih (Nat.lt_of_succ_lt_succ hfuel)]
      rfl

theorem stringChars_append (name : String) (s : List Char) :
    stringChars name ++ s = '"' :: (name.toList.flatMap escapeChar ++ '"' :: s) := by
  simp only [stringChars, List.cons_append, List.append_assoc, List.nil_append]

/-- A text has no more characters than it takes to write them, two quotes aside. -/
theorem length_lt_stringChars (name : String) : name.toList.length + 2 ≤ (stringChars name).length := by
  have hflat (cs : List Char) : cs.length ≤ (cs.flatMap escapeChar).length := by
    induction cs with
    | nil => exact Nat.le_refl _
    | cons c cs ih =>
      have hpos := escapeChar_length_pos c
      rw [List.flatMap_cons, List.length_append, List.length_cons]
      omega
  have hle := hflat name.toList
  rw [stringChars, List.cons_append, List.length_cons, List.length_append, List.length_singleton]
  omega

/-! ### Numbers -/

/-- What can stand behind a tree: nothing, or a mark that ends it. -/
def Closes (s : List Char) : Prop := ∀ c ∈ s.head?, c ∈ [',', ']', '\x7d']

theorem closes_nil : Closes [] := nofun

theorem closes_cons {c : Char} (hc : c ∈ [',', ']', '\x7d']) (s : List Char) : Closes (c :: s) := by
  intro d hd
  cases hd
  exact hc

/-- The digits of a number end where its tree is closed. -/
theorem Closes.run (h : Closes s) {digits : List Char} (hdigits : ∀ c ∈ digits, c.isDigit = true) :
    Literal.Run Char.isDigit digits s := by
  refine ⟨hdigits, fun c hc => ?_⟩
  have hmark := h c hc
  simp only [List.mem_cons, List.not_mem_nil, or_false] at hmark
  rcases hmark with rfl | rfl | rfl <;> rfl

theorem Closes.readPlaces (h : Closes s) : readPlaces s = some ([], s) := by
  unfold Json.readPlaces
  split
  · exact absurd (h '.' rfl) (by decide)
  · rfl

theorem Closes.readScale (h : Closes s) : readScale s = some (none, s) := by
  cases s with
  | nil => rfl
  | cons c s =>
    have hmark : ¬ (c = 'e' ∨ c = 'E') := by
      have hc := h c rfl
      rintro (rfl | rfl) <;> exact absurd hc (by decide)
    rw [Json.readScale, if_neg hmark]

/-- What stands behind the digits of a float is read, and counts as no power of ten if it is nothing. -/
theorem readScale_append {rest : List Char} {scale : Int} (hscale : ScaleText rest scale) (h : Closes s) :
    ∃ mark, readScale (rest ++ s) = some (mark, s) ∧ mark.getD 0 = scale ∧ (mark = none → rest = []) := by
  cases hscale with
  | none => exact ⟨none, h.readScale, rfl, fun _ => rfl⟩
  | marked l _ =>
    obtain ⟨negative, n, hsign, hvalue⟩ := splitSign_exponentChars l scale s
    have hrun := h.run (@isDigit_of_mem_toDigits n)
    refine ⟨some scale, ?_, rfl, nofun⟩
    rw [List.cons_append, Json.readScale, if_pos (.inl rfl), hsign]
    simp only [hrun.takeWhile, hrun.dropWhile, Nat.toDigits_ne_nil, if_false, digitsValue_toDigits, hvalue]

theorem readPlaces_append {places rest : List Char} {scale : Int}
    (hplaces : ∀ c ∈ places, c.isDigit = true) (hscale : ScaleText rest scale) (h : Closes s) :
    readPlaces (pointed places ++ (rest ++ s)) = some (places, rest ++ s) := by
  -- Neither an exponent nor what closes a tree starts with a digit or a point.
  cases places with
  | nil =>
    cases hscale with
    | none => exact h.readPlaces
    | marked l lead => rfl
  | cons c places =>
    have hrun : Literal.Run Char.isDigit (c :: places) (rest ++ s) := by
      cases hscale with
      | none => exact h.run hplaces
      | marked l lead =>
        refine ⟨hplaces, fun d hd => ?_⟩
        cases hd
        rfl
    show (if ((c :: places) ++ (rest ++ s)).takeWhile Char.isDigit = [] then none else
      some (((c :: places) ++ (rest ++ s)).takeWhile Char.isDigit,
        ((c :: places) ++ (rest ++ s)).dropWhile Char.isDigit)) = _
    rw [hrun.takeWhile, hrun.dropWhile, if_neg (List.cons_ne_nil _ _)]

theorem splitMinus_of_ne {c : Char} (hc : c ≠ '-') : splitMinus (c :: s) = (false, c :: s) := by
  unfold splitMinus
  split
  · rename_i h
    exact absurd (List.head_eq_of_cons_eq h) hc
  · rfl

/-- The text of a number with the given sign. -/
def signed (negative : Bool) (s : List Char) : List Char := if negative then '-' :: s else s

/-- A number is read from its parts. -/
theorem readNumber_of_parts {whole after places rest t : List Char} {mark : Option Int} (negative : Bool)
    (hrun : Literal.Run Char.isDigit whole after) (hwhole : whole ≠ [])
    (hplaces : readPlaces after = some (places, t)) (hscale : readScale t = some (mark, rest)) :
    readNumber rule (signed negative (whole ++ after)) =
      (number? rule negative whole places mark).map (·, rest) := by
  have hsign : splitMinus (signed negative (whole ++ after)) = (negative, whole ++ after) := by
    cases negative with
    | true => rfl
    | false =>
      cases whole with
      | nil => exact absurd rfl hwhole
      | cons c whole => exact splitMinus_of_ne (ne_of_isDigit (hrun.all c (List.mem_cons_self ..)) rfl)
  unfold readNumber
  rw [hsign]
  simp only [hrun.takeWhile, hrun.dropWhile, hplaces, hscale, Option.bind_eq_bind, Option.bind_some]

/-- The start of an integer part tells that it is one. -/
theorem isWholePart_of_head {c : Char} (hc : c ≠ '0') (digits : List Char) :
    isWholePart (c :: digits) = true := by
  rw [isWholePart, Bool.or_eq_true, Bool.and_eq_true]
  exact .inr ⟨decide_eq_true (List.cons_ne_nil _ _), decide_eq_true fun h => hc (Option.some.inj h)⟩

theorem isWholePart_toDigits (n : Nat) : isWholePart (Nat.toDigits 10 n) = true := by
  by_cases hn : n = 0
  · rw [hn]
    rfl
  · obtain ⟨c, digits, hdigits, hc⟩ := toDigits_eq_cons hn
    rw [hdigits]
    exact isWholePart_of_head hc digits

/-- The text of an integer is read as that, within the bounds of what is kept as one. -/
theorem readNumber_int {i : Int} (hlow : -2 ^ 63 ≤ i) (hhigh : i < 2 ^ 64) (h : Closes s) :
    readNumber rule ((toString i).toList ++ s) = some (.int i, s) := by
  have hread (negative : Bool) (n : Nat) :
      readNumber rule (signed negative (Nat.toDigits 10 n ++ s)) =
        (number? rule negative (Nat.toDigits 10 n) [] none).map (·, s) :=
    readNumber_of_parts negative (h.run isDigit_of_mem_toDigits) Nat.toDigits_ne_nil h.readPlaces h.readScale
  have hnumber (negative : Bool) (n : Nat) (hn : if negative then 0 < n ∧ n ≤ 2 ^ 63 else n < 2 ^ 64) :
      number? rule negative (Nat.toDigits 10 n) [] none =
        some (.int (if negative then -(n : Int) else n)) := by
    simp only [number?, isWholePart_toDigits, digitsValue_toDigits, hn, and_self, if_true]
  rw [toList_toString_int]
  by_cases hsign : 0 ≤ i
  · have hvalue : (i.toNat : Int) = i := Int.toNat_of_nonneg hsign
    have hnat := hnumber false i.toNat (by simp only [Bool.false_eq_true, if_false]; omega)
    have htext : Nat.toDigits 10 i.toNat ++ s = signed false _ := rfl
    rw [if_pos hsign, htext, hread, hnat]
    simp only [Bool.false_eq_true, if_false, hvalue, Option.map_some]
  · have hvalue : -((-i).toNat : Int) = i := by omega
    have hnat := hnumber true (-i).toNat (by simp only [if_true]; omega)
    have htext : '-' :: (Nat.toDigits 10 (-i).toNat ++ s) = signed true _ := rfl
    rw [if_neg hsign, List.cons_append, htext, hread, hnat]
    simp only [if_true, hvalue, Option.map_some]

/-! ### Floats -/

/-- The text of a magnitude is read by the rule, with the decimal that it spells, and never as an
integer. -/
theorem readNumber_of_spells {text : List Char} {digits : Nat} {exponent : Int}
    (h : Spells text digits exponent) :
    ∃ places scale, digitsValue (text.takeWhile Char.isDigit ++ places) = digits ∧
      scale - places.length = exponent ∧ ∀ (rule : FloatRule) (negative : Bool) (s : List Char), Closes s →
        readNumber rule (signed negative text ++ s) =
          if isWholePart (text.takeWhile Char.isDigit) then
            (rule (text.takeWhile Char.isDigit) places scale).map fun x =>
              (.real (if negative then x.neg else x), s)
          else none := by
  cases h with
  | @intro whole places rest scale hwhole hdigits hscale hmark =>
    obtain ⟨hwholeDigits, hplaces⟩ := List.forall_mem_append.1 hdigits
    -- A point, an exponent or a closing mark ends the digits before it.
    have hrun (s : List Char) (hs : Closes s) :
        Literal.Run Char.isDigit whole (pointed places ++ (rest ++ s)) := by
      cases places with
      | nil =>
        cases hscale with
        | none => exact hs.run hwholeDigits
        | marked l lead =>
          refine ⟨hwholeDigits, fun c hc => ?_⟩
          cases hc
          rfl
      | cons d places =>
        refine ⟨hwholeDigits, fun c hc => ?_⟩
        cases hc
        rfl
    have hstart : (whole ++ (pointed places ++ rest)).takeWhile Char.isDigit = whole := by
      have htake := (hrun [] closes_nil).takeWhile
      rwa [List.append_nil] at htake
    rw [hstart]
    refine ⟨places, scale, rfl, rfl, fun rule negative s hs => ?_⟩
    obtain ⟨mark, hread, hvalue, hnone⟩ := readScale_append hscale hs
    have hfloat (within : Prop) : ¬ (places = [] ∧ mark = none ∧ within) :=
      fun h => hmark.elim (absurd h.1) (absurd (hnone h.2.1))
    have htext : signed negative (whole ++ (pointed places ++ rest)) ++ s =
        signed negative (whole ++ (pointed places ++ (rest ++ s))) := by
      cases negative <;> simp only [signed, if_true, Bool.false_eq_true, if_false, List.cons_append,
        List.append_assoc]
    rw [htext, readNumber_of_parts negative (hrun s hs) hwhole (readPlaces_append hplaces hscale hs) hread,
      number?, if_neg (hfloat _), hvalue]
    split
    · rw [Option.map_map]
      rfl
    · rfl

end Json

/-- The rule makes of the text of a finite float that float. -/
def FloatRule.ReadsBack (rule : FloatRule) (x : Binary64) : Prop :=
  x.isFinite = true ∧ Json.readNumber rule (Json.floatLayout.finiteChars x) = some (.real x, [])

/-- The rule makes of the text of each finite float that float. -/
def FloatRule.Exact (rule : FloatRule) : Prop :=
  ∀ x : Binary64, x.isFinite = true → rule.ReadsBack x

namespace Json

open DecimalText

variable {rule : FloatRule} {s : List Char}

/-- A float that reads back does so before whatever closes it. -/
theorem readNumber_float {x : Binary64} (hx : rule.ReadsBack x) (h : Closes s) :
    readNumber rule (floatLayout.finiteChars x ++ s) = some (.real x, s) := by
  obtain ⟨hfinite, hread⟩ := hx
  obtain ⟨digits, exponent, hspells, -⟩ := floatLayout.spells_magnitudeChars hfinite
  obtain ⟨places, scale, -, -, hparts⟩ := readNumber_of_spells hspells
  have halone := hparts rule x.negative [] closes_nil
  rw [List.append_nil] at halone
  rw [show floatLayout.finiteChars x = signed x.negative (floatLayout.magnitudeChars x) from rfl] at hread ⊢
  rw [hparts rule x.negative s h]
  rw [halone] at hread
  -- The rule is asked for the same number in both texts.
  split at hread
  · rw [if_pos ‹_›]
    obtain ⟨y, hy, hsame⟩ := Option.map_eq_some_iff.1 hread
    have hvalue : Json.real (if x.negative then y.neg else y) = .real x := congrArg Prod.fst hsame
    rw [hy, Option.map_some, hvalue]
  · cases hread

mutual

/-- Trees whose numbers read back. -/
def Legible (rule : FloatRule) : Json → Prop
  | .int i => -2 ^ 63 ≤ i ∧ i < 2 ^ 64
  | .real x => rule.ReadsBack x
  | .arr items => LegibleItems rule items
  | .obj members => LegibleMembers rule members
  | _ => True

def LegibleItems (rule : FloatRule) : List Json → Prop
  | [] => True
  | j :: js => j.Legible rule ∧ LegibleItems rule js

def LegibleMembers (rule : FloatRule) : List (String × Json) → Prop
  | [] => True
  | m :: ms => m.2.Legible rule ∧ LegibleMembers rule ms

end

/-- What a tree starts with: no blank, and nothing that ends a list of them. -/
def Opens (s : List Char) : Prop := ∃ c t, s = c :: t ∧ isSpace c = false ∧ c ∉ [']', '\x7d']

/-- A number starts with a minus or a digit. -/
def Numeral (s : List Char) : Prop := ∃ c ∈ s.head?, c = '-' ∨ c.isDigit = true

theorem Numeral.ne {c d : Char} {t : List Char} (h : Numeral (c :: t)) (hminus : d ≠ '-')
    (hd : d.isDigit = false) : c ≠ d := by
  obtain ⟨_, hc, hstart⟩ := h
  cases hc
  rcases hstart with rfl | hdigit
  · exact hminus.symm
  · exact ne_of_isDigit hdigit hd

theorem Numeral.append {t : List Char} (h : Numeral t) (s : List Char) : Numeral (t ++ s) := by
  obtain ⟨c, hc, hstart⟩ := h
  refine ⟨c, ?_, hstart⟩
  rw [List.head?_append, Option.mem_def.1 hc]
  rfl

theorem Numeral.opens {s : List Char} (h : Numeral s) : Opens s := by
  obtain ⟨c, hc, -⟩ := id h
  obtain ⟨t, rfl⟩ := List.head?_eq_some_iff.1 hc
  refine ⟨c, t, rfl, ?_, ?_⟩
  · simp only [isSpace, decide_eq_false (h.ne (d := ' ') (by decide) rfl),
      decide_eq_false (h.ne (d := '\n') (by decide) rfl), decide_eq_false (h.ne (d := '\t') (by decide) rfl),
      decide_eq_false (h.ne (d := '\r') (by decide) rfl), Bool.or_false]
  · simp only [List.mem_cons, List.not_mem_nil, or_false, not_or]
    exact ⟨h.ne (by decide) rfl, h.ne (by decide) rfl⟩

theorem skipSpace_cons {c : Char} (hc : isSpace c = false) (t : List Char) : skipSpace (c :: t) = c :: t := by
  rw [skipSpace, List.dropWhile_cons, hc]
  rfl

/-- Where a number starts, a number is read. -/
theorem Numeral.readJson {s : List Char} (h : Numeral s) (fuel : Nat) :
    readJson rule none (fuel + 1) s = readNumber rule s := by
  obtain ⟨c, t, rfl, hspace, -⟩ := h.opens
  rw [Json.readJson, skipSpace_cons hspace]
  -- None of the marks that start another tree is a minus or a digit.
  split <;> first | rfl | (rename_i heq; cases heq <;> exact absurd rfl (h.ne (by decide) rfl))

theorem numeral_finiteChars {x : Binary64} (hfinite : x.isFinite = true) :
    Numeral (floatLayout.finiteChars x) := by
  obtain ⟨digits, exponent, hspells, -⟩ := floatLayout.spells_magnitudeChars hfinite
  unfold FloatLayout.finiteChars
  split
  · exact ⟨'-', rfl, .inl rfl⟩
  · obtain ⟨c, hc, hdigit⟩ := hspells.head
    exact ⟨c, hc, .inr hdigit⟩

theorem chars_opens {j : Json} (hj : j.Legible rule) (s : List Char) : Opens (j.chars ++ s) := by
  cases j with
  | null => exact ⟨'n', _, rfl, rfl, by decide⟩
  | bool b => cases b <;> exact ⟨_, _, rfl, rfl, by decide⟩
  | int i => exact (Numeral.append (head_toString_int i) s).opens
  | real x =>
    rw [chars, if_pos hj.1]
    exact ((numeral_finiteChars hj.1).append s).opens
  | str name => exact ⟨'"', _, rfl, rfl, by decide⟩
  | arr items => exact ⟨'[', _, rfl, rfl, by decide⟩
  | obj members => exact ⟨'\x7b', _, rfl, rfl, by decide⟩

theorem Opens.skipSpace (h : Opens s) : skipSpace s = s := by
  obtain ⟨c, t, rfl, hspace, -⟩ := h
  exact skipSpace_cons hspace t

theorem chars_length_pos {j : Json} (hj : j.Legible rule) : 0 < j.chars.length := by
  obtain ⟨c, t, htext, -⟩ := chars_opens hj []
  rw [List.append_nil] at htext
  rw [htext]
  exact Nat.succ_pos _

theorem arr_append (items : List Json) (s : List Char) :
    (arr items).chars ++ s = '[' :: (itemChars items ++ ']' :: s) := by
  rw [chars, List.cons_append, List.cons_append, List.append_assoc, List.singleton_append]

theorem obj_append (members : List (String × Json)) (s : List Char) :
    (obj members).chars ++ s = '\x7b' :: (memberChars members ++ '\x7d' :: s) := by
  rw [chars, List.cons_append, List.cons_append, List.append_assoc, List.singleton_append]

theorem items_append (j k : Json) (js : List Json) (s : List Char) :
    itemChars (j :: k :: js) ++ s = j.chars ++ ',' :: (itemChars (k :: js) ++ s) :=
  List.append_assoc ..

theorem member_append (m : String × Json) (s : List Char) :
    memberChars [m] ++ s = stringChars m.1 ++ ':' :: (m.2.chars ++ s) :=
  List.append_assoc ..

theorem members_append (m n : String × Json) (ms : List (String × Json)) (s : List Char) :
    memberChars (m :: n :: ms) ++ s =
      stringChars m.1 ++ ':' :: (m.2.chars ++ ',' :: (memberChars (n :: ms) ++ s)) := by
  show stringChars m.1 ++ ':' :: m.2.chars ++ ',' :: memberChars (n :: ms) ++ s = _
  simp only [List.append_assoc, List.cons_append]

theorem items_opens {j : Json} {js : List Json} (h : LegibleItems rule (j :: js)) (s : List Char) :
    Opens (itemChars (j :: js) ++ s) := by
  cases js with
  | nil => exact chars_opens h.1 s
  | cons k js =>
    rw [items_append]
    exact chars_opens h.1 _

theorem members_start (m : String × Json) (ms : List (String × Json)) (s : List Char) :
    ∃ t, memberChars (m :: ms) ++ s = '"' :: t := by
  cases ms with
  | nil => exact ⟨_, rfl⟩
  | cons n ms => exact ⟨_, rfl⟩

/-- A list that starts with a tree is read with its items. -/
theorem readJson_bracket {fuel : Nat} (h : Opens s) :
    readJson rule none (fuel + 1) ('[' :: s) = (readItems rule none fuel s).map fun r => (.arr r.1, r.2) := by
  rw [readJson, skipSpace_cons rfl]
  simp only [h.skipSpace]
  split
  · obtain ⟨c, t, heq, -, hmark⟩ := h
    cases heq
    exact absurd (List.mem_cons_self ..) hmark
  · rfl

/-- An object that starts with a name is read with its members. -/
theorem readJson_brace (fuel : Nat) (s : List Char) :
    readJson rule none (fuel + 1) ('\x7b' :: '"' :: s) =
      (readMembers rule none fuel ('"' :: s)).map fun r => (.obj r.1, r.2) := rfl

/-- A member is read with its name and its tree. -/
theorem readMembers_named {fuel : Nat} {name : String} (hname : name.toList.length < fuel) (s : List Char) :
    readMembers rule none (fuel + 1) (stringChars name ++ ':' :: s) = (readJson rule none fuel s).bind fun r =>
      match skipSpace r.2 with
      | ',' :: t => (readMembers rule none fuel t).bind fun rest => some ((name, r.1) :: rest.1, rest.2)
      | '\x7d' :: rest => some ([(name, r.1)], rest)
      | _ => none := by
  have hread := readString_flatMap hname (':' :: s)
  rw [stringChars_append, readMembers, skipSpace_cons rfl]
  simp only [hread, Option.bind_eq_bind, Option.bind_some, skipSpace_cons (c := ':') rfl,
    String.ofList_toList]
  rfl

mutual

/-- A tree is read as it was written, whatever closes it, if there is enough fuel. -/
theorem readJson_chars : ∀ {j : Json} {fuel : Nat} {s : List Char}, j.Legible rule →
    2 * j.chars.length ≤ fuel → Closes s → readJson rule none fuel (j.chars ++ s) = some (j, s)
  | _, 0, _, hj, hfuel, _ => by
    have hpos := chars_length_pos hj
    omega
  | .null, fuel + 1, s, _, _, _ => rfl
  | .bool true, fuel + 1, s, _, _, _ => rfl
  | .bool false, fuel + 1, s, _, _, _ => rfl
  -- What stands behind a number must not continue it.
  | .int i, fuel + 1, s, hi, _, hs => by
    show readJson rule none (fuel + 1) ((toString i).toList ++ s) = _
    rw [(Numeral.append (head_toString_int i) s).readJson, readNumber_int hi.1 hi.2 hs]
  | .real x, fuel + 1, s, hx, _, hs => by
    rw [chars, if_pos hx.1, ((numeral_finiteChars hx.1).append s).readJson, readNumber_float hx hs]
  | .str name, fuel + 1, s, _, hfuel, _ => by
    have hlength := length_lt_stringChars name
    rw [chars] at hfuel
    have hread := readString_flatMap (show name.toList.length < fuel by omega) s
    rw [chars, stringChars_append]
    show (readString fuel (name.toList.flatMap escapeChar ++ '"' :: s)).map _ = _
    rw [hread, Option.map_some, String.ofList_toList]
  | .arr [], fuel + 1, s, _, _, _ => rfl
  | .arr (j :: js), fuel + 1, s, hitems, hfuel, _ => by
    have hlength := congrArg List.length (arr_append (j :: js) [])
    simp only [List.length_append, List.length_cons, List.length_nil] at hlength
    have hread := @readItems_chars (j :: js) fuel s hitems (List.cons_ne_nil _ _) (by omega)
    rw [arr_append, readJson_bracket (items_opens hitems _), hread]
    rfl
  | .obj [], fuel + 1, s, _, _, _ => rfl
  | .obj (m :: ms), fuel + 1, s, hmembers, hfuel, _ => by
    have hlength := congrArg List.length (obj_append (m :: ms) [])
    simp only [List.length_append, List.length_cons, List.length_nil] at hlength
    have hread := @readMembers_chars (m :: ms) fuel s hmembers (List.cons_ne_nil _ _) (by omega)
    obtain ⟨t, htext⟩ := members_start m ms ('\x7d' :: s)
    rw [htext] at hread
    rw [obj_append, htext, readJson_brace, hread]
    rfl

theorem readItems_chars : ∀ {items : List Json} {fuel : Nat} {s : List Char}, LegibleItems rule items →
    items ≠ [] → 2 * (itemChars items).length + 1 ≤ fuel →
    readItems rule none fuel (itemChars items ++ ']' :: s) = some (items, s)
  | [j], fuel + 1, s, hj, _, hfuel => by
    have hread := @readJson_chars j fuel (']' :: s) hj.1 (Nat.le_of_succ_le_succ hfuel)
      (closes_cons (by decide) s)
    rw [itemChars, readItems, hread]
    rfl
  | j :: k :: js, fuel + 1, s, hj, _, hfuel => by
    have hlength := congrArg List.length (items_append j k js [])
    simp only [List.length_append, List.length_cons, List.length_nil] at hlength
    have hread := @readJson_chars j fuel (',' :: (itemChars (k :: js) ++ ']' :: s)) hj.1 (by omega)
      (closes_cons (by decide) _)
    have hrest := @readItems_chars (k :: js) fuel s hj.2 (List.cons_ne_nil _ _) (by omega)
    rw [items_append, readItems, hread]
    show (readItems rule none fuel (itemChars (k :: js) ++ ']' :: s)).bind _ = _
    rw [hrest]
    rfl

theorem readMembers_chars : ∀ {members : List (String × Json)} {fuel : Nat} {s : List Char},
    LegibleMembers rule members → members ≠ [] → 2 * (memberChars members).length + 1 ≤ fuel →
    readMembers rule none fuel (memberChars members ++ '\x7d' :: s) = some (members, s)
  | [(name, j)], fuel + 1, s, hj, _, hfuel => by
    have hlength := congrArg List.length (member_append (name, j) [])
    have hname := length_lt_stringChars name
    simp only [List.length_append, List.length_cons, List.length_nil] at hlength
    have hfits : name.toList.length < fuel := by omega
    have hread := @readJson_chars j fuel ('\x7d' :: s) hj.1 (by omega) (closes_cons (by decide) s)
    rw [member_append, readMembers_named hfits, hread]
    rfl
  | (name, j) :: n :: ms, fuel + 1, s, hj, _, hfuel => by
    have hlength := congrArg List.length (members_append (name, j) n ms [])
    have hname := length_lt_stringChars name
    simp only [List.length_append, List.length_cons, List.length_nil] at hlength
    have hfits : name.toList.length < fuel := by omega
    have hread := @readJson_chars j fuel (',' :: (memberChars (n :: ms) ++ '\x7d' :: s)) hj.1 (by omega)
      (closes_cons (by decide) _)
    have hrest := @readMembers_chars (n :: ms) fuel s hj.2 (List.cons_ne_nil _ _) (by omega)
    rw [members_append, readMembers_named hfits, hread]
    show (readMembers rule none fuel (memberChars (n :: ms) ++ '\x7d' :: s)).bind _ = _
    rw [hrest]
    rfl

end

end Json

end InstancePool
