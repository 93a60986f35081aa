import InstancePool.Interp.Perform
import InstancePool.Proofs.Number.FloatText

/-!
The text of a value is a literal for that value. Its tree follows the value, and what stands behind a part
of it, a comma, a bracket or nothing, goes on with no token.
-/

namespace InstancePool

namespace DecimalText

open Literal (isNumberChar FloatMark)

variable {s : List Char} {digits : Nat} {exponent : Int}

theorem isNumberChar_of_isDigit {c : Char} (hc : c.isDigit = true) : isNumberChar c = true := by
  rw [isNumberChar, Literal.isAsciiAlphanumeric, hc, Bool.or_true, Bool.true_or, Bool.true_or, Bool.true_or]

theorem isNumberChar_of_mem_toString {i : Int} {c : Char} (hc : c ∈ (toString i).toList) :
    isNumberChar c = true := by
  rcases mem_toString_int hc with rfl | hdigit
  · rfl
  · exact isNumberChar_of_isDigit hdigit

theorem ScaleText.isNumberChar {scale : Int} (h : ScaleText s scale) : ∀ c ∈ s, isNumberChar c = true := by
  cases h with
  | none => exact nofun
  | marked l _ =>
    refine List.forall_mem_cons.2 ⟨rfl, ?_⟩
    unfold FloatLayout.exponentChars
    split
    · exact List.forall_mem_cons.2 ⟨rfl, fun c => isNumberChar_of_mem_toString⟩
    · exact fun c => isNumberChar_of_mem_toString

theorem Spells.isNumberChar (h : Spells s digits exponent) : ∀ c ∈ s, isNumberChar c = true := by
  cases h with
  | @intro whole places rest scale hwhole hdigits hscale hmark =>
    obtain ⟨hwholeDigits, hplaces⟩ := List.forall_mem_append.1 hdigits
    refine List.forall_mem_append.2 ⟨fun c hc => isNumberChar_of_isDigit (hwholeDigits c hc),
      List.forall_mem_append.2 ⟨?_, hscale.isNumberChar⟩⟩
    cases places with
    | nil => exact nofun
    | cons d places =>
      exact List.forall_mem_cons.2 ⟨rfl, fun c hc => isNumberChar_of_isDigit (hplaces c hc)⟩

theorem Spells.floatMark (h : Spells s digits exponent) : ∃ c ∈ s, FloatMark c := by
  cases h with
  | @intro whole places rest scale hwhole hdigits hscale hmark =>
    rcases hmark with hplaces | hrest
    · rw [pointed_of_ne_nil hplaces]
      exact ⟨'.', List.mem_append_right _ (List.mem_cons_self ..), .inl rfl⟩
    · cases hscale with
      | none => exact absurd rfl hrest
      | marked l _ =>
        exact ⟨'e', List.mem_append_right _ (List.mem_append_right _ (List.mem_cons_self ..)), .inr (.inl rfl)⟩

end DecimalText

namespace Value

open Literal DecimalText

-- Statements about the characters of a text are decided over the text, whatever else is in scope.
attribute [local instance (100000)] List.decidableBAll

/-- A character that is quoted as itself or by one of four escapes. -/
def PlainlyQuoted (c : Char) : Prop :=
  Text.escapeChar '"' c ∈ [[c], ['\\', 'n'], ['\\', 't'], ['\\', '"'], ['\\', '\\']]

instance : DecidablePred PlainlyQuoted := fun _ => inferInstanceAs (Decidable (_ ∈ _))

mutual

/-- The floats in a value are finite, and the characters in it are plainly quoted. -/
def Readable : Value → Prop
  | .float x => x.isFinite = true
  | .str s => ∀ c ∈ s.toList, PlainlyQuoted c
  | .list items => ReadableItems items
  | _ => True

def ReadableItems : List Value → Prop
  | [] => True
  | v :: vs => v.Readable ∧ ReadableItems vs

end

/-- How a character is written between quotes. -/
def piece (c : Char) : Piece :=
  if c = '\n' then .escaped 'n'
  else if c = '\t' then .escaped 't'
  else if c = '"' ∨ c = '\\' then .escaped c
  else .plain c

theorem piece_meaning (c : Char) : (piece c).meaning = c := by
  unfold piece
  split
  · rename_i hc
    rw [hc]
    rfl
  · split
    · rename_i hc
      rw [hc]
      rfl
    · split
      · rename_i hc
        rcases hc with rfl | rfl <;> rfl
      · rfl

theorem piece_allowed (c : Char) : (piece c).Allowed '"' := by
  unfold piece
  split
  · trivial
  · split
    · trivial
    · split
      · trivial
      · rename_i hc
        exact not_or.1 hc

theorem piece_chars {c : Char} (hc : PlainlyQuoted c) : (piece c).chars = Text.escapeChar '"' c := by
  by_cases hfeed : c = '\n'
  · rw [hfeed]
    rfl
  by_cases htab : c = '\t'
  · rw [htab]
    rfl
  by_cases hmark : c = '"' ∨ c = '\\'
  · rcases hmark with rfl | rfl <;> rfl
  -- The other characters are not escaped, or else not in a plain way.
  have hnull : c ≠ '\x00' := by
    rintro rfl
    exact absurd hc (by decide)
  have hreturn : c ≠ '\r' := by
    rintro rfl
    exact absurd hc (by decide)
  have hpiece : piece c = .plain c := by rw [piece, if_neg hfeed, if_neg htab, if_neg hmark]
  have hescape : Text.escapeChar '"' c =
      if Text.isExtendingMark c || !Text.isPrintable c then Text.codePointEscape c else [c] := by
    rw [Text.escapeChar, if_neg hnull, if_neg htab, if_neg hreturn, if_neg hfeed, if_neg fun h => hmark h.symm]
  rw [hpiece, hescape]
  rw [PlainlyQuoted, hescape] at hc
  split at hc
  -- An escape by the code point has a `u` behind its backslash.
  · simp only [Text.codePointEscape, List.cons_append, List.mem_cons, List.cons.injEq, reduceCtorEq, and_false,
      Char.reduceEq, List.not_mem_nil, or_self] at hc
  · rw [if_neg ‹_›]
    rfl

/-! ### Trees -/

mutual

/-- How a value is displayed. -/
def phrase : Value → Phrase
  | .null => .word "None".toList
  | .bool true => .word "True".toList
  | .bool false => .word "False".toList
  | .int i => .number (intChars i)
  | .float x => .number (floatChars x)
  | .str s => .quoted '"' (s.toList.map piece)
  | .list items => .list (phrases [] items)

/-- How the items of a list are displayed, the first of them behind some blanks. -/
def phrases (before : List Char) : List Value → Items
  | [] => .close before
  | [v] => .last before v.phrase []
  | v :: vs => .next before v.phrase [] (phrases [' '] vs)

end

mutual

theorem phrase_chars : ∀ {v : Value}, v.Readable → v.phrase.chars = v.displayChars
  | .null, _ | .bool true, _ | .bool false, _ | .int _, _ | .float _, _ => rfl
  | .str s, hs => by
    have hpieces : (s.toList.map piece).flatMap Piece.chars = s.toList.flatMap (Text.escapeChar '"') := by
      rw [List.flatMap_map, List.flatMap_def, List.flatMap_def,
        List.map_congr_left fun c hc => piece_chars (hs c hc)]
    show '"' :: ((s.toList.map piece).flatMap Piece.chars ++ ['"']) = _
    rw [hpieces]
    rfl
  | .list items, hitems => congrArg (List.cons '[') (phrases_chars [] hitems)

theorem phrases_chars (before : List Char) : ∀ {vs : List Value}, ReadableItems vs →
    (phrases before vs).chars = before ++ (displayItems vs ++ [']'])
  | [], _ => rfl
  | [v], hvs => by
    show before ++ (v.phrase.chars ++ [']']) = before ++ (v.displayChars ++ [']'])
    rw [phrase_chars hvs.1]
  | v :: w :: vs, hvs => by
    show before ++ (v.phrase.chars ++ ',' :: (phrases [' '] (w :: vs)).chars) =
      before ++ (v.displayChars ++ ',' :: ' ' :: displayItems (w :: vs) ++ [']'])
    rw [phrase_chars hvs.1, phrases_chars [' '] hvs.2, List.append_assoc]
    rfl

end

/-- What can stand behind a value within a list, or behind the whole text. -/
def Stops (rest : List Char) : Prop :=
  ∀ c ∈ rest.head?, isNumberChar c = false ∧ isAlphanumeric c = false

theorem Stops.number {rest token : List Char} (h : Stops rest) (hall : ∀ c ∈ token, isNumberChar c = true) :
    Run isNumberChar token rest :=
  ⟨hall, fun c hc => (h c hc).1⟩

theorem Stops.word {rest token : List Char} (h : Stops rest) (hall : ∀ c ∈ token, isAlphanumeric c = true) :
    Run isAlphanumeric token rest :=
  ⟨hall, fun c hc => (h c hc).2⟩

theorem stops_nil : Stops [] := nofun

theorem stops_comma (rest : List Char) : Stops (',' :: rest) := by
  intro c hc
  cases hc
  exact ⟨by decide, by decide⟩

theorem stops_bracket (rest : List Char) : Stops (']' :: rest) := by
  intro c hc
  cases hc
  exact ⟨by decide, by decide⟩

theorem int_means (i : Int64) {rest : List Char} (hrest : Stops rest) :
    (Phrase.number (intChars i)).Means rest (.int i) :=
  means_int_iff.2 ⟨hrest.number fun _ hc => isNumberChar_of_mem_toString hc, toString_int_spells i.toInt⟩

theorem float_means {x : Binary64} (hfinite : x.isFinite = true) {rest : List Char} (hrest : Stops rest) :
    (Phrase.number (floatChars x)).Means rest (.float x) := by
  have hchars : floatChars x = floatLayout.finiteChars x := by
    have hlt : x.magnitude < Binary64.infinityMagnitude := of_decide_eq_true hfinite
    have hnan : x.isNaN = false := decide_eq_false (Nat.not_lt.2 (Nat.le_of_lt hlt))
    have hinfinite : x.isInfinite = false := decide_eq_false (Nat.ne_of_lt hlt)
    rw [floatChars, hnan, hinfinite]
    rfl
  obtain ⟨digits, exponent, hspells, -⟩ := floatLayout.spells_magnitudeChars hfinite
  rw [hchars]
  have hread := floatLayout.readFloat_finiteChars hfinite
  -- The sign is part of the token, and the digits behind it are those of the magnitude.
  unfold FloatLayout.finiteChars at hread ⊢
  split at hread
  · rename_i hnegative
    rw [if_pos hnegative]
    obtain ⟨c, hc, hmark⟩ := hspells.floatMark
    exact .float ⟨'-', rfl, .inl rfl⟩ (hrest.number (List.forall_mem_cons.2 ⟨rfl, hspells.isNumberChar⟩))
      ⟨c, List.mem_cons_of_mem _ hc, hmark⟩ hread
  · rename_i hnegative
    rw [if_neg hnegative]
    obtain ⟨c, hc, hdigit⟩ := hspells.head
    exact .float ⟨c, hc, .inr hdigit⟩ (hrest.number hspells.isNumberChar) hspells.floatMark hread

mutual

theorem phrase_means : ∀ {v : Value} {rest : List Char}, v.Readable → Stops rest → v.phrase.Means rest v
  | .null, _, _, hrest => .word ⟨'N', rfl, by decide⟩ (hrest.word (by decide)) (by decide)
  | .bool true, _, _, hrest => .word ⟨'T', rfl, by decide⟩ (hrest.word (by decide)) (by decide)
  | .bool false, _, _, hrest => .word ⟨'F', rfl, by decide⟩ (hrest.word (by decide)) (by decide)
  | .int i, _, _, hrest => int_means i hrest
  | .float _, _, hfinite, hrest => float_means hfinite hrest
  | .str s, rest, _, _ => by
    have hmeaning : String.ofList ((s.toList.map piece).map Piece.meaning) = s := by
      rw [List.map_map, show Piece.meaning ∘ piece = id from funext piece_meaning, List.map_id,
        String.ofList_toList]
    have hallowed : ∀ p ∈ s.toList.map piece, p.Allowed '"' :=
      List.forall_mem_map.2 fun c _ => piece_allowed c
    have hmeans := @Phrase.Means.quoted '"' _ rest (.inl rfl) hallowed
    rwa [hmeaning] at hmeans
  | .list _, _, hitems, _ => .list (phrases_mean nofun hitems)

theorem phrases_mean : ∀ {before : List Char} {vs : List Value} {rest : List Char}, Blank before →
    ReadableItems vs → (phrases before vs).Mean rest vs
  | _, [], _, hbefore, _ => .close hbefore
  | _, [_], _, hbefore, hvs => .last hbefore (phrase_means hvs.1 (stops_bracket _)) nofun
  | _, _ :: _ :: _, _, hbefore, hvs =>
    .next hbefore (phrase_means hvs.1 (stops_comma _)) nofun (phrases_mean (by decide) hvs.2)

end

/-- The text of a value reads back, as a literal and by the operation that evaluates one. -/
theorem parse_display {v : Value} (hv : v.Readable) :
    Literal.parse v.display = .ok v ∧
      ∀ (e : Engine) (key : SessionKey) (slots : List ObjectIndex),
        e.attempt key slots (.eval v.display) = .ok (e.handOutNew key slots v) := by
  have hparse : Literal.parse v.display = .ok v := by
    rw [Literal.parse, display, String.toList_ofList, parseChars_eq_ok]
    refine ⟨⟨[], v.phrase, []⟩, ?_, ⟨nofun, phrase_means hv stops_nil, nofun⟩⟩
    show v.phrase.chars ++ [] = _
    rw [List.append_nil, phrase_chars hv]
  refine ⟨hparse, fun e key slots => ?_⟩
  rw [Engine.attempt, hparse]

/-- The least integer, the least and the greatest positive float, a negative zero, escapes, and lists in
lists. -/
theorem parse_display_nested :
    let v : Value := .list [.int Int64.minValue, .list [.float ⟨1⟩, .float ⟨0x7FEFFFFFFFFFFFFF⟩, .list []],
      .float ⟨0x8000000000000000⟩, .list [.str "é]\"\\\n\t'", .null, .bool false]]
    v.display = "[-9223372036854775808, [5e-324, 1.7976931348623157e308, []], -0.0, " ++
      "[\"é]\\\"\\\\\\n\\t'\", None, False]]" ∧
    Literal.parse v.display = .ok v := by
  intro v
  have hchars : ∀ c ∈ "é]\"\\\n\t'".toList, PlainlyQuoted c := by decide +kernel
  have hv : v.Readable :=
    ⟨trivial, ⟨rfl, rfl, trivial, trivial⟩, rfl, ⟨hchars, trivial, trivial, trivial⟩, trivial⟩
  exact ⟨by decide +kernel, (parse_display hv).1⟩

end Value

end InstancePool
