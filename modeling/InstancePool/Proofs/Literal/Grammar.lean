import InstancePool.Proofs.Number.IntegerText
import InstancePool.Value.Literal

/-!
The grammar of literals. A tree tells how a text is written: which blanks stand where, of which characters
each token is made, and where the commas are. What a tree means depends on what follows it only in that a
token goes as far as it can.
-/

namespace InstancePool.Literal

open DecimalText

-- Statements about the characters of a text are decided over the text, whatever else is in scope.
attribute [local instance (100000)] List.decidableBAll List.decidableBEx Option.decidableForallMem

/-- A token is made of characters of one kind, and the next character is of another kind. -/
structure Run (P : Char → Bool) (token rest : List Char) : Prop where
  all : ∀ c ∈ token, P c = true
  ends : ∀ c ∈ rest.head?, P c = false

instance (P : Char → Bool) (token rest : List Char) : Decidable (Run P token rest) :=
  decidable_of_iff ((∀ c ∈ token, P c = true) ∧ ∀ c ∈ rest.head?, P c = false)
    ⟨fun h => ⟨h.1, h.2⟩, fun h => ⟨h.all, h.ends⟩⟩

/-- White space of any length, also of none. -/
def Blank (s : List Char) : Prop := ∀ c ∈ s, Text.isBlank c = true

instance (s : List Char) : Decidable (Blank s) := inferInstanceAs (Decidable (∀ c ∈ s, _))

/-- What stands between quotes for one character: the character, or a backslash and a character. -/
inductive Piece where
  | plain (c : Char)
  | escaped (c : Char)
  deriving Repr, DecidableEq

namespace Piece

def chars : Piece → List Char
  | plain c => [c]
  | escaped c => ['\\', c]

/-- The character that is meant: behind a backslash, `n` and `t` are a line feed and a tab, and every other
character is itself. -/
def meaning : Piece → Char
  | plain c => c
  | escaped 'n' => '\n'
  | escaped 't' => '\t'
  | escaped c => c

/-- A quote that ends the text and a backslash do not stand for themselves. -/
def Allowed (quote : Char) : Piece → Prop
  | plain c => c ≠ quote ∧ c ≠ '\\'
  | escaped _ => True

instance (quote : Char) : DecidablePred (Allowed quote)
  | plain c => inferInstanceAs (Decidable (c ≠ quote ∧ c ≠ '\\'))
  | escaped _ => inferInstanceAs (Decidable True)

end Piece

mutual

/-- How a value is written, from its first character on. -/
inductive Phrase where
  | word (letters : List Char)
  | number (digits : List Char)
  | quoted (quote : Char) (pieces : List Piece)
  | list (items : Items)

/-- How the items of a list are written, up to the bracket that closes it. -/
inductive Items where
  | close (blank : List Char)
  /-- The last item, without a comma behind it. -/
  | last (before : List Char) (item : Phrase) (after : List Char)
  /-- An item with a comma behind it, and what follows the comma. -/
  | next (before : List Char) (item : Phrase) (after : List Char) (rest : Items)

end

mutual

/-- The characters of which a phrase is made. -/
def Phrase.chars : Phrase → List Char
  | .word letters => letters
  | .number digits => digits
  | .quoted quote pieces => quote :: (pieces.flatMap Piece.chars ++ [quote])
  | .list items => '[' :: items.chars

def Items.chars : Items → List Char
  | .close blank => blank ++ [']']
  | .last before item after => before ++ (item.chars ++ (after ++ [']']))
  | .next before item after rest => before ++ (item.chars ++ (after ++ ',' :: rest.chars))

end

/-- The words that are values. -/
def words : List (String × Value) := [("None", .null), ("True", .bool true), ("False", .bool false)]

/-- A character that makes a number a float. -/
def FloatMark (c : Char) : Prop := c = '.' ∨ c = 'e' ∨ c = 'E'

instance : DecidablePred FloatMark := fun c => inferInstanceAs (Decidable (c = '.' ∨ c = 'e' ∨ c = 'E'))

mutual

/-- What a phrase means where `rest` follows it. -/
inductive Phrase.Means : Phrase → List Char → Value → Prop
  /-- A word starts with a letter, and it is one of the words that are values. -/
  | word {letters rest : List Char} {v : Value} (hfirst : ∃ c ∈ letters.head?, Text.isAlphabetic c = true)
    (hrun : Run isAlphanumeric letters rest) (hv : (String.ofList letters, v) ∈ words) :
    Phrase.Means (.word letters) rest v
  | float {digits rest : List Char} {x : Binary64} (hfirst : ∃ c ∈ digits.head?, c = '-' ∨ c.isDigit = true)
    (hrun : Run isNumberChar digits rest) (hmark : ∃ c ∈ digits, FloatMark c)
    (hx : DecimalText.readFloat digits = .ok x) : Phrase.Means (.number digits) rest (.float x)
  | int {digits rest : List Char} {i : Int64} (hfirst : ∃ c ∈ digits.head?, c = '-' ∨ c.isDigit = true)
    (hrun : Run isNumberChar digits rest) (hmark : ∀ c ∈ digits, ¬ FloatMark c)
    (hi : DecimalText.readInt64 digits = .ok i) : Phrase.Means (.number digits) rest (.int i)
  | quoted {quote : Char} {pieces : List Piece} {rest : List Char} (hquote : quote = '"' ∨ quote = '\'')
    (hpieces : ∀ p ∈ pieces, p.Allowed quote) :
    Phrase.Means (.quoted quote pieces) rest (.str (String.ofList (pieces.map Piece.meaning)))
  | list {items : Items} {rest : List Char} {vs : List Value} (hitems : items.Mean rest vs) :
    Phrase.Means (.list items) rest (.list vs)

/-- What the items of a list mean where `rest` follows its bracket. -/
inductive Items.Mean : Items → List Char → List Value → Prop
  | close {blank rest : List Char} (hblank : Blank blank) : Items.Mean (.close blank) rest []
  | last {before after rest : List Char} {item : Phrase} {v : Value} (hbefore : Blank before)
    (hitem : item.Means (after ++ ']' :: rest) v) (hafter : Blank after) :
    Items.Mean (.last before item after) rest [v]
  | next {before after rest : List Char} {item : Phrase} {items : Items} {v : Value} {vs : List Value}
    (hbefore : Blank before) (hitem : item.Means (after ++ ',' :: (items.chars ++ rest)) v)
    (hafter : Blank after) (hitems : items.Mean rest vs) :
    Items.Mean (.next before item after items) rest (v :: vs)

end

theorem not_floatMark_of_isDigit {c : Char} (hc : c.isDigit = true) : ¬ FloatMark c :=
  not_or.2 ⟨ne_of_isDigit hc rfl, not_or.2 ⟨ne_of_isDigit hc rfl, ne_of_isDigit hc rfl⟩⟩

/-- A number is an integer just if it consists of digits, which may have a minus before them, and spells that
integer. -/
theorem means_int_iff {token rest : List Char} {i : Int64} :
    (Phrase.number token).Means rest (.int i) ↔ Run isNumberChar token rest ∧
      ∃ sign digits, token = sign ++ digits ∧ sign ∈ [[], ['-']] ∧ digits ≠ [] ∧
        (∀ c ∈ digits, c.isDigit = true) ∧
        i.toInt = if sign = ['-'] then -(digitsValue digits : Int) else digitsValue digits := by
  constructor
  · intro h
    cases h with
    | int hfirst hrun hmark hi =>
      obtain ⟨sign, digits, rfl, hsign, hspells⟩ := readInt64_eq_ok_iff.1 hi
      simp only [List.mem_cons, List.not_mem_nil, or_false] at hsign
      rcases hsign with rfl | rfl | rfl
      · exact ⟨hrun, [], digits, rfl, by decide, hspells⟩
      -- A token that starts with a plus is no number.
      · obtain ⟨c, hc, hstart⟩ := hfirst
        cases hc
        exact absurd hstart (by decide)
      · exact ⟨hrun, ['-'], digits, rfl, by decide, hspells⟩
  · rintro ⟨hrun, sign, digits, rfl, hsign, hspells⟩
    have hmark (c : Char) (hc : c ∈ digits) : ¬ FloatMark c := not_floatMark_of_isDigit (hspells.2.1 c hc)
    simp only [List.mem_cons, List.not_mem_nil, or_false] at hsign
    rcases hsign with rfl | rfl
    · obtain ⟨c, t, rfl⟩ := List.exists_cons_of_ne_nil hspells.1
      exact .int ⟨c, rfl, .inr (hspells.2.1 c List.mem_cons_self)⟩ hrun hmark
        (readInt64_eq_ok_iff.2 ⟨[], c :: t, rfl, by decide, hspells⟩)
    · exact .int ⟨'-', rfl, .inl rfl⟩ hrun (List.forall_mem_cons.2 ⟨by decide, hmark⟩)
        (readInt64_eq_ok_iff.2 ⟨['-'], digits, rfl, by decide, hspells⟩)

/-- How a whole text is written. -/
structure Source where
  before : List Char
  phrase : Phrase
  after : List Char

namespace Source

def chars (t : Source) : List Char := t.before ++ (t.phrase.chars ++ t.after)

/-- What a whole text means. -/
structure Means (t : Source) (v : Value) : Prop where
  before : Blank t.before
  phrase : t.phrase.Means t.after v
  after : Blank t.after

end Source

end InstancePool.Literal
