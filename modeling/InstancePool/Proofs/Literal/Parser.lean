import InstancePool.Proofs.Except
import InstancePool.Proofs.Literal.Grammar

/-!
The reader of literals accepts what the grammar derives. What it returns has a tree, whatever has a tree it
reads, and a text has one tree at most. The bound on its steps is never reached.
-/

namespace InstancePool

namespace Literal

/-! ### Tokens -/

section Run

variable {P : Char → Bool} {token rest token' rest' : List Char}

theorem Run.takeWhile (h : Run P token rest) : (token ++ rest).takeWhile P = token := by
  rw [List.takeWhile_append_of_pos h.all]
  cases rest with
  | nil => rw [List.takeWhile_nil, List.append_nil]
  | cons c s => rw [List.takeWhile_cons_of_neg (by rw [h.ends c rfl]; exact Bool.false_ne_true),
      List.append_nil]

theorem Run.dropWhile (h : Run P token rest) : (token ++ rest).dropWhile P = rest := by
  rw [List.dropWhile_append_of_pos h.all]
  cases rest with
  | nil => rfl
  | cons c s => rw [List.dropWhile_cons_of_neg (by rw [h.ends c rfl]; exact Bool.false_ne_true)]

theorem run_takeWhile (P : Char → Bool) (s : List Char) : Run P (s.takeWhile P) (s.dropWhile P) where
  all := List.all_eq_true.1 List.all_takeWhile
  ends c hc := by
    have hhead := List.head?_dropWhile_not P s
    rw [Option.mem_def.1 hc] at hhead
    exact hhead

/-- A text can be cut in one place only. -/
theorem Run.unique (h : Run P token rest) (h' : Run P token' rest') (he : token ++ rest = token' ++ rest') :
    token = token' ∧ rest = rest' := by
  have htoken : token = token' := by rw [← h.takeWhile, he, h'.takeWhile]
  have hrest : rest = rest' := by rw [← h.dropWhile, he, h'.dropWhile]
  exact ⟨htoken, hrest⟩

end Run

theorem blank_skip (s : List Char) : ∃ blank, Blank blank ∧ s = blank ++ skipBlank s :=
  ⟨s.takeWhile Text.isBlank, (run_takeWhile Text.isBlank s).all, List.takeWhile_append_dropWhile.symm⟩

theorem blank_nil : Blank [] := nofun

theorem Blank.append {a b : List Char} (ha : Blank a) (hb : Blank b) : Blank (a ++ b) := by
  intro c hc
  rcases List.mem_append.1 hc with h | h
  · exact ha c h
  · exact hb c h

theorem skipBlank_length_le (s : List Char) : (skipBlank s).length ≤ s.length :=
  (List.dropWhile_suffix Text.isBlank).length_le

theorem Blank.run {blank s : List Char} {c : Char} (h : Blank blank) (hc : Text.isBlank c = false) :
    Run Text.isBlank blank (c :: s) where
  all := h
  ends _ hd := Option.some.inj hd ▸ hc

theorem Blank.skip {blank s : List Char} {c : Char} (h : Blank blank) (hc : Text.isBlank c = false) :
    skipBlank (blank ++ c :: s) = c :: s :=
  (h.run hc).dropWhile

/-! ### What the reader returns has a tree -/

section

variable {size : Nat} {s t : List Char}

theorem Piece.meaning_escaped (c : Char) : (Piece.escaped c).meaning = unescape c := by
  unfold Piece.meaning unescape
  split <;> simp_all

/-- A text that was read up to its quote is made of pieces. -/
theorem pieces_of_readString {quote : Char} {cs : List Char} (hr : readString quote s = .ok (cs, t)) :
    ∃ pieces : List Piece, (∀ p ∈ pieces, p.Allowed quote) ∧
      s = pieces.flatMap Piece.chars ++ quote :: t ∧ cs = pieces.map Piece.meaning := by
  -- A character is taken off at a time, and with an escape two: the cases are those of the reader.
  fun_induction readString quote s generalizing cs with
  | case1 => cases hr
  | case2 =>
    cases hr
    exact ⟨[], nofun, rfl, rfl⟩
  | case3 => cases hr
  | case4 d u =>
    cases hr
    exact ⟨[], nofun, rfl, rfl⟩
  | case5 d u hne ih =>
    obtain ⟨⟨ds, t'⟩, hds, he⟩ := Except.map_ok hr
    cases he
    obtain ⟨pieces, hall, rfl, rfl⟩ := ih hds
    refine ⟨.escaped d :: pieces, ?_, rfl, ?_⟩
    · rintro p (_ | ⟨_, hp⟩)
      · trivial
      · exact hall p hp
    · rw [List.map_cons, Piece.meaning_escaped]
  | case6 c d u hne hback ih =>
    obtain ⟨⟨ds, t'⟩, hds, he⟩ := Except.map_ok hr
    cases he
    obtain ⟨pieces, hall, hs, rfl⟩ := ih hds
    refine ⟨.plain c :: pieces, ?_, ?_, rfl⟩
    · rintro p (_ | ⟨_, hp⟩)
      · exact ⟨hne, hback⟩
      · exact hall p hp
    · rw [hs]
      rfl

/-- The words that are read are the words of the grammar. -/
theorem wordValue_eq_ok {letters : List Char} {v : Value} :
    wordValue letters = .ok v ↔ (String.ofList letters, v) ∈ words := by
  have hword (w : String) : letters = w.toList ↔ String.ofList letters = w :=
    ⟨fun h => by rw [h, String.ofList_toList], fun h => by rw [← h, String.toList_ofList]⟩
  unfold wordValue words
  simp only [hword, List.mem_cons, Prod.mk.injEq, List.not_mem_nil, or_false]
  split
  · rename_i h
    simp [h, eq_comm]
  split
  · rename_i h
    simp [h, eq_comm]
  split
  · rename_i h
    simp [h, eq_comm]
  · rename_i hnone htrue hfalse
    simp [hnone, htrue, hfalse]

theorem hasFloatMark {digits : List Char} :
    (digits.any fun c => c = '.' || c = 'e' || c = 'E') = true ↔ ∃ c ∈ digits, FloatMark c := by
  simp only [List.any_eq_true, FloatMark, Bool.or_eq_true, decide_eq_true_eq, or_assoc]

theorem number_means {digits rest : List Char} {v : Value}
    (hfirst : ∃ c ∈ digits.head?, c = '-' ∨ c.isDigit = true) (hrun : Run isNumberChar digits rest)
    (hv : numberValue digits = .ok v) : (Phrase.number digits).Means rest v := by
  unfold numberValue at hv
  split at hv
  · rename_i hmark
    split at hv
    · cases hv
      exact .float hfirst hrun (hasFloatMark.1 hmark) ‹_›
    · cases hv
  · rename_i hmark
    split at hv
    · cases hv
      exact .int hfirst hrun (fun c hc hm => hmark (hasFloatMark.2 ⟨c, hc, hm⟩)) ‹_›
    · cases hv

/-- The ways in which a value is read. -/
inductive ReadsAs (size fuel : Nat) (t : List Char) : Char → List Char → Value → Prop
  | list {u : List Char} {vs : List Value} (h : readItems size fuel u = .ok (vs, t)) :
    ReadsAs size fuel t '[' u (.list vs)
  | quoted {c : Char} {u cs : List Char} (hc : c = '"' ∨ c = '\'') (h : readString c u = .ok (cs, t)) :
    ReadsAs size fuel t c u (.str (String.ofList cs))
  | number {c : Char} {u : List Char} {v : Value} (hc : c = '-' ∨ c.isDigit = true)
    (h : numberValue ((c :: u).takeWhile isNumberChar) = .ok v)
    (ht : t = (c :: u).dropWhile isNumberChar) : ReadsAs size fuel t c u v
  | word {c : Char} {u : List Char} {v : Value} (hc : Text.isAlphabetic c = true)
    (h : wordValue ((c :: u).takeWhile isAlphanumeric) = .ok v)
    (ht : t = (c :: u).dropWhile isAlphanumeric) : ReadsAs size fuel t c u v

/-- The kinds of phrases. -/
inductive Kind where
  | word
  | number
  | quoted
  | list

def Phrase.kind : Phrase → Kind
  | .word _ => .word
  | .number _ => .number
  | .quoted .. => .quoted
  | .list _ => .list

/-- The kind of phrase that a character opens, if it opens one. -/
def opening (c : Char) : Option Kind :=
  if c = '[' then some .list
  else if c = '"' ∨ c = '\'' then some .quoted
  else if c = '-' ∨ c.isDigit = true then some .number
  else if Text.isAlphabetic c = true then some .word
  else .none

theorem opening_quoted {c : Char} (hc : c = '"' ∨ c = '\'') : opening c = some .quoted := by
  rcases hc with rfl | rfl <;> rfl

theorem opening_number {c : Char} (hc : c = '-' ∨ c.isDigit = true) : opening c = some .number := by
  rcases hc with rfl | hdigit
  · rfl
  · have hne (d : Char) (hd : d.isDigit = false) : c ≠ d := by
      rintro rfl
      exact Bool.false_ne_true (hd.symm.trans hdigit)
    rw [opening, if_neg (hne '[' rfl), if_neg (not_or.2 ⟨hne '"' rfl, hne '\'' rfl⟩),
      if_pos (.inr hdigit)]

theorem isDigit_iff {c : Char} : c.isDigit = true ↔ 48 ≤ c.toNat ∧ c.toNat ≤ 57 := by
  simp only [Char.isDigit, Bool.and_eq_true, decide_eq_true_eq, UInt32.le_iff_toNat_le, ge_iff_le]
  rfl

/-- A letter is no digit, and it opens nothing else. -/
theorem opening_word {c : Char} (hc : Text.isAlphabetic c = true) : opening c = some .word := by
  have hne (d : Char) (hd : Text.isAlphabetic d = false) : c ≠ d := by
    rintro rfl
    exact Bool.false_ne_true (hd.symm.trans hc)
  have hdigit : ¬ c.isDigit = true := by
    intro hdigit
    have hlow := (isDigit_iff.1 hdigit).2
    -- All digits come before the first range of letters.
    rw [Text.isAlphabetic, Text.alphabeticRanges, Text.inRanges, if_pos (by omega)] at hc
    exact Bool.false_ne_true hc
  rw [opening, if_neg (hne '[' rfl), if_neg (not_or.2 ⟨hne '"' rfl, hne '\'' rfl⟩),
    if_neg (not_or.2 ⟨hne '-' rfl, hdigit⟩), if_pos hc]

theorem readsAs_of_readValue {fuel : Nat} {v : Value} (hr : readValue size (fuel + 1) s = .ok (v, t)) :
    ∃ c u, skipBlank s = c :: u ∧ ReadsAs size fuel t c u v := by
  rw [readValue] at hr
  split at hr
  · cases hr
  rename_i c u hs
  refine ⟨c, u, hs, ?_⟩
  split at hr
  · rename_i hc
    obtain ⟨⟨vs, t'⟩, hvs, he⟩ := Except.map_ok hr
    cases he
    exact hc ▸ .list hvs
  split at hr
  · rename_i hc
    obtain ⟨⟨cs, t'⟩, hcs, he⟩ := Except.map_ok hr
    cases he
    exact .quoted hc hcs
  split at hr
  · rename_i hc
    obtain ⟨v', hv, he⟩ := Except.map_ok hr
    cases he
    exact .number hc hv rfl
  split at hr
  · rename_i hc
    obtain ⟨v', hv, he⟩ := Except.map_ok hr
    cases he
    exact .word hc hv rfl
  · cases hr

/-- The ways in which the rest of a list is read. -/
inductive ItemsReadAs (size fuel : Nat) (s t : List Char) : List Value → Prop
  | close (hs : skipBlank s = ']' :: t) : ItemsReadAs size fuel s t []
  | last {v : Value} {u : List Char} (hv : readValue size fuel (skipBlank s) = .ok (v, u))
    (hu : skipBlank u = ']' :: t) : ItemsReadAs size fuel s t [v]
  | next {v : Value} {u w : List Char} {vs : List Value}
    (hv : readValue size fuel (skipBlank s) = .ok (v, u)) (hu : skipBlank u = ',' :: w)
    (hvs : readItems size fuel w = .ok (vs, t)) : ItemsReadAs size fuel s t (v :: vs)

theorem readsAs_of_readItems {fuel : Nat} {vs : List Value}
    (hr : readItems size (fuel + 1) s = .ok (vs, t)) : ItemsReadAs size fuel s t vs := by
  rw [readItems] at hr
  split at hr
  · rename_i hs
    cases hr
    exact .close hs
  split at hr
  · cases hr
  rename_i v u hv
  split at hr
  · cases hr
  · rename_i w hu
    obtain ⟨⟨vs', t'⟩, hvs, he⟩ := Except.map_ok hr
    cases he
    exact .next hv hu hvs
  · rename_i w hu
    cases hr
    exact .last hv hu
  · cases hr

/-- What was read has a tree, and so have the items of a list. -/
theorem tree_of_read (size fuel : Nat) :
    (∀ s v t, readValue size fuel s = .ok (v, t) →
      ∃ before p, Blank before ∧ s = before ++ (Phrase.chars p ++ t) ∧ p.Means t v) ∧
    ∀ s vs t, readItems size fuel s = .ok (vs, t) →
      ∃ items : Items, s = items.chars ++ t ∧ items.Mean t vs := by
  -- Values and items read each other with one step less, so both are told in one induction on the steps.
  induction fuel with
  | zero => exact ⟨nofun, nofun⟩
  | succ fuel ih =>
    obtain ⟨hvalue, hitems⟩ := ih
    constructor
    · intro s v t hr
      obtain ⟨c, u, hs, hreads⟩ := readsAs_of_readValue hr
      obtain ⟨before, hbefore, hsplit⟩ := blank_skip s
      rw [hs] at hsplit
      have hcut (P : Char → Bool) : (c :: u).takeWhile P ++ (c :: u).dropWhile P = c :: u :=
        List.takeWhile_append_dropWhile
      cases hreads with
      | list h =>
        obtain ⟨items, rfl, hmean⟩ := hitems u _ t h
        exact ⟨before, .list items, hbefore, hsplit, .list hmean⟩
      | quoted hc h =>
        obtain ⟨pieces, hall, rfl, rfl⟩ := pieces_of_readString h
        refine ⟨before, .quoted c pieces, hbefore, ?_, .quoted hc hall⟩
        rw [hsplit, Phrase.chars, List.cons_append, List.append_assoc, List.singleton_append]
      | number hc h ht =>
        have hn : isNumberChar c = true := by
          rcases hc with rfl | hdigit
          · rfl
          · simp only [isNumberChar, isAsciiAlphanumeric, hdigit, Bool.or_true, Bool.true_or]
        subst ht
        refine ⟨before, .number ((c :: u).takeWhile isNumberChar), hbefore, ?_,
          number_means ⟨c, ?_, hc⟩ (run_takeWhile _ _) h⟩
        · rw [hsplit, Phrase.chars, hcut]
        · rw [List.takeWhile_cons_of_pos hn]
          rfl
      | word hc h ht =>
        have ha : isAlphanumeric c = true := by rw [isAlphanumeric, hc, Bool.true_or]
        subst ht
        refine ⟨before, .word ((c :: u).takeWhile isAlphanumeric), hbefore, ?_,
          .word ⟨c, ?_, hc⟩ (run_takeWhile _ _) (wordValue_eq_ok.1 h)⟩
        · rw [hsplit, Phrase.chars, hcut]
        · rw [List.takeWhile_cons_of_pos ha]
          rfl
    · intro s vs t hr
      obtain ⟨blank, hblank, hsplit⟩ := blank_skip s
      cases readsAs_of_readItems hr with
      | close hs =>
        refine ⟨.close blank, ?_, .close hblank⟩
        rw [hsplit, hs, Items.chars, List.append_assoc, List.singleton_append]
      | @last v u hv hu =>
        obtain ⟨before, p, hbefore, hp, hmeans⟩ := hvalue _ _ _ hv
        obtain ⟨after, hafter, hcut⟩ := blank_skip u
        rw [hu] at hcut
        refine ⟨.last (blank ++ before) p after, ?_, .last (hblank.append hbefore) (hcut ▸ hmeans) hafter⟩
        rw [hsplit, hp, hcut]
        simp only [Items.chars, List.append_assoc, List.singleton_append]
      | @next v u w vs hv hu hvs =>
        obtain ⟨before, p, hbefore, hp, hmeans⟩ := hvalue _ _ _ hv
        obtain ⟨items, rfl, hmean⟩ := hitems w vs t hvs
        obtain ⟨after, hafter, hcut⟩ := blank_skip u
        rw [hu] at hcut
        refine ⟨.next (blank ++ before) p after items, ?_,
          .next (hblank.append hbefore) (hcut ▸ hmeans) hafter hmean⟩
        rw [hsplit, hp, hcut]
        simp only [Items.chars, List.append_assoc, List.cons_append]

/-! ### The bound on the steps -/

theorem length_le_of_readValue {fuel : Nat} {v : Value} (hr : readValue size fuel s = .ok (v, t)) :
    t.length ≤ s.length := by
  obtain ⟨before, p, -, rfl, -⟩ := (tree_of_read size fuel).1 s v t hr
  simp only [List.length_append]
  omega

/-- With as many steps as the length of the text asks for, one more does not matter. -/
theorem read_succ (size fuel : Nat) :
    (∀ s, 2 * s.length + 1 ≤ fuel → readValue size (fuel + 1) s = readValue size fuel s) ∧
    ∀ s, 2 * s.length + 2 ≤ fuel → readItems size (fuel + 1) s = readItems size fuel s := by
  induction fuel with
  | zero => exact ⟨nofun, nofun⟩
  | succ fuel ih =>
    obtain ⟨hvalue, hitems⟩ := ih
    constructor
    · intro s hs
      have hle := skipBlank_length_le s
      rw [readValue, readValue]
      cases hskip : skipBlank s with
      | nil => rfl
      | cons c u =>
        rw [hskip, List.length_cons] at hle
        -- The bracket is gone when the items are read, which leaves two steps less to be asked for.
        simp only [hitems u (by omega)]
    · intro s hs
      have hle := skipBlank_length_le s
      rw [readItems, readItems]
      generalize skipBlank s = s' at hle
      split
      · rfl
      · rw [hvalue s' (by omega)]
        cases hv : readValue size fuel s' with
        | error e => rfl
        | ok r =>
          obtain ⟨v, u⟩ := r
          have hle' := length_le_of_readValue hv
          have hle'' := skipBlank_length_le u
          simp only []
          split
          · rfl
          · rename_i w hu
            rw [hu, List.length_cons] at hle''
            rw [hitems w (by omega)]
          · rfl
          · rfl

theorem readValue_add {fuel : Nat} (hs : 2 * s.length + 1 ≤ fuel) (extra : Nat) :
    readValue size (fuel + extra) s = readValue size fuel s := by
  induction extra with
  | zero => rfl
  | succ extra ih => rw [← Nat.add_assoc, (read_succ size _).1 s (by omega), ih]

/-! ### What has a tree is read -/

theorem ne_of_opening {c d : Char} (h : opening c ≠ opening d) : c ≠ d := by
  rintro rfl
  exact h rfl

theorem readValue_of_readsAs {fuel : Nat} {c : Char} {u : List Char} {v : Value}
    (hs : skipBlank s = c :: u) (h : ReadsAs size fuel t c u v) :
    readValue size (fuel + 1) s = .ok (v, t) := by
  rw [readValue, hs]
  simp only []
  cases h with
  | list h => rw [if_pos rfl, h, Except.map]
  | quoted hc h =>
    have hopens := opening_quoted hc
    rw [if_neg (ne_of_opening (hopens ▸ nofun)), if_pos hc, h, Except.map]
  | number hc h ht =>
    have hopens := opening_number hc
    have hne (d : Char) (hd : opening d ≠ some .number) : c ≠ d := ne_of_opening (hopens ▸ hd.symm)
    rw [if_neg (hne '[' nofun), if_neg (not_or.2 ⟨hne '"' nofun, hne '\'' nofun⟩), if_pos hc, h,
      Except.map, ht]
  | word hc h ht =>
    have hopens := opening_word hc
    have hne (d : Char) (hd : opening d ≠ some .word) : c ≠ d := ne_of_opening (hopens ▸ hd.symm)
    have hnumber : ¬ (c = '-' ∨ c.isDigit = true) := fun hnumber => by
      rw [opening_number hnumber] at hopens
      cases hopens
    rw [if_neg (hne '[' nofun), if_neg (not_or.2 ⟨hne '"' nofun, hne '\'' nofun⟩), if_neg hnumber,
      if_pos hc, h, Except.map, ht]

theorem ReadsAs.opening {fuel : Nat} {c : Char} {u : List Char} {v : Value} (h : ReadsAs size fuel t c u v) :
    opening c ≠ none := by
  cases h with
  | list h => exact nofun
  | quoted hc h => exact opening_quoted hc ▸ nofun
  | number hc h ht => exact opening_number hc ▸ nofun
  | word hc h ht => exact opening_word hc ▸ nofun

theorem readItems_of_readsAs {fuel : Nat} {vs : List Value} (h : ItemsReadAs size fuel s t vs) :
    readItems size (fuel + 1) s = .ok (vs, t) := by
  have hitem {v : Value} {u : List Char} (hv : readValue size fuel (skipBlank s) = .ok (v, u)) (w : List Char) :
      skipBlank s ≠ ']' :: w := by
    intro hs
    rw [hs] at hv
    cases fuel with
    | zero => cases hv
    | succ fuel =>
      -- A bracket that closes a list opens no value.
      obtain ⟨c, u', hskip, hreads⟩ := readsAs_of_readValue hv
      obtain ⟨rfl, rfl⟩ := List.cons.inj hskip
      exact hreads.opening rfl
  rw [readItems]
  cases h with
  | close hs => simp only [hs]
  | last hv hu =>
    split
    · exact absurd ‹_› (hitem hv _)
    · simp only [hv, hu]
  | next hv hu hvs =>
    split
    · exact absurd ‹_› (hitem hv _)
    · simp only [hv, hu, hvs, Except.map]

theorem readString_close (quote : Char) (t : List Char) : readString quote (quote :: t) = .ok ([], t) := by
  cases t with
  | nil => rw [readString, if_pos rfl]
  | cons d t => rw [readString, if_pos rfl]

theorem readString_plain {quote c : Char} (hc : c ≠ quote) (hback : c ≠ '\\') (s : List Char) :
    readString quote (c :: s) = (readString quote s).map fun r => (c :: r.1, r.2) := by
  cases s with
  | nil =>
    simp only [readString, if_neg hc]
    rfl
  | cons d s => rw [readString, if_neg hc, if_neg hback]

theorem readString_escaped {quote : Char} (hquote : '\\' ≠ quote) (d : Char) (s : List Char) :
    readString quote ('\\' :: d :: s) = (readString quote s).map fun r => (unescape d :: r.1, r.2) := by
  rw [readString, if_neg hquote, if_pos rfl]

theorem readString_pieces {quote : Char} (hquote : '\\' ≠ quote) {pieces : List Piece}
    (hall : ∀ p ∈ pieces, p.Allowed quote) :
    readString quote (pieces.flatMap Piece.chars ++ quote :: t) = .ok (pieces.map Piece.meaning, t) := by
  induction pieces with
  | nil => exact readString_close quote t
  | cons p pieces ih =>
    have htail := ih fun p hp => hall p (List.mem_cons_of_mem _ hp)
    have hp := hall p List.mem_cons_self
    cases p with
    | plain c =>
      rw [List.flatMap_cons, Piece.chars, List.singleton_append, List.cons_append,
        readString_plain hp.1 hp.2, htail]
      rfl
    | escaped d =>
      rw [List.flatMap_cons, Piece.chars, List.cons_append, List.singleton_append, List.cons_append,
        List.cons_append, readString_escaped hquote, htail, List.map_cons, Piece.meaning_escaped]
      rfl

theorem numberValue_of_means {digits rest : List Char} {v : Value} (h : (Phrase.number digits).Means rest v) :
    (∃ c ∈ digits.head?, c = '-' ∨ c.isDigit = true) ∧ Run isNumberChar digits rest ∧
      numberValue digits = .ok v := by
  unfold numberValue
  cases h with
  | float hfirst hrun hmark hx => exact ⟨hfirst, hrun, by rw [if_pos (hasFloatMark.2 hmark), hx]⟩
  | int hfirst hrun hmark hi =>
    refine ⟨hfirst, hrun, ?_⟩
    rw [if_neg fun hm => (hasFloatMark.1 hm).elim fun c hc => hmark c hc.1 hc.2, hi]

theorem eq_cons_of_head? {s : List Char} {c : Char} (h : c ∈ s.head?) : ∃ u, s = c :: u := by
  cases s with
  | nil => cases h
  | cons d u =>
    cases h
    exact ⟨u, rfl⟩

theorem isBlank_of_between {c : Char} (hlow : 0x20 < c.toNat) (hhigh : c.toNat < 0x85) :
    Text.isBlank c = false := by
  simp only [Text.isBlank, Text.blankRanges, Text.inRanges]
  rw [if_neg (by omega), if_neg (by omega), if_neg (by omega), if_neg (by omega), if_pos hhigh]

theorem isBlank_of_words {letters : List Char} {v : Value} (hv : (String.ofList letters, v) ∈ words) {c : Char}
    (hc : c ∈ letters.head?) : Text.isBlank c = false := by
  have hletters (w : String) (h : String.ofList letters = w) : letters = w.toList := by
    rw [← h, String.toList_ofList]
  simp only [words, List.mem_cons, Prod.mk.injEq, List.not_mem_nil, or_false] at hv
  rcases hv with ⟨hw, -⟩ | ⟨hw, -⟩ | ⟨hw, -⟩ <;>
  · rw [hletters _ hw] at hc
    cases hc
    rfl

/-- The first character of a phrase tells what it is, and is no white space. -/
theorem Phrase.Means.first {p : Phrase} {rest : List Char} {v : Value} (h : p.Means rest v) :
    ∃ c u, p.chars = c :: u ∧ opening c = some p.kind ∧ Text.isBlank c = false := by
  cases p with
  | word letters =>
    cases h with
    | word hfirst hrun hv =>
      obtain ⟨c, hc, ha⟩ := hfirst
      obtain ⟨u, rfl⟩ := eq_cons_of_head? hc
      exact ⟨c, u, rfl, opening_word ha, isBlank_of_words hv hc⟩
  | number digits =>
    obtain ⟨⟨c, hc, hd⟩, -⟩ := numberValue_of_means h
    obtain ⟨u, rfl⟩ := eq_cons_of_head? hc
    refine ⟨c, u, rfl, opening_number hd, ?_⟩
    rcases hd with rfl | hdigit
    · rfl
    · obtain ⟨hlow, hhigh⟩ := isDigit_iff.1 hdigit
      exact isBlank_of_between (by omega) (by omega)
  | quoted quote pieces =>
    cases h with
    | quoted hquote hall =>
      refine ⟨quote, _, rfl, opening_quoted hquote, ?_⟩
      rcases hquote with rfl | rfl <;> rfl
  | list items => exact ⟨'[', items.chars, rfl, rfl, rfl⟩

/-- A phrase is read as what it is, if the items in it are. -/
theorem Phrase.Means.readsAs {p : Phrase} {rest : List Char} {v : Value} {fuel : Nat} (h : p.Means rest v)
    (hitems : ∀ items vs, p = .list items → items.Mean rest vs →
      readItems size fuel (items.chars ++ rest) = .ok (vs, rest)) :
    ∃ c u, p.chars ++ rest = c :: u ∧ Text.isBlank c = false ∧ ReadsAs size fuel rest c u v := by
  obtain ⟨c, u, hchars, -, hblank⟩ := h.first
  refine ⟨c, u ++ rest, by rw [hchars, List.cons_append], hblank, ?_⟩
  -- How a phrase is read depends on its first character alone.
  cases p with
  | word letters =>
    obtain rfl : letters = c :: u := hchars
    cases h with
    | word hfirst hrun hv =>
      obtain ⟨d, hd, ha⟩ := hfirst
      cases hd
      refine .word ha ?_ hrun.dropWhile.symm
      rw [← List.cons_append, hrun.takeWhile, wordValue_eq_ok]
      exact hv
  | number digits =>
    obtain rfl : digits = c :: u := hchars
    obtain ⟨⟨d, hd, hc⟩, hrun, hv⟩ := numberValue_of_means h
    cases hd
    refine .number hc ?_ hrun.dropWhile.symm
    rw [← List.cons_append, hrun.takeWhile]
    exact hv
  | quoted quote pieces =>
    obtain ⟨rfl, rfl⟩ := List.cons.inj hchars
    cases h with
    | quoted hquote hall =>
      have hback : '\\' ≠ quote := by rcases hquote with rfl | rfl <;> decide
      refine .quoted hquote ?_
      rw [List.append_assoc, List.singleton_append]
      exact readString_pieces hback hall
  | list items =>
    obtain ⟨rfl, rfl⟩ := List.cons.inj hchars
    cases h with
    | list hmean => exact .list (hitems items _ rfl hmean)

mutual

/-- Whatever a phrase means is read where the phrase stands. -/
theorem Phrase.read (p : Phrase) {before rest : List Char} {v : Value} {fuel : Nat} (h : p.Means rest v)
    (hbefore : Blank before) (hfuel : 2 * (before ++ (p.chars ++ rest)).length + 1 ≤ fuel) :
    readValue size fuel (before ++ (p.chars ++ rest)) = .ok (v, rest) := by
  cases fuel with
  | zero => cases hfuel
  | succ fuel =>
    -- Only a list has anything in it to be read with the steps that are left.
    have hread (hitems : ∀ items vs, p = .list items → items.Mean rest vs →
        readItems size fuel (items.chars ++ rest) = .ok (vs, rest)) :
        readValue size (fuel + 1) (before ++ (p.chars ++ rest)) = .ok (v, rest) := by
      obtain ⟨c, u, hcu, hblank, hreads⟩ := h.readsAs hitems
      rw [hcu]
      exact readValue_of_readsAs (hbefore.skip hblank) hreads
    match p with
    | .list items =>
      refine hread fun items' vs hp hmean => ?_
      cases hp
      refine Items.read items hmean ?_
      simp only [Phrase.chars, List.length_append, List.length_cons] at hfuel ⊢
      omega
    | .word _ | .number _ | .quoted .. => exact hread nofun

theorem Items.read (items : Items) {rest : List Char} {vs : List Value} {fuel : Nat} (h : items.Mean rest vs)
    (hfuel : 2 * (items.chars ++ rest).length + 2 ≤ fuel) :
    readItems size fuel (items.chars ++ rest) = .ok (vs, rest) := by
  cases fuel with
  | zero => cases hfuel
  | succ fuel =>
    refine readItems_of_readsAs ?_
    -- The white space before an item is skipped twice, by the list and by the item.
    have hitem {before w : List Char} {p : Phrase} {v : Value} (hbefore : Blank before)
        (hmeans : p.Means w v) : skipBlank (before ++ (p.chars ++ w)) = p.chars ++ w := by
      obtain ⟨c, u, hchars, -, hblank⟩ := hmeans.first
      rw [hchars, List.cons_append]
      exact hbefore.skip hblank
    match items with
    | .close blank =>
      cases h with
      | close hblank =>
        rw [Items.chars, List.append_assoc, List.singleton_append]
        exact .close (hblank.skip rfl)
    | .last before p after =>
      cases h with
      | last hbefore hmeans hafter =>
        have hchars : (Items.last before p after).chars ++ rest =
            before ++ (p.chars ++ (after ++ ']' :: rest)) := by
          simp only [Items.chars, List.append_assoc, List.singleton_append]
        rw [hchars] at hfuel ⊢
        refine .last ?_ (hafter.skip rfl)
        rw [hitem hbefore hmeans]
        refine Phrase.read p hmeans blank_nil ?_
        simp only [List.length_append, List.nil_append] at hfuel ⊢
        omega
    | .next before p after items =>
      cases h with
      | next hbefore hmeans hafter hmean =>
        have hchars : (Items.next before p after items).chars ++ rest =
            before ++ (p.chars ++ (after ++ ',' :: (items.chars ++ rest))) := by
          simp only [Items.chars, List.append_assoc, List.cons_append]
        rw [hchars] at hfuel ⊢
        refine .next ?_ (hafter.skip rfl) (Items.read items hmean ?_)
        · rw [hitem hbefore hmeans]
          refine Phrase.read p hmeans blank_nil ?_
          simp only [List.length_append, List.nil_append] at hfuel ⊢
          omega
        · simp only [List.length_append, List.length_cons] at hfuel ⊢
          omega

end

/-! ### A text has one tree -/

/-- Pieces end where the quote stands for itself. -/
theorem pieces_unique {quote : Char} (hback : '\\' ≠ quote) {pieces pieces' : List Piece}
    {rest rest' : List Char} (hall : ∀ p ∈ pieces, p.Allowed quote) (hall' : ∀ p ∈ pieces', p.Allowed quote)
    (he : pieces.flatMap Piece.chars ++ quote :: rest = pieces'.flatMap Piece.chars ++ quote :: rest') :
    pieces = pieces' ∧ rest = rest' := by
  -- No piece begins with the quote, so both texts have as many pieces.
  have hopen (p : Piece) (hp : p.Allowed quote) (a b : List Char) : quote :: a ≠ p.chars ++ b := by
    cases p with
    | plain c => exact fun h => hp.1 (List.cons.inj h).1.symm
    | escaped c => exact fun h => hback (List.cons.inj h).1.symm
  induction pieces generalizing pieces' with
  | nil =>
    cases pieces' with
    | nil => exact ⟨rfl, (List.cons.inj he).2⟩
    | cons p' pieces' =>
      rw [List.flatMap_cons, List.append_assoc] at he
      exact absurd he (hopen p' (hall' p' List.mem_cons_self) _ _)
  | cons p pieces ih =>
    rw [List.flatMap_cons, List.append_assoc] at he
    have hp := hall p List.mem_cons_self
    cases pieces' with
    | nil => exact absurd he.symm (hopen p hp _ _)
    | cons p' pieces' =>
      rw [List.flatMap_cons, List.append_assoc] at he
      have hp' := hall' p' List.mem_cons_self
      have hsame : p = p' ∧ pieces.flatMap Piece.chars ++ quote :: rest =
          pieces'.flatMap Piece.chars ++ quote :: rest' := by
        cases p with
        | plain c =>
          cases p' with
          | plain d =>
            obtain ⟨rfl, htail⟩ := List.cons.inj he
            exact ⟨rfl, htail⟩
          | escaped d => exact absurd (List.cons.inj he).1 hp.2
        | escaped c =>
          cases p' with
          | plain d => exact absurd (List.cons.inj he).1.symm hp'.2
          | escaped d =>
            obtain ⟨rfl, htail⟩ := List.cons.inj (List.cons.inj he).2
            exact ⟨rfl, htail⟩
      obtain ⟨rfl, htail⟩ := hsame
      obtain ⟨rfl, rfl⟩ := ih (fun q hq => hall q (List.mem_cons_of_mem _ hq))
        (fun q hq => hall' q (List.mem_cons_of_mem _ hq)) htail
      exact ⟨rfl, rfl⟩

/-- White space ends where a phrase begins. -/
theorem Blank.unique {blank blank' s s' : List Char} {c c' : Char} (h : Blank blank) (h' : Blank blank')
    (hc : Text.isBlank c = false) (hc' : Text.isBlank c' = false)
    (he : blank ++ c :: s = blank' ++ c' :: s') : blank = blank' ∧ c = c' ∧ s = s' := by
  obtain ⟨rfl, htail⟩ := (h.run hc).unique (h'.run hc') he
  obtain ⟨rfl, rfl⟩ := List.cons.inj htail
  exact ⟨rfl, rfl, rfl⟩

/-- Two phrases of one text, behind white space, begin in the same place and are of one kind. -/
theorem Phrase.Means.align {p p' : Phrase} {before before' rest rest' : List Char} {v v' : Value}
    (h : p.Means rest v) (h' : p'.Means rest' v') (hbefore : Blank before) (hbefore' : Blank before')
    (he : before ++ (p.chars ++ rest) = before' ++ (p'.chars ++ rest')) :
    before = before' ∧ p.kind = p'.kind ∧ p.chars ++ rest = p'.chars ++ rest' := by
  obtain ⟨c, u, hchars, hopens, hblank⟩ := h.first
  obtain ⟨c', u', hchars', hopens', hblank'⟩ := h'.first
  rw [hchars, hchars'] at he ⊢
  obtain ⟨rfl, rfl, htail⟩ := hbefore.unique hbefore' hblank hblank' he
  exact ⟨rfl, Option.some.inj (hopens.symm.trans hopens'), congrArg (c :: ·) htail⟩

/-- No phrase begins with the bracket that closes a list. -/
theorem Phrase.Means.not_close {p : Phrase} {blank before rest s : List Char} {v : Value}
    (h : p.Means rest v) (hblank : Blank blank) (hbefore : Blank before) :
    blank ++ ']' :: s ≠ before ++ (p.chars ++ rest) := by
  intro he
  obtain ⟨c, u, hchars, hopens, hc⟩ := h.first
  rw [hchars] at he
  obtain ⟨-, rfl, -⟩ := hblank.unique hbefore rfl hc he
  cases hopens

theorem Items.Mean.item_or_close {items : Items} {rest : List Char} {vs : List Value} (h : items.Mean rest vs) :
    (∃ blank, items = .close blank) ∨ ∃ before p w v, Blank before ∧ Phrase.Means p w v ∧
      items.chars ++ rest = before ++ (p.chars ++ w) := by
  cases h with
  | close hblank => exact .inl ⟨_, rfl⟩
  | last hbefore hitem hafter =>
    refine .inr ⟨_, _, _, _, hbefore, hitem, ?_⟩
    simp only [Items.chars, List.append_assoc, List.singleton_append]
  | next hbefore hitem hafter hitems =>
    refine .inr ⟨_, _, _, _, hbefore, hitem, ?_⟩
    simp only [Items.chars, List.append_assoc, List.cons_append]

/-- A list that closes at once has no items. -/
theorem Items.Mean.eq_close {blank rest rest' : List Char} {items' : Items} {vs : List Value}
    (hblank : Blank blank) (h' : items'.Mean rest' vs)
    (he : (Items.close blank).chars ++ rest = items'.chars ++ rest') : ∃ blank', items' = .close blank' := by
  rcases h'.item_or_close with hclose | ⟨before, p, w, v, hbefore, hmeans, hchars⟩
  · exact hclose
  · rw [hchars, Items.chars, List.append_assoc, List.singleton_append] at he
    exact absurd he (hmeans.not_close hblank hbefore)

mutual

theorem Phrase.unique (p : Phrase) {p' : Phrase} {rest rest' : List Char} {v v' : Value}
    (h : p.Means rest v) (h' : p'.Means rest' v') (he : p.chars ++ rest = p'.chars ++ rest') :
    p = p' ∧ rest = rest' := by
  -- Phrases of two kinds do not begin with the same character, and no other cases are left.
  have hkind := (h.align h' blank_nil blank_nil he).2.1
  match p, p' with
  | .word letters, .word letters' =>
    cases h with
    | word hfirst hrun hv =>
      cases h' with
      | word hfirst' hrun' hv' =>
        obtain ⟨rfl, rfl⟩ := hrun.unique hrun' he
        exact ⟨rfl, rfl⟩
  | .number digits, .number digits' =>
    obtain ⟨rfl, rfl⟩ := (numberValue_of_means h).2.1.unique (numberValue_of_means h').2.1 he
    exact ⟨rfl, rfl⟩
  | .quoted quote pieces, .quoted quote' pieces' =>
    cases h with
    | quoted hquote hall =>
      cases h' with
      | quoted hquote' hall' =>
        have hback : '\\' ≠ quote := by rcases hquote with rfl | rfl <;> decide
        simp only [Phrase.chars, List.cons_append, List.append_assoc, List.nil_append] at he
        obtain ⟨rfl, htail⟩ := List.cons.inj he
        obtain ⟨rfl, rfl⟩ := pieces_unique hback hall hall' htail
        exact ⟨rfl, rfl⟩
  | .list items, .list items' =>
    cases h with
    | list hmean =>
      cases h' with
      | list hmean' =>
        obtain ⟨rfl, rfl⟩ := Items.unique items hmean hmean' (List.cons.inj he).2
        exact ⟨rfl, rfl⟩

theorem Items.unique (items : Items) {items' : Items} {rest rest' : List Char} {vs vs' : List Value}
    (h : items.Mean rest vs) (h' : items'.Mean rest' vs') (he : items.chars ++ rest = items'.chars ++ rest') :
    items = items' ∧ rest = rest' := by
  -- Behind an item stands either a comma or the bracket.
  have hcomma {blank blank' s s' : List Char} (hb : Blank blank) (hb' : Blank blank') :
      blank ++ ']' :: s ≠ blank' ++ ',' :: s' := fun hsame => by
    cases (hb.unique hb' rfl rfl hsame).2.1
  match items, items' with
  | .close blank, .close blank' =>
    cases h with
    | close hblank =>
      cases h' with
      | close hblank' =>
        simp only [Items.chars, List.append_assoc, List.singleton_append] at he
        obtain ⟨rfl, -, rfl⟩ := hblank.unique hblank' rfl rfl he
        exact ⟨rfl, rfl⟩
  | .last before p after, .last before' p' after' =>
    cases h with
    | last hbefore hmeans hafter =>
      cases h' with
      | last hbefore' hmeans' hafter' =>
        simp only [Items.chars, List.append_assoc, List.singleton_append] at he
        obtain ⟨rfl, -, htail⟩ := hmeans.align hmeans' hbefore hbefore' he
        obtain ⟨rfl, hrest⟩ := Phrase.unique p hmeans hmeans' htail
        obtain ⟨rfl, -, rfl⟩ := hafter.unique hafter' rfl rfl hrest
        exact ⟨rfl, rfl⟩
  | .next before p after items, .next before' p' after' items' =>
    cases h with
    | next hbefore hmeans hafter hmean =>
      cases h' with
      | next hbefore' hmeans' hafter' hmean' =>
        simp only [Items.chars, List.append_assoc, List.cons_append] at he
        obtain ⟨rfl, -, htail⟩ := hmeans.align hmeans' hbefore hbefore' he
        obtain ⟨rfl, hrest⟩ := Phrase.unique p hmeans hmeans' htail
        obtain ⟨rfl, -, hitems⟩ := hafter.unique hafter' rfl rfl hrest
        obtain ⟨rfl, rfl⟩ := Items.unique items hmean hmean' hitems
        exact ⟨rfl, rfl⟩
  | .last before p after, .next before' p' after' items' =>
    cases h with
    | last hbefore hmeans hafter =>
      cases h' with
      | next hbefore' hmeans' hafter' hmean' =>
        simp only [Items.chars, List.append_assoc, List.cons_append, List.nil_append] at he
        obtain ⟨-, -, htail⟩ := hmeans.align hmeans' hbefore hbefore' he
        exact absurd (Phrase.unique p hmeans hmeans' htail).2 (hcomma hafter hafter')
  | .next before p after items, .last before' p' after' =>
    cases h with
    | next hbefore hmeans hafter hmean =>
      cases h' with
      | last hbefore' hmeans' hafter' =>
        simp only [Items.chars, List.append_assoc, List.cons_append, List.nil_append] at he
        obtain ⟨-, -, htail⟩ := hmeans.align hmeans' hbefore hbefore' he
        exact absurd (Phrase.unique p hmeans hmeans' htail).2.symm (hcomma hafter' hafter)
  | .close blank, .last .. | .close blank, .next .. =>
    cases h with
    | close hblank => cases (Items.Mean.eq_close hblank h' he).choose_spec
  | .last .., .close blank | .next .., .close blank =>
    cases h' with
    | close hblank => cases (Items.Mean.eq_close hblank h he.symm).choose_spec

end

/-! ### Whole texts -/

theorem skipBlank_eq_nil : skipBlank s = [] ↔ Blank s := by
  constructor
  · intro h
    obtain ⟨blank, hblank, hs⟩ := blank_skip s
    rw [hs, h, List.append_nil]
    exact hblank
  · intro h
    have hrun : Run Text.isBlank s [] := ⟨h, nofun⟩
    have hdrop := hrun.dropWhile
    rwa [List.append_nil] at hdrop

/-- A text is read as a value just if the grammar derives it. -/
theorem parseChars_eq_ok {v : Value} :
    parseChars s = .ok v ↔ ∃ tree : Source, tree.chars = s ∧ tree.Means v := by
  unfold parseChars
  constructor
  · intro hr
    split at hr
    · cases hr
    · rename_i w t hread
      split at hr
      · rename_i hend
        cases hr
        obtain ⟨before, p, hbefore, rfl, hmeans⟩ := (tree_of_read _ _).1 _ _ _ hread
        exact ⟨⟨before, p, t⟩, rfl, hbefore, hmeans, skipBlank_eq_nil.1 hend⟩
      · cases hr
  · rintro ⟨tree, rfl, hmeans⟩
    -- A tree is read in as many steps as its text is given.
    have hread : readValue (Text.utf8Size tree.chars) (2 * tree.chars.length + 2) tree.chars =
        .ok (v, tree.after) := tree.phrase.read hmeans.phrase hmeans.before (Nat.le_succ _)
    have hend := skipBlank_eq_nil.2 hmeans.after
    simp only [hread, hend]

theorem Source.Means.unique {tree tree' : Source} {v v' : Value} (h : tree.Means v) (h' : tree'.Means v')
    (he : tree.chars = tree'.chars) : tree = tree' := by
  obtain ⟨before, p, after⟩ := tree
  obtain ⟨before', p', after'⟩ := tree'
  obtain ⟨rfl, -, htail⟩ := h.phrase.align h'.phrase h.before h'.before he
  obtain ⟨rfl, rfl⟩ := p.unique h.phrase h'.phrase htail
  rfl

/-- The reader accepts exactly the texts that the grammar derives, with the values that they mean there, and
rejects every other text. No text has two trees. And it is never the bound on its steps that ends the
reading: with any larger bound it comes to the same, whatever the text is. -/
theorem parse_derives (text : String) :
    (∀ v, parse text = .ok v ↔ ∃ tree : Source, tree.chars = text.toList ∧ tree.Means v) ∧
    ((∃ e, parse text = .error e) ↔ ¬ ∃ (tree : Source) (v : Value), tree.chars = text.toList ∧ tree.Means v) ∧
    (∀ (tree tree' : Source) (v v' : Value), tree.chars = text.toList → tree.Means v →
      tree'.chars = text.toList → tree'.Means v' → tree = tree' ∧ v = v') ∧
    ∀ extra, readValue (Text.utf8Size text.toList) (2 * text.toList.length + 2 + extra) text.toList =
      readValue (Text.utf8Size text.toList) (2 * text.toList.length + 2) text.toList := by
  have hok (v : Value) : parse text = .ok v ↔ ∃ tree : Source, tree.chars = text.toList ∧ tree.Means v :=
    parseChars_eq_ok
  refine ⟨hok, ?_, fun tree tree' v v' hchars hmeans hchars' hmeans' => ?_, fun extra => ?_⟩
  · cases hparse : parse text with
    | error e =>
      refine ⟨?_, fun _ => ⟨e, rfl⟩⟩
      rintro - ⟨tree, v, htree⟩
      cases ((hok v).2 ⟨tree, htree⟩).symm.trans hparse
    | ok v =>
      refine ⟨nofun, fun hnone => ?_⟩
      obtain ⟨tree, htree⟩ := (hok v).1 hparse
      exact absurd ⟨tree, v, htree⟩ hnone
  · have hsame := ((hok v).2 ⟨tree, hchars, hmeans⟩).symm.trans ((hok v').2 ⟨tree', hchars', hmeans'⟩)
    exact ⟨hmeans.unique hmeans' (hchars.trans hchars'.symm), Except.ok.inj hsame⟩
  · exact readValue_add (Nat.le_succ _) extra

/-- How `[-0, 2.5e3 ,'a\'\n', [None,],]` is written, with a tab before it. -/
def Source.nested : Source where
  before := ['\t']
  phrase := .list (.next [] (.number ['-', '0']) []
    (.next [' '] (.number ['2', '.', '5', 'e', '3']) [' ']
      (.next [] (.quoted '\'' [.plain 'a', .escaped '\'', .escaped 'n']) []
        (.next [' '] (.list (.next [] (.word "None".toList) [] (.close []))) [] (.close [])))))
  after := []

-- Statements about the characters of a text are decided over the text, whatever else is in scope.
attribute [local instance (100000)] List.decidableBAll List.decidableBEx

/-- The tree of that text is its only one. -/
theorem parse_derives_nested :
    Source.nested.chars = "\t[-0, 2.5e3 ,'a\\'\\n', [None,],]".toList ∧
    parse "\t[-0, 2.5e3 ,'a\\'\\n', [None,],]" =
      .ok (.list [.int 0, .float ⟨0x40A3880000000000⟩, .str "a'\n", .list [.null]]) ∧
    ∀ (tree : Source) (v : Value), tree.chars = Source.nested.chars → tree.Means v → tree = Source.nested := by
  have hchars : Source.nested.chars = "\t[-0, 2.5e3 ,'a\\'\\n', [None,],]".toList := by decide
  have hmeans : Source.nested.Means
      (.list [.int 0, .float ⟨0x40A3880000000000⟩, .str "a'\n", .list [.null]]) := by
    have hinner : (Items.next [] (.word "None".toList) [] (.close [])).Mean (',' :: [']']) [.null] :=
      .next (by decide) (.word ⟨'N', rfl, by decide⟩ (by decide) (by decide)) (by decide)
        (.close (by decide))
    refine ⟨by decide, .list ?_, by decide⟩
    refine .next (by decide) (.int ⟨'-', rfl, .inl rfl⟩ (by decide) (by decide) rfl) (by decide) ?_
    refine .next (by decide) (.float ⟨'2', rfl, .inr rfl⟩ (by decide) (by decide)
      (Except.ok_of_toOption (by decide +kernel)))
      (by decide) ?_
    refine .next (by decide) (.quoted (.inr rfl) (by decide)) (by decide) ?_
    exact .next (by decide) (.list hinner) (by decide) (.close (by decide))
  obtain ⟨hok, -, hunique, -⟩ := parse_derives "\t[-0, 2.5e3 ,'a\\'\\n', [None,],]"
  refine ⟨hchars, (hok _).2 ⟨_, hchars, hmeans⟩, fun tree v htree hv => ?_⟩
  exact (hunique tree _ v _ (htree.trans hchars) hv hchars hmeans).1

end

end Literal

end InstancePool
