import InstancePool.Proofs.Literal.Parser
import InstancePool.Proofs.Interp.Reach

/-!
What a module text says. A line is blank, a comment, a binding or wrong; the first wrong line is the one that
is reported, and of several bindings of a name the last one stands. So lines that say nothing can come and
go, and so can bindings that a later line takes back.
-/

namespace InstancePool

namespace Text

theorem splitAt?_cons {mark c : Char} {s : List Char} :
    splitAt? mark (c :: s) =
      if c = mark then some ([], s) else (splitAt? mark s).map fun r => (c :: r.1, r.2) := by
  unfold splitAt?
  by_cases hc : c = mark
  · simp only [List.dropWhile_cons, List.takeWhile_cons, hc, ne_eq, not_true_eq_false, decide_false,
      Bool.false_eq_true, if_false, if_true]
  · simp only [List.dropWhile_cons, List.takeWhile_cons, hc, ne_eq, not_false_eq_true, decide_true,
      if_true, if_false]
    cases List.dropWhile (fun c => decide (¬ c = mark)) s <;> rfl

theorem splitAt?_eq_none {mark : Char} {s : List Char} : splitAt? mark s = none ↔ mark ∉ s := by
  induction s with
  | nil => exact iff_of_true rfl nofun
  | cons c s ih =>
    rw [splitAt?_cons, List.mem_cons, not_or]
    by_cases hc : c = mark
    · simp only [hc, if_true, reduceCtorEq, not_true_eq_false, false_and]
    · rw [if_neg hc, Option.map_eq_none_iff, ih]
      exact (and_iff_right (Ne.symm hc)).symm

theorem splitAt?_eq_some {mark : Char} {s left right : List Char} :
    splitAt? mark s = some (left, right) ↔ s = left ++ mark :: right ∧ mark ∉ left := by
  constructor
  · intro h
    induction s generalizing left with
    | nil => cases h
    | cons c s ih =>
      rw [splitAt?_cons] at h
      by_cases hc : c = mark
      · rw [if_pos hc] at h
        cases h
        exact ⟨by rw [hc, List.nil_append], nofun⟩
      · rw [if_neg hc] at h
        obtain ⟨⟨left', right'⟩, hs, he⟩ := Option.map_eq_some_iff.1 h
        cases he
        obtain ⟨rfl, hleft⟩ := ih hs
        exact ⟨rfl, List.not_mem_cons_of_ne_of_not_mem (Ne.symm hc) hleft⟩
  · rintro ⟨rfl, hleft⟩
    induction left with
    | nil => rw [List.nil_append, splitAt?_cons, if_pos rfl]
    | cons c left ih =>
      rw [List.mem_cons, not_or] at hleft
      rw [List.cons_append, splitAt?_cons, if_neg (Ne.symm hleft.1), ih hleft.2]
      rfl

end Text

namespace ModuleText

/-- A line that is neither blank nor a comment. -/
def Relevant (line : List Char) : Prop :=
  Text.trim line ≠ [] ∧ (Text.trim line).head? ≠ some '#'

/-- The first equals sign of a trimmed line has `left` before it and `right` behind it. -/
def Cut (line left right : List Char) : Prop := Text.trim line = left ++ '=' :: right ∧ '=' ∉ left

def ValidName (s : List Char) : Prop := s ≠ [] ∧ ∀ c ∈ s, Literal.isAlphanumeric c = true ∨ c = '_'

/-- A relevant line that is no binding, and why. -/
inductive Wrong (line : List Char) : Problem → Prop
  | unmarked (hr : Relevant line) (hmark : '=' ∉ Text.trim line) : Wrong line .notABinding
  | unnamed {left right : List Char} (hr : Relevant line) (hcut : Cut line left right)
    (hname : ¬ ValidName (Text.trim left)) : Wrong line .notABinding
  | unread {left right : List Char} {cause : Literal.Error} (hr : Relevant line) (hcut : Cut line left right)
    (hname : ValidName (Text.trim left)) (hvalue : Literal.parseChars right = .error cause) :
    Wrong line (.badLiteral cause)

/-- A relevant line that binds a name to a value. -/
inductive Binds (line : List Char) : String → Value → Prop
  | intro {left right : List Char} {v : Value} (hr : Relevant line) (hcut : Cut line left right)
    (hname : ValidName (Text.trim left)) (hvalue : Literal.parseChars right = .ok v) :
    Binds line (String.ofList (Text.trim left)) v

/-- The last line that binds a name binds it to that value. -/
def LastBinds (lines : List (List Char)) (name : String) (v : Value) : Prop :=
  ∃ before line after, lines = before ++ line :: after ∧ Binds line name v ∧
    ∀ l ∈ after, ∀ w, ¬ Binds l name w

/-- Changes of the lines of a text that take nothing from what it says. -/
inductive Revised (lines : List (List Char)) : List (List Char) → Prop
  | same : Revised lines lines
  | inserted {before after : List (List Char)} {line : List Char} (h : Revised lines (before ++ after))
    (hline : ¬ Relevant line) : Revised lines (before ++ line :: after)
  | removed {before after : List (List Char)} {line : List Char}
    (h : Revised lines (before ++ line :: after)) (hline : ¬ Relevant line) :
    Revised lines (before ++ after)
  /-- A binding goes that a later line takes back. -/
  | overwritten {before after : List (List Char)} {line later : List Char} {name : String} {v w : Value}
    (h : Revised lines (before ++ line :: after)) (hline : Binds line name v) (hlater : later ∈ after)
    (hagain : Binds later name w) : Revised lines (before ++ after)

variable {line : List Char} {lines lines' before after : List (List Char)} {name x : String} {v w : Value}
  {problem : Problem} {bindings : List (String × Value)}

/-! ### One line -/

theorem isRelevant_iff : isRelevant (Text.trim line) = true ↔ Relevant line := by
  rw [isRelevant, Bool.and_eq_true, decide_eq_true_eq, decide_eq_true_eq]
  exact Iff.rfl

theorem isName_iff {s : List Char} : isName s = true ↔ ValidName s := by
  simp only [isName, isNameChar, Bool.and_eq_true, decide_eq_true_eq, List.all_eq_true, Bool.or_eq_true,
    ValidName]

theorem Binds.relevant (h : Binds line name v) : Relevant line := by
  cases h with
  | intro hr _ _ _ => exact hr

theorem Wrong.relevant (h : Wrong line problem) : Relevant line := by
  cases h with
  | unmarked hr _ => exact hr
  | unnamed hr _ _ => exact hr
  | unread hr _ _ _ => exact hr

theorem Binds.read (h : Binds line name v) : readBinding (Text.trim line) = .ok (name, v) := by
  cases h with
  | intro hr hcut hname hvalue =>
    simp only [readBinding, Text.splitAt?_eq_some.2 hcut, isName_iff.2 hname, if_true, hvalue]

theorem Wrong.read (h : Wrong line problem) : readBinding (Text.trim line) = .error problem := by
  cases h with
  | unmarked hr hmark => rw [readBinding, Text.splitAt?_eq_none.2 hmark]
  | unnamed hr hcut hname =>
    simp only [readBinding, Text.splitAt?_eq_some.2 hcut, mt isName_iff.1 hname, Bool.false_eq_true, if_false]
  | unread hr hcut hname hvalue =>
    simp only [readBinding, Text.splitAt?_eq_some.2 hcut, isName_iff.2 hname, if_true, hvalue]

/-- A relevant line is wrong or a binding, and it is read as what it is. -/
theorem binds_or_wrong (hr : Relevant line) :
    (∃ name v, Binds line name v) ∨ ∃ problem, Wrong line problem := by
  by_cases hmark : '=' ∈ Text.trim line
  · obtain ⟨left, right, hcut⟩ : ∃ left right, Cut line left right := by
      cases hs : Text.splitAt? '=' (Text.trim line) with
      | none => exact absurd hmark (Text.splitAt?_eq_none.1 hs)
      | some parts => exact ⟨parts.1, parts.2, Text.splitAt?_eq_some.1 hs⟩
    by_cases hname : ValidName (Text.trim left)
    · cases hvalue : Literal.parseChars right with
      | ok v => exact .inl ⟨_, v, .intro hr hcut hname hvalue⟩
      | error cause => exact .inr ⟨_, .unread hr hcut hname hvalue⟩
    · exact .inr ⟨_, .unnamed hr hcut hname⟩
  · exact .inr ⟨_, .unmarked hr hmark⟩

theorem Binds.not_wrong (h : Binds line name v) : ¬ Wrong line problem := by
  intro hw
  have hread := h.read
  rw [hw.read] at hread
  cases hread

theorem Binds.unique (h : Binds line name v) (h' : Binds line x w) : name = x ∧ v = w := by
  have hread := h.read
  rw [h'.read] at hread
  cases hread
  exact ⟨rfl, rfl⟩

theorem binds_of_read (hr : isRelevant (Text.trim line) = true)
    (hread : readBinding (Text.trim line) = .ok (name, v)) : Binds line name v := by
  rcases binds_or_wrong (isRelevant_iff.1 hr) with ⟨x, w, hline⟩ | ⟨problem, hline⟩
  · rw [hline.read] at hread
    cases hread
    exact hline
  · rw [hline.read] at hread
    cases hread

/-! ### All lines -/

/-- Lines of which none is wrong, and the bindings among them in order. -/
inductive Said : List (List Char) → List (String × Value) → Prop
  | nil : Said [] []
  | skip {line : List Char} {lines : List (List Char)} {bindings : List (String × Value)}
    (hline : ¬ Relevant line) (h : Said lines bindings) : Said (line :: lines) bindings
  | bind {line : List Char} {lines : List (List Char)} {bindings : List (String × Value)} {name : String}
    {v : Value} (hline : Binds line name v) (h : Said lines bindings) :
    Said (line :: lines) ((name, v) :: bindings)

theorem Said.not_wrong (h : Said lines bindings) : ∀ line ∈ lines, ∀ problem, ¬ Wrong line problem := by
  induction h with
  | nil => exact nofun
  | skip hline h ih => exact List.forall_mem_cons.2 ⟨fun problem hw => hline hw.relevant, ih⟩
  | bind hline h ih => exact List.forall_mem_cons.2 ⟨fun problem => hline.not_wrong, ih⟩

theorem Said.mem_names (h : Said lines bindings) :
    name ∈ bindings.map Prod.fst ↔ ∃ line ∈ lines, ∃ v, Binds line name v := by
  induction h with
  | nil => exact iff_of_false nofun nofun
  | skip hline h ih =>
    simp only [ih, List.mem_cons, exists_eq_or_imp]
    exact (or_iff_right fun ⟨v, hv⟩ => hline hv.relevant).symm
  | @bind line lines bindings x v hline h ih =>
    simp only [List.map_cons, List.mem_cons, ih, exists_eq_or_imp]
    refine or_congr ⟨fun he => ⟨v, he ▸ hline⟩, fun ⟨w, hw⟩ => ?_⟩ Iff.rfl
    exact (hw.unique hline).1

theorem lastBinds_cons :
    LastBinds (line :: lines) name v ↔
      LastBinds lines name v ∨ (Binds line name v ∧ ∀ l ∈ lines, ∀ w, ¬ Binds l name w) := by
  constructor
  · rintro ⟨before, l, after, he, hl, hafter⟩
    cases before with
    | nil =>
      cases he
      exact .inr ⟨hl, hafter⟩
    | cons b before =>
      cases he
      exact .inl ⟨before, l, after, rfl, hl, hafter⟩
  · rintro (⟨before, l, after, rfl, hl, hafter⟩ | ⟨hline, hlines⟩)
    · exact ⟨line :: before, l, after, rfl, hl, hafter⟩
    · exact ⟨[], line, lines, rfl, hline, hlines⟩

theorem not_lastBinds_nil : ¬ LastBinds [] name v := by
  rintro ⟨before, line, after, he, -⟩
  exact absurd he.symm (List.append_ne_nil_of_right_ne_nil _ (List.cons_ne_nil _ _))

/-- The last binding of a name among the bindings comes from the last line that binds it. -/
theorem Said.lastBinds (h : Said lines bindings) :
    LastBinds lines name v ↔
      ∃ before after, bindings = before ++ (name, v) :: after ∧ name ∉ after.map Prod.fst := by
  induction h with
  | nil =>
    refine iff_of_false not_lastBinds_nil ?_
    rintro ⟨before, after, he, -⟩
    exact absurd he.symm (List.append_ne_nil_of_right_ne_nil _ (List.cons_ne_nil _ _))
  | skip hline h ih =>
    rw [lastBinds_cons, ih]
    exact or_iff_left fun hb => hline hb.1.relevant
  | @bind line lines bindings x w hline h ih =>
    rw [lastBinds_cons, ih]
    -- The first line has the last binding just if no later line binds the name.
    have hlines : (∀ l ∈ lines, ∀ u, ¬ Binds l name u) ↔ name ∉ bindings.map Prod.fst := by
      rw [h.mem_names]
      simp only [not_exists, not_and]
    rw [hlines]
    constructor
    · rintro (⟨before, after, rfl, hafter⟩ | ⟨hb, hname⟩)
      · exact ⟨(x, w) :: before, after, rfl, hafter⟩
      · obtain ⟨rfl, rfl⟩ := hline.unique hb
        exact ⟨[], bindings, rfl, hname⟩
    · rintro ⟨before, after, he, hafter⟩
      cases before with
      | nil =>
        cases he
        exact .inr ⟨hline, hafter⟩
      | cons b before =>
        cases he
        exact .inl ⟨before, after, rfl, hafter⟩

/-- What reading some lines comes to: all that they say, or the number and the problem of the first wrong
one. -/
theorem readLines_cases (number : Nat) (lines : List (List Char)) :
    (∃ bindings, readLines number lines = (bindings, none) ∧ Said lines bindings) ∨
      ∃ before line after problem, lines = before ++ line :: after ∧
        (∀ l ∈ before, ∀ p, ¬ Wrong l p) ∧ Wrong line problem ∧
        (readLines number lines).2 = some (number + before.length, problem) := by
  -- The induction carries the number of the first line along.
  induction lines generalizing number with
  | nil => exact .inl ⟨[], rfl, .nil⟩
  | cons line rest ih =>
    by_cases hr : Relevant line
    · rcases binds_or_wrong hr with ⟨name, v, hline⟩ | ⟨problem, hline⟩
      · have hread : readLines number (line :: rest) =
            ((name, v) :: (readLines (number + 1) rest).1, (readLines (number + 1) rest).2) := by
          rw [readLines, if_pos (isRelevant_iff.2 hr), hline.read]
        rcases ih (number + 1) with ⟨bindings, hrest, hsaid⟩ | ⟨before, l, after, problem, rfl, hb, hl, hrest⟩
        · exact .inl ⟨(name, v) :: bindings, by rw [hread, hrest], .bind hline hsaid⟩
        · refine .inr ⟨line :: before, l, after, problem, rfl, ?_, hl, ?_⟩
          · exact List.forall_mem_cons.2 ⟨fun p => hline.not_wrong, hb⟩
          · rw [hread, hrest, List.length_cons, Nat.add_right_comm, Nat.add_assoc]
      · refine .inr ⟨[], line, rest, problem, rfl, nofun, hline, ?_⟩
        rw [readLines, if_pos (isRelevant_iff.2 hr), hline.read]
        rfl
    · have hread : readLines number (line :: rest) = readLines (number + 1) rest := by
        rw [readLines, if_neg fun h => hr (isRelevant_iff.1 h)]
      rcases ih (number + 1) with ⟨bindings, hrest, hsaid⟩ | ⟨before, l, after, problem, rfl, hb, hl, hrest⟩
      · exact .inl ⟨bindings, by rw [hread, hrest], .skip hr hsaid⟩
      · refine .inr ⟨line :: before, l, after, problem, rfl, ?_, hl, ?_⟩
        · exact List.forall_mem_cons.2 ⟨fun p hp => hr hp.relevant, hb⟩
        · rw [hread, hrest, List.length_cons, Nat.add_right_comm, Nat.add_assoc]

/-! ### Revisions -/

theorem lastBinds_append :
    LastBinds (before ++ after) name v ↔
      LastBinds after name v ∨ (LastBinds before name v ∧ ∀ l ∈ after, ∀ w, ¬ Binds l name w) := by
  induction before with
  | nil =>
    rw [List.nil_append]
    exact (or_iff_left fun h => not_lastBinds_nil h.1).symm
  | cons line before ih =>
    rw [List.cons_append, lastBinds_cons, ih, lastBinds_cons, or_assoc, or_and_right, and_assoc]
    refine or_congr_right (or_congr_right (and_congr_right fun _ => ?_))
    rw [List.forall_mem_append]

/-- A line can go if no name has its last binding there. -/
theorem lastBinds_drop
    (hline : ∀ name v, Binds line name v → ∃ l ∈ after, ∃ w, Binds l name w) :
    LastBinds (before ++ line :: after) name v ↔ LastBinds (before ++ after) name v := by
  have hafter : LastBinds (line :: after) name v ↔ LastBinds after name v := by
    rw [lastBinds_cons]
    refine or_iff_left fun ⟨hb, hnone⟩ => ?_
    obtain ⟨l, hl, w, hw⟩ := hline name v hb
    exact hnone l hl w hw
  have hnone : (∀ l ∈ line :: after, ∀ w, ¬ Binds l name w) ↔ ∀ l ∈ after, ∀ w, ¬ Binds l name w := by
    rw [List.forall_mem_cons]
    refine and_iff_right_of_imp fun h w hw => ?_
    obtain ⟨l, hl, u, hu⟩ := hline name w hw
    exact h l hl u hu
  -- Neither what comes after the line nor what comes before it can tell the difference.
  rw [lastBinds_append, lastBinds_append, hafter, hnone]

/-- Revised lines are not wrong where the lines were not, and they say the same. -/
theorem Revised.keeps (h : Revised lines lines') (hlines : ∀ line ∈ lines, ∀ p, ¬ Wrong line p) :
    (∀ line ∈ lines', ∀ p, ¬ Wrong line p) ∧
      ∀ name v, LastBinds lines' name v ↔ LastBinds lines name v := by
  -- Each kind of revision adds or takes one line that binds no name last.
  induction h with
  | same => exact ⟨hlines, fun _ _ => Iff.rfl⟩
  | @inserted before after line _ hline ih =>
    refine ⟨?_, fun name v => (lastBinds_drop ?_).trans (ih.2 name v)⟩
    · have hrest := List.forall_mem_append.1 ih.1
      refine List.forall_mem_append.2 ⟨hrest.1, List.forall_mem_cons.2 ⟨?_, hrest.2⟩⟩
      exact fun p hp => hline hp.relevant
    · exact fun name v hb => absurd hb.relevant hline
  | @removed before after line _ hline ih =>
    refine ⟨?_, fun name v => (lastBinds_drop ?_).symm.trans (ih.2 name v)⟩
    · have hrest := List.forall_mem_append.1 ih.1
      exact List.forall_mem_append.2 ⟨hrest.1, (List.forall_mem_cons.1 hrest.2).2⟩
    · exact fun name v hb => absurd hb.relevant hline
  | @overwritten before after line later x v w _ hline hlater hagain ih =>
    refine ⟨?_, fun name v => (lastBinds_drop ?_).symm.trans (ih.2 name v)⟩
    · have hrest := List.forall_mem_append.1 ih.1
      exact List.forall_mem_append.2 ⟨hrest.1, (List.forall_mem_cons.1 hrest.2).2⟩
    · intro name u hb
      obtain ⟨rfl, rfl⟩ := hline.unique hb
      exact ⟨later, hlater, w, hagain⟩

end ModuleText

namespace Heap

/-- The last object that was added for a name is the one that it is bound to. -/
theorem allocNamed_last {members : Table String ObjectIndex} {h : Heap} {before after : List (String × Object)}
    {name : String} {o : Object} (hname : name ∉ after.map Prod.fst) :
    (allocNamed members h (before ++ (name, o) :: after)).1.get? name =
      some (h.objects.length + before.length) := by
  induction before generalizing members h with
  | nil =>
    rw [List.nil_append, allocNamed, allocNamed_get?_of_not_mem hname, Table.get?_insert_self,
      List.length_nil, Nat.add_zero]
  | cons item before ih =>
    rw [List.cons_append, allocNamed, ih, alloc, List.length_append, List.length_singleton, List.length_cons,
      Nat.add_right_comm, Nat.add_assoc]

/-- A name that is bound is bound a last time. -/
theorem exists_last_binding {bindings : List (String × Value)} {x : String} (hx : x ∈ bindings.map Prod.fst) :
    ∃ v before after, bindings = before ++ (x, v) :: after ∧ x ∉ after.map Prod.fst := by
  induction bindings with
  | nil => cases hx
  | cons b rest ih =>
    by_cases hrest : x ∈ rest.map Prod.fst
    · obtain ⟨v, before, after, rfl, hafter⟩ := ih hrest
      exact ⟨v, b :: before, after, rfl, hafter⟩
    · rw [List.map_cons, List.mem_cons, or_iff_left hrest] at hx
      exact ⟨b.2, [], rest, by rw [hx, List.nil_append], hrest⟩

/-- A namespace that has a member for each name that has a value, with that value, and no other members. -/
def Holds (h : Heap) (n : ObjectIndex) (values : String → Value → Prop) : Prop :=
  ∃ members, h.get n = .space members ∧
    (∀ x v, values x v → ∃ y, members.get? x = some y ∧ h.get y = .value v) ∧
    ∀ x y, members.get? x = some y → ∃ v, values x v ∧ h.get y = .value v

theorem Holds.congr {h : Heap} {n : ObjectIndex} {values values' : String → Value → Prop}
    (hn : h.Holds n values) (he : ∀ x v, values' x v ↔ values x v) : h.Holds n values' := by
  have hvalues : values' = values := funext fun x => funext fun v => propext (he x v)
  rwa [hvalues]

/-- The namespace of some bindings holds the last value of each name. -/
theorem holds_allocBindings (h : Heap) (bindings : List (String × Value)) :
    ((h.allocBindings bindings).2.alloc (.space (h.allocBindings bindings).1)).2.Holds
      (h.allocBindings bindings).2.objects.length
      fun x v => ∃ before after, bindings = before ++ (x, v) :: after ∧ x ∉ after.map Prod.fst := by
  rw [allocBindings_eq]
  generalize hitems : bindings.map (fun b => (b.1, Object.value b.2)) = items
  let full : Heap := ((allocNamed Table.empty h items).2.alloc (.space (allocNamed Table.empty h items).1)).2
  -- The object of a last binding is where the name is bound to.
  have hlast (x : String) (v : Value) (before after : List (String × Value))
      (he : bindings = before ++ (x, v) :: after) (hafter : x ∉ after.map Prod.fst) :
      (allocNamed Table.empty h items).1.get? x = some (h.objects.length + before.length) ∧
        full.get (h.objects.length + before.length) = .value v := by
    subst he
    rw [List.map_append, List.map_cons] at hitems
    subst hitems
    constructor
    · rw [allocNamed_last, List.length_map]
      rwa [List.map_map]
    · simp only [full, get, alloc, allocNamed_objects, List.append_assoc, List.map_append, List.map_cons]
      rw [List.getElem?_append_right (Nat.le_add_right ..), Nat.add_sub_cancel_left,
        List.getElem?_append_right (by simp only [List.length_map, Nat.le_refl]), List.length_map,
        List.length_map, Nat.sub_self]
      rfl
  refine ⟨(allocNamed Table.empty h items).1, ?_, fun x v => ?_, fun x y hy => ?_⟩
  · rw [get, alloc, List.getElem?_concat_length]
    rfl
  · rintro ⟨before, after, he, hafter⟩
    exact ⟨_, hlast x v before after he hafter⟩
  · have hx : x ∈ bindings.map Prod.fst := by
      -- A member comes from some binding of its name, and then from the last one.
      refine Decidable.byContradiction fun hx => ?_
      have hnone : (allocNamed Table.empty h items).1.get? x = none := by
        rw [← hitems, allocNamed_get?_eq_none, List.map_map]
        exact ⟨rfl, hx⟩
      rw [hnone] at hy
      cases hy
    obtain ⟨v, before, after, he, hafter⟩ := exists_last_binding hx
    obtain ⟨hget, hvalue⟩ := hlast x v before after he hafter
    rw [hget] at hy
    cases hy
    exact ⟨v, ⟨before, after, he, hafter⟩, hvalue⟩

end Heap

namespace Engine

open ModuleText

variable {source : TextSource} {name : String} {e : Engine} {text : String}

/-- A module that is not cached and has a text is what the text says, or the problem of the text. -/
theorem findModule_of_text (hnew : e.interp.modules.get? name = none)
    (htext : source e.interp.resolver name = some text) :
    (∃ n, (e.findModule source name).1 = .ok n ∧
      (∀ line ∈ Text.lines text.toList, ∀ p, ¬ Wrong line p) ∧
      (e.findModule source name).2.heap.Holds n (LastBinds (Text.lines text.toList))) ∨
    ∃ before line after problem, Text.lines text.toList = before ++ line :: after ∧
      (∀ l ∈ before, ∀ p, ¬ Wrong l p) ∧ Wrong line problem ∧
      (e.findModule source name).1 = .error (.badModule name (before.length + 1) problem) := by
  unfold findModule
  rw [hnew]
  simp only [htext]
  rcases readLines_cases 1 (Text.lines text.toList) with ⟨bindings, hread, hsaid⟩ |
    ⟨before, line, after, problem, he, hbefore, hline, hread⟩
  · have hread : ModuleText.read text = (bindings, none) := hread
    refine .inl ⟨_, by rw [hread], hsaid.not_wrong, ?_⟩
    rw [hread]
    exact (e.heap.holds_allocBindings bindings).congr fun x v => hsaid.lastBinds
  · have hread : (ModuleText.read text).2 = some (1 + before.length, problem) := hread
    refine .inr ⟨before, line, after, problem, he, hbefore, hline, ?_⟩
    rw [hread, Nat.add_comm]

/-- What becomes of a module text: which texts fail, with which fault, what the others bind, and that revised
texts bind the same. -/
theorem module_text_binds (hnew : e.interp.modules.get? name = none)
    (htext : source e.interp.resolver name = some text) :
    ((∃ f, (e.findModule source name).1 = .error f) ↔
      ∃ line ∈ Text.lines text.toList, ∃ problem, Wrong line problem) ∧
    (∀ f, (e.findModule source name).1 = .error f → ∃ before line after problem,
      Text.lines text.toList = before ++ line :: after ∧ (∀ l ∈ before, ∀ p, ¬ Wrong l p) ∧
      Wrong line problem ∧ f.fault =
        ⟨.runtime, name ++ ":" ++ toString (before.length + 1) ++ ": " ++ problem.message⟩) ∧
    ∀ n, (e.findModule source name).1 = .ok n →
      (e.findModule source name).2.heap.Holds n (LastBinds (Text.lines text.toList)) ∧
      ∀ (source' : TextSource) (name' : String) (e' : Engine) (text' : String),
        e'.interp.modules.get? name' = none → source' e'.interp.resolver name' = some text' →
        Revised (Text.lines text.toList) (Text.lines text'.toList) →
        ∃ n', (e'.findModule source' name').1 = .ok n' ∧
          (e'.findModule source' name').2.heap.Holds n' (LastBinds (Text.lines text.toList)) := by
  rcases findModule_of_text hnew htext with ⟨n, hn, hright, hholds⟩ |
    ⟨before, line, after, problem, he, hbefore, hline, hfound⟩
  · refine ⟨⟨fun ⟨f, hf⟩ => ?_, fun ⟨line, hl, p, hp⟩ => absurd hp (hright line hl p)⟩, fun f hf => ?_,
      fun n' hn' => ?_⟩
    · rw [hn] at hf
      cases hf
    · rw [hn] at hf
      cases hf
    rw [hn] at hn'
    cases hn'
    -- A revision has no wrong line either, so it can be read too.
    refine ⟨hholds, fun source' name' e' text' hnew' htext' hrev => ?_⟩
    obtain ⟨hright', hbinds⟩ := hrev.keeps hright
    rcases findModule_of_text hnew' htext' with ⟨n', hn', -, hholds'⟩ |
      ⟨before, line, after, problem, he, -, hline, -⟩
    · exact ⟨n', hn', hholds'.congr fun x v => (hbinds x v).symm⟩
    · exact absurd hline (hright' line (he ▸ List.mem_append_right _ (List.mem_cons_self ..)) problem)
  · refine ⟨⟨fun _ => ⟨line, ?_, problem, hline⟩, fun _ => ⟨_, hfound⟩⟩, fun f hf => ?_, fun n hn => ?_⟩
    · exact he ▸ List.mem_append_right _ (List.mem_cons_self ..)
    · rw [hfound] at hf
      cases hf
      exact ⟨before, line, after, problem, he, hbefore, hline, rfl⟩
    · rw [hfound] at hn
      cases hn

/-- A source that has the same text for every module. -/
def fixedText (text : String) : TextSource := fun _ _ => some text

/-- A text with a comment, a blank line and a binding that is taken back, the same text without them, and a
text whose third line is wrong. -/
theorem module_text_binds_revised :
    let e := Interp.create {} [] false none
    let full := "# sizes\n\nwidth = 3\r\n name_2='a=#'\nwidth = [4, None]"
    let short := " name_2='a=#'\nwidth = [4, None]\n"
    let wrong := "a = 1\n# b\nc d = 3"
    let said := LastBinds (Text.lines full.toList)
    (said "width" (.list [.int 4, .null]) ∧ said "name_2" (.str "a=#")) ∧
    (∃ n, (e.findModule (fixedText full) "m").1 = .ok n ∧
      (e.findModule (fixedText full) "m").2.heap.Holds n said) ∧
    (∃ n, (e.findModule (fixedText short) "m").1 = .ok n ∧
      (e.findModule (fixedText short) "m").2.heap.Holds n said) ∧
    ∃ f, (e.findModule (fixedText wrong) "m").1 = .error f := by
  intro e full short wrong said
  have hnew : e.interp.modules.get? "m" = none := by decide +kernel
  have hlines : Text.lines full.toList = ["# sizes".toList, [], "width = 3".toList, " name_2='a=#'".toList,
    "width = [4, None]".toList] := by decide +kernel
  have hfirst : Binds "width = 3".toList "width" (.int 3) :=
    binds_of_read (by decide +kernel) (Except.ok_of_toOption (by decide +kernel))
  have hsecond : Binds " name_2='a=#'".toList "name_2" (.str "a=#") :=
    binds_of_read (by decide +kernel) (Except.ok_of_toOption (by decide +kernel))
  have hthird : Binds "width = [4, None]".toList "width" (.list [.int 4, .null]) :=
    binds_of_read (by decide +kernel) (Except.ok_of_toOption (by decide +kernel))
  have hcomment : ¬ Relevant "# sizes".toList := fun h => absurd (isRelevant_iff.2 h) (by decide +kernel)
  have hblank : ¬ Relevant [] := fun h => absurd (isRelevant_iff.2 h) (by decide +kernel)
  have hwidth : said "width" (.list [.int 4, .null]) :=
    ⟨["# sizes".toList, [], "width = 3".toList, " name_2='a=#'".toList], _, [], hlines, hthird, nofun⟩
  have hname : said "name_2" (.str "a=#") := by
    refine ⟨["# sizes".toList, [], "width = 3".toList], _, _, hlines, hsecond, fun l hl w hw => ?_⟩
    rw [List.mem_singleton.1 hl] at hw
    exact absurd (hthird.unique hw).1 (by decide)
  have hrevised : Revised (Text.lines full.toList) (Text.lines short.toList) := by
    have hshort : Text.lines short.toList =
      [] ++ [" name_2='a=#'".toList, "width = [4, None]".toList] := by decide +kernel
    rw [hshort]
    have hfirstLeft : Revised (Text.lines full.toList) ([] ++ "width = 3".toList ::
        [" name_2='a=#'".toList, "width = [4, None]".toList]) := by
      rw [hlines]
      exact @Revised.removed _ [] _ [] (@Revised.removed _ [] _ _ .same hcomment) hblank
    exact .overwritten hfirstLeft hfirst (.tail _ (.head _)) hthird
  have hwrong : Wrong "c d = 3".toList .notABinding :=
    @Wrong.unnamed _ "c d ".toList " 3".toList (isRelevant_iff.1 (by decide +kernel))
      ⟨by decide +kernel, by decide +kernel⟩ fun h => absurd (isName_iff.2 h) (by decide +kernel)
  have hmem : "c d = 3".toList ∈ Text.lines wrong.toList := by decide +kernel
  obtain ⟨n, hn⟩ : ∃ n, (e.findModule (fixedText full) "m").1 = .ok n :=
    ⟨12, Except.ok_of_toOption (by decide +kernel)⟩
  obtain ⟨-, -, hfull⟩ := @module_text_binds (fixedText full) "m" e full hnew rfl
  obtain ⟨hholds, hagain⟩ := hfull n hn
  obtain ⟨hfails, -⟩ := @module_text_binds (fixedText wrong) "m" e wrong hnew rfl
  exact ⟨⟨hwidth, hname⟩, ⟨n, hn, hholds⟩, hagain (fixedText short) "m" e short hnew rfl hrevised,
    hfails.2 ⟨_, hmem, _, hwrong⟩⟩

end Engine

end InstancePool
