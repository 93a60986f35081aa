import InstancePool.Proofs.Tagged.LayerLimit
import InstancePool.Proofs.Wire.NestingLimit
import InstancePool.Proofs.Interp.Operations
import InstancePool.Tagged.Value

/-!
The tagged text of a value is read as that value. Its tree is as deep as the value, so the limit for nested
lists is the same for writing, for reading, and for the bytes of the wire; only floats depend on the reader's
rule for them. Each list takes two layers of a tree, which matters to a reader with a limit of its own.
-/

namespace InstancePool

namespace Value

mutual

/-- The floats in a value, from the left. -/
def floats : Value → List Binary64
  | .float x => [x]
  | .list items => floatsOf items
  | _ => []

def floatsOf : List Value → List Binary64
  | [] => []
  | v :: vs => v.floats ++ floatsOf vs

end

end Value

namespace Json

mutual

/-- How many arrays are nested in a tree, whatever stands between them. -/
def nesting : Json → Nat
  | .arr items => nestingOf items + 1
  | .obj members => nestingOfMembers members
  | _ => 0

def nestingOf : List Json → Nat
  | [] => 0
  | j :: js => max j.nesting (nestingOf js)

def nestingOfMembers : List (String × Json) → Nat
  | [] => 0
  | m :: ms => max m.2.nesting (nestingOfMembers ms)

end

end Json

namespace Tagged

open Value (maxDepth depthList floatsOf)

variable {rule : FloatRule} {depth : Nat}

/-! ### Trees -/

/-- An integer of 64 bits is held by the tree of its number. -/
theorem int64?_toInt (i : Int64) : int64? (.int i.toInt) = some i := by
  rw [int64?, if_pos ⟨i.le_toInt, i.toInt_lt⟩, Int64.ofInt_toInt]

theorem trees_cons {v : Value} {vs : List Value} {js : List Json} (h : trees depth (v :: vs) = .ok js) :
    ∃ j ks, js = j :: ks ∧ tree depth v = .ok j ∧ trees depth vs = .ok ks := by
  rw [trees] at h
  obtain ⟨j, hj, h⟩ := Except.bind_ok h
  obtain ⟨ks, hks, h⟩ := Except.bind_ok h
  cases h
  exact ⟨j, ks, rfl, hj, hks⟩

theorem tree_list {items : List Value} {j : Json} (h : tree depth (.list items) = .ok j) :
    ∃ d js, depth = d + 1 ∧ j = .obj [("List", .arr js)] ∧ trees d items = .ok js := by
  cases depth with
  | zero => cases h
  | succ d =>
    rw [tree] at h
    obtain ⟨js, hjs, rfl⟩ := Except.map_ok h
    exact ⟨d, js, rfl, rfl, hjs⟩

mutual

/-- The tree of a value is read as that value, within the limit that it was written with. -/
theorem ofTree_tree : ∀ {v : Value} {depth : Nat} {j : Json}, tree depth v = .ok j → ofTree depth j = .ok v
  | .null, _, _, h => by
    cases h
    rfl
  | .bool b, _, _, h => by
    cases h
    rfl
  | .int i, _, _, h => by
    cases h
    show ((int64? (.int i.toInt)).map Value.int).elim _ _ = _
    rw [int64?_toInt]
    rfl
  | .float x, _, _, h => by
    cases h
    rfl
  | .str s, _, _, h => by
    cases h
    rfl
  | .list items, _, _, h => by
    obtain ⟨d, js, rfl, rfl, hjs⟩ := tree_list h
    show (ofTrees d js).map Value.list = _
    rw [ofTrees_trees hjs]
    rfl

theorem ofTrees_trees : ∀ {vs : List Value} {depth : Nat} {js : List Json}, trees depth vs = .ok js →
    ofTrees depth js = .ok vs
  | [], _, _, h => by
    cases h
    rfl
  | v :: vs, _, _, h => by
    obtain ⟨j, ks, rfl, hj, hks⟩ := trees_cons h
    rw [ofTrees, ofTree_tree hj, ofTrees_trees hks]
    rfl

end

mutual

/-- A value has a tree if its lists are nested within the limit, and else it has none. -/
theorem tree_ok_iff : ∀ {v : Value} {depth : Nat}, (∃ j, tree depth v = .ok j) ↔ v.depth ≤ depth
  | .null, _ | .bool _, _ | .int _, _ | .float _, _ | .str _, _ => ⟨fun _ => Nat.zero_le _, fun _ => ⟨_, rfl⟩⟩
  | .list items, 0 => ⟨fun ⟨_, h⟩ => (nomatch h), fun h => absurd h (Nat.not_succ_le_zero _)⟩
  | .list items, depth + 1 => by
    have hitems := @trees_ok_iff items depth
    rw [Value.depth, Nat.succ_le_succ_iff, ← hitems]
    constructor
    · rintro ⟨j, h⟩
      obtain ⟨d, js, hd, -, hjs⟩ := tree_list h
      cases hd
      exact ⟨js, hjs⟩
    · rintro ⟨js, h⟩
      exact ⟨.obj [("List", .arr js)], by rw [tree, h]; rfl⟩

theorem trees_ok_iff : ∀ {vs : List Value} {depth : Nat},
    (∃ js, trees depth vs = .ok js) ↔ depthList vs ≤ depth
  | [], _ => ⟨fun _ => Nat.zero_le _, fun _ => ⟨[], rfl⟩⟩
  | v :: vs, depth => by
    rw [depthList, Nat.max_le, ← @tree_ok_iff v depth, ← @trees_ok_iff vs depth]
    constructor
    · rintro ⟨js, h⟩
      obtain ⟨j, ks, -, hj, hks⟩ := trees_cons h
      exact ⟨⟨j, hj⟩, ks, hks⟩
    · rintro ⟨⟨j, hj⟩, ks, hks⟩
      exact ⟨j :: ks, by rw [trees, hj, hks]; rfl⟩

end

mutual

/-- Of the numbers in a tree, only the floats of the value need a rule. -/
theorem legible_tree : ∀ {v : Value} {depth : Nat} {j : Json}, tree depth v = .ok j →
    (∀ x ∈ v.floats, rule.ReadsBack x) → j.Legible rule
  | .null, _, _, h, _ => by
    cases h
    trivial
  | .bool b, _, _, h, _ => by
    cases h
    exact ⟨trivial, trivial⟩
  | .int i, _, _, h, _ => by
    cases h
    have hlow : -2 ^ 63 ≤ i.toInt := i.le_toInt
    have hhigh : i.toInt < 2 ^ 63 := i.toInt_lt
    exact ⟨⟨hlow, by omega⟩, trivial⟩
  | .float x, _, _, h, hx => by
    cases h
    exact ⟨hx x (List.mem_cons_self ..), trivial⟩
  | .str s, _, _, h, _ => by
    cases h
    exact ⟨trivial, trivial⟩
  | .list items, _, _, h, hitems => by
    obtain ⟨d, js, rfl, rfl, hjs⟩ := tree_list h
    exact ⟨legible_trees hjs hitems, trivial⟩

theorem legible_trees : ∀ {vs : List Value} {depth : Nat} {js : List Json}, trees depth vs = .ok js →
    (∀ x ∈ floatsOf vs, rule.ReadsBack x) → Json.LegibleItems rule js
  | [], _, _, h, _ => by
    cases h
    trivial
  | v :: vs, _, _, h, hvs => by
    obtain ⟨j, ks, rfl, hj, hks⟩ := trees_cons h
    obtain ⟨hv, hrest⟩ := List.forall_mem_append.1 hvs
    exact ⟨legible_tree hj hv, legible_trees hks hrest⟩

end

mutual

/-- Every list of a value is an array in an object, and of what is in them a scalar may be an object. -/
theorem layers_tree : ∀ {v : Value} {depth : Nat} {j : Json}, tree depth v = .ok j →
    2 * v.depth ≤ j.layers ∧ j.layers ≤ 2 * v.depth + 1
  | .null, _, _, h => by
    cases h
    exact ⟨Nat.zero_le _, Nat.zero_le _⟩
  | .bool _, _, _, h | .int _, _, _, h | .float _, _, _, h | .str _, _, _, h => by
    cases h
    exact ⟨Nat.zero_le _, Nat.le_refl 1⟩
  | .list items, _, _, h => by
    obtain ⟨d, js, rfl, rfl, hjs⟩ := tree_list h
    obtain ⟨hlow, hhigh⟩ := layers_trees hjs
    have hlayers : (Json.obj [("List", .arr js)]).layers = Json.layersOf js + 2 :=
      congrArg (· + 1) (Nat.max_zero _)
    rw [hlayers, Value.depth]
    omega

theorem layers_trees : ∀ {vs : List Value} {depth : Nat} {js : List Json}, trees depth vs = .ok js →
    2 * depthList vs ≤ Json.layersOf js ∧ Json.layersOf js ≤ 2 * depthList vs + 1
  | [], _, _, h => by
    cases h
    exact ⟨Nat.zero_le _, Nat.zero_le _⟩
  | v :: vs, _, _, h => by
    obtain ⟨j, ks, rfl, hj, hks⟩ := trees_cons h
    obtain ⟨hlow, hhigh⟩ := layers_tree hj
    obtain ⟨hlows, hhighs⟩ := layers_trees hks
    rw [depthList, Json.layersOf]
    omega

end

/-- A reader that keeps only the leading digits, and rounds twice, does not read every float back. -/
example :
    let v : Value := .float ⟨0x47B691CA32818ED5⟩
    write v = .ok "\x7b\"Float\":3e+37\x7d" ∧ (read "\x7b\"Float\":3e+37\x7d").toOption ≠ some v := by
  decide +kernel

end Tagged

end InstancePool
