import InstancePool.Proofs.Tagged.JsonText

/-!
The limit of a reader for layers. A reader with a limit reads just the texts whose tree has fewer arrays and
objects in one another, and it reads them as a reader without a limit does.
-/

namespace InstancePool

namespace Json

variable {rule : FloatRule} {limit : Option Nat} {s : List Char}

mutual

/-- How many arrays and objects stand in one another in a tree. -/
def layers : Json → Nat
  | .arr items => layersOf items + 1
  | .obj members => layersOfMembers members + 1
  | _ => 0

def layersOf : List Json → Nat
  | [] => 0
  | j :: js => max j.layers (layersOf js)

def layersOfMembers : List (String × Json) → Nat
  | [] => 0
  | m :: ms => max m.2.layers (layersOfMembers ms)

end

/-- A number of layers stays below a limit, if there is one. -/
def Allows (limit : Option Nat) (layers : Nat) : Prop := ∀ n ∈ limit, layers < n

theorem allows_none (layers : Nat) : Allows none layers := nofun

theorem allows_some {n layers : Nat} : Allows (some n) layers ↔ layers < n := by
  simp only [Allows, Option.mem_def, Option.some.injEq, forall_eq']

theorem Allows.mono {a b : Nat} (h : Allows limit b) (hle : a ≤ b) : Allows limit a :=
  fun n hn => Nat.lt_of_le_of_lt hle (h n hn)

theorem allows_max {a b : Nat} : Allows limit (max a b) ↔ Allows limit a ∧ Allows limit b := by
  simp only [Allows, Nat.max_lt]
  exact ⟨fun h => ⟨fun n hn => (h n hn).1, fun n hn => (h n hn).2⟩,
    fun ⟨ha, hb⟩ n hn => ⟨ha n hn, hb n hn⟩⟩

/-- Inside one more layer there is room for one layer less. -/
theorem inner?_cases (limit : Option Nat) :
    (∃ inside, inner? limit = some inside ∧ Allows inside 0 ∧ ∀ n, Allows limit (n + 1) ↔ Allows inside n) ∨
      inner? limit = none ∧ ∀ n, ¬ Allows limit (n + 1) := by
  cases limit with
  | none => exact .inl ⟨none, rfl, allows_none 0, fun n => iff_of_true (allows_none _) (allows_none n)⟩
  | some m =>
    simp only [inner?, allows_some]
    split
    · exact .inl ⟨some (m - 1), rfl, allows_some.2 (by omega), fun n => by rw [allows_some]; omega⟩
    · exact .inr ⟨rfl, fun n => by omega⟩

/-- One reader comes to just those results of another that satisfy a condition. -/
def Filters {α : Type} (P : α → Prop) (x y : Option α) : Prop := ∀ a, x = some a ↔ y = some a ∧ P a

section

variable {α β : Type} {P : α → Prop} {Q : β → Prop} {x y : Option α}

theorem filters_none : Filters P none none := fun _ => ⟨nofun, fun h => nomatch h.1⟩

theorem filters_self (h : ∀ a, x = some a → P a) : Filters P x x :=
  fun a => ⟨fun hx => ⟨hx, h a hx⟩, And.left⟩

theorem Filters.map {f : α → β} (h : Filters P x y) (hf : ∀ a, P a ↔ Q (f a)) :
    Filters Q (x.map f) (y.map f) := by
  intro b
  simp only [Option.map_eq_some_iff, h _]
  constructor
  · rintro ⟨a, ⟨ha, hP⟩, rfl⟩
    exact ⟨⟨a, ha, rfl⟩, (hf a).1 hP⟩
  · rintro ⟨⟨a, ha, rfl⟩, hQ⟩
    exact ⟨a, ⟨ha, (hf a).2 hQ⟩, rfl⟩

theorem Filters.bind {f g : α → Option β} (h : Filters P x y) (hf : ∀ a, P a → Filters Q (f a) (g a))
    (hg : ∀ a b, g a = some b → Q b → P a) : Filters Q (x.bind f) (y.bind g) := by
  intro b
  simp only [Option.bind_eq_some_iff, h _]
  constructor
  · rintro ⟨a, ⟨ha, hP⟩, hb⟩
    obtain ⟨hb, hQ⟩ := (hf a hP b).1 hb
    exact ⟨⟨a, ha, hb⟩, hQ⟩
  · rintro ⟨⟨a, ha, hb⟩, hQ⟩
    have hP := hg a b hb hQ
    exact ⟨a, ⟨ha, hP⟩, (hf a hP b).2 ⟨hb, hQ⟩⟩

end

/-- An array or an object takes a layer of the limit, and what is inside of it has the rest. -/
theorem filters_layer {F : Option Nat → Option (Json × List Char)}
    (hF : ∀ inside, Allows inside 0 →
      Filters (fun p => ∃ n, p.1.layers = n + 1 ∧ Allows inside n) (F inside) (F none)) :
    Filters (fun p => Allows limit p.1.layers) ((inner? limit).bind F) ((inner? none).bind F) := by
  intro p
  show _ ↔ F none = some p ∧ _
  rcases inner?_cases limit with ⟨inside, hin, hzero, hinside⟩ | ⟨hin, hno⟩
  · rw [hin, Option.bind_some, hF inside hzero p]
    refine and_congr_right fun hp => ?_
    obtain ⟨-, n, hn, -⟩ := (hF none (allows_none 0) p).1 hp
    dsimp only
    rw [hn, hinside]
    exact ⟨fun ⟨m, hm, h⟩ => Nat.succ.inj hm ▸ h, fun h => ⟨n, rfl, h⟩⟩
  · rw [hin]
    refine ⟨nofun, fun ⟨hp, hallows⟩ => ?_⟩
    obtain ⟨-, n, hn, -⟩ := (hF none (allows_none 0) p).1 hp
    exact absurd (hn ▸ hallows) (hno n)

/-- A number is no layer. -/
theorem layers_number? {negative : Bool} {whole places : List Char} {scale : Option Int} {j : Json}
    (h : number? rule negative whole places scale = some j) : j.layers = 0 := by
  cases negative <;>
  · simp only [number?, Bool.false_eq_true, if_false, if_true] at h
    split at h
    · split at h
      · cases h
        rfl
      · obtain ⟨x, -, rfl⟩ := Option.map_eq_some_iff.1 h
        rfl
    · cases h

theorem layers_readNumber {p : Json × List Char} (h : readNumber rule s = some p) : p.1.layers = 0 := by
  unfold readNumber at h
  simp only [Option.bind_eq_bind, Option.bind_eq_some_iff, Option.map_eq_some_iff] at h
  obtain ⟨⟨places, t⟩, -, ⟨scale, rest⟩, -, j, hj, rfl⟩ := h
  exact layers_number? hj

mutual

/-- With a limit just those trees are read that are read without it and have fewer layers. -/
theorem filters_readJson : ∀ {fuel : Nat} {limit : Option Nat} {s : List Char}, Allows limit 0 →
    Filters (fun p => Allows limit p.1.layers) (readJson rule limit fuel s) (readJson rule none fuel s)
  | 0, _, _, _ => filters_none
  | fuel + 1, limit, s, hlimit => by
    have hleaf {α : Type} {x : Option α} {f : α → Json × List Char} (hf : ∀ a, (f a).1.layers = 0) :
        Filters (fun p => Allows limit p.1.layers) (x.map f) (x.map f) := by
      refine filters_self fun p hp => ?_
      obtain ⟨a, -, rfl⟩ := Option.map_eq_some_iff.1 hp
      rwa [hf]
    rw [readJson, readJson]
    split
    · exact filters_none
    · exact hleaf fun _ => rfl
    · exact hleaf fun _ => rfl
    · exact hleaf fun _ => rfl
    · exact hleaf fun _ => rfl
    · refine filters_layer fun inside hzero => ?_
      split
      · exact filters_self fun p hp => by cases hp; exact ⟨0, rfl, hzero⟩
      · exact (filters_readItems hzero).map fun r =>
          ⟨fun h => ⟨_, rfl, h⟩, fun ⟨n, hn, h⟩ => Nat.succ.inj hn ▸ h⟩
    · refine filters_layer fun inside hzero => ?_
      split
      · exact filters_self fun p hp => by cases hp; exact ⟨0, rfl, hzero⟩
      · exact (filters_readMembers hzero).map fun r =>
          ⟨fun h => ⟨_, rfl, h⟩, fun ⟨n, hn, h⟩ => Nat.succ.inj hn ▸ h⟩
    · exact filters_self fun p hp => by rwa [layers_readNumber hp]

theorem filters_readItems : ∀ {fuel : Nat} {limit : Option Nat} {s : List Char}, Allows limit 0 →
    Filters (fun p => Allows limit (layersOf p.1)) (readItems rule limit fuel s) (readItems rule none fuel s)
  | 0, _, _, _ => filters_none
  | fuel + 1, limit, s, hlimit => by
    rw [readItems, readItems]
    refine (filters_readJson hlimit).bind (fun ⟨item, t⟩ hitem => ?_) fun ⟨item, t⟩ q hq hallows => ?_
    · dsimp only
      split
      · refine (filters_readItems hlimit).bind
          (fun rest hrest => filters_self fun q hq => ?_) fun rest q hq hallows => ?_
        · cases hq
          exact allows_max.2 ⟨hitem, hrest⟩
        · cases hq
          exact (allows_max.1 hallows).2
      · refine filters_self fun q hq => ?_
        cases hq
        exact allows_max.2 ⟨hitem, hlimit⟩
      · exact filters_none
    · dsimp only at hq
      split at hq
      · obtain ⟨rest, -, hq⟩ := Option.bind_eq_some_iff.1 hq
        cases hq
        exact (allows_max.1 hallows).1
      · cases hq
        exact (allows_max.1 hallows).1
      · cases hq

theorem filters_readMembers : ∀ {fuel : Nat} {limit : Option Nat} {s : List Char}, Allows limit 0 →
    Filters (fun p => Allows limit (layersOfMembers p.1)) (readMembers rule limit fuel s)
      (readMembers rule none fuel s)
  | 0, _, _, _ => filters_none
  | fuel + 1, limit, s, hlimit => by
    rw [readMembers, readMembers]
    split
    · rename_i t ht
      cases hname : readString fuel t with
      | none => exact filters_none
      | some name =>
        simp only [Option.bind_eq_bind, Option.bind_some]
        split
        · refine (filters_readJson hlimit).bind (fun ⟨tree, v⟩ htree => ?_) fun ⟨tree, v⟩ q hq hallows => ?_
          · dsimp only
            split
            · refine (filters_readMembers hlimit).bind
                (fun rest hrest => filters_self fun q hq => ?_) fun rest q hq hallows => ?_
              · cases hq
                exact allows_max.2 ⟨htree, hrest⟩
              · cases hq
                exact (allows_max.1 hallows).2
            · refine filters_self fun q hq => ?_
              cases hq
              exact allows_max.2 ⟨htree, hlimit⟩
            · exact filters_none
          · dsimp only at hq
            split at hq
            · obtain ⟨rest, -, hq⟩ := Option.bind_eq_some_iff.1 hq
              cases hq
              exact (allows_max.1 hallows).1
            · cases hq
              exact (allows_max.1 hallows).1
            · cases hq
        · exact filters_none
    · exact filters_none

end

end Json

end InstancePool
