import InstancePool.Proofs.Interp.Operations

/-!
The objects that an interpreter reaches: through its modules, what it has loaded and the slots of its
sessions, and from a namespace to its members. Whatever is done to an interpreter, it comes to reach
nothing but what it reached before and what is new, and touches nothing else.
-/

namespace InstancePool

/-- An object that an interpreter knows at first hand. -/
inductive Interp.Root (i : Interp) : ObjectIndex → Prop
  | version : i.Root i.version
  | module {name : String} {x : ObjectIndex} (hx : i.modules.get? name = some x) : i.Root x
  | loaded {id : ObjectId} {x : ObjectIndex} (hx : i.loaded.get? id = some x) : i.Root x
  | slot {key : SessionKey} {slots : List ObjectIndex} {x : ObjectIndex}
    (hk : i.sessions.get? key = some slots) (hx : x ∈ slots) : i.Root x

namespace Interp

variable {i : Interp} {x : ObjectIndex}

/-- Neither the resolver nor the end of an interpreter has to do with its objects. -/
theorem root_settings {r : Option Resolver} {finalized : Bool}
    (hx : Root { i with resolver := r, finalized } x) : i.Root x := by
  cases hx with
  | version => exact .version
  | module hx => exact .module hx
  | loaded hx => exact .loaded hx
  | slot hk hx => exact .slot hk hx

theorem root_insertModule {name : String} {n : ObjectIndex}
    (hx : Root { i with modules := i.modules.insert name n } x) : i.Root x ∨ x = n := by
  cases hx with
  | version => exact .inl .version
  | module hx =>
    rcases Table.get?_insert_eq_some.1 hx with ⟨-, rfl⟩ | ⟨-, hx⟩
    · exact .inr rfl
    · exact .inl (.module hx)
  | loaded hx => exact .inl (.loaded hx)
  | slot hk hx => exact .inl (.slot hk hx)

theorem root_insertLoaded {id : ObjectId} {n : ObjectIndex} {restores : Nat}
    (hx : Root { i with loaded := i.loaded.insert id n, restores } x) : i.Root x ∨ x = n := by
  cases hx with
  | version => exact .inl .version
  | module hx => exact .inl (.module hx)
  | loaded hx =>
    rcases Table.get?_insert_eq_some.1 hx with ⟨-, rfl⟩ | ⟨-, hx⟩
    · exact .inr rfl
    · exact .inl (.loaded hx)
  | slot hk hx => exact .inl (.slot hk hx)

theorem root_eraseLoaded {id : ObjectId}
    (hx : Root { i with loaded := i.loaded.erase id } x) : i.Root x := by
  cases hx with
  | version => exact .version
  | module hx => exact .module hx
  | loaded hx =>
    exact .loaded (Table.get?_erase_eq_some.1 hx).2
  | slot hk hx => exact .slot hk hx

theorem root_insertSession {key : SessionKey} {slots : List ObjectIndex}
    (hx : Root { i with sessions := i.sessions.insert key slots } x) : i.Root x ∨ x ∈ slots := by
  cases hx with
  | version => exact .inl .version
  | module hx => exact .inl (.module hx)
  | loaded hx => exact .inl (.loaded hx)
  | slot hk hx =>
    rcases Table.get?_insert_eq_some.1 hk with ⟨-, rfl⟩ | ⟨-, hk⟩
    · exact .inr hx
    · exact .inl (.slot hk hx)

theorem root_eraseSession {key : SessionKey}
    (hx : Root { i with sessions := i.sessions.erase key } x) : i.Root x := by
  cases hx with
  | version => exact .version
  | module hx => exact .module hx
  | loaded hx => exact .loaded hx
  | slot hk hx =>
    exact .slot (Table.get?_erase_eq_some.1 hk).2 hx

end Interp

namespace Engine

/-- An interpreter reaches an object. Namespaces can be members of each other. -/
inductive Reaches (e : Engine) : ObjectIndex → Prop
  | root {x : ObjectIndex} (hx : e.interp.Root x) : e.Reaches x
  | member {x y : ObjectIndex} {ms : Table String ObjectIndex} {name : String} (hx : e.Reaches x)
    (ho : e.heap.objects[x]? = some (.space ms)) (hy : ms.get? name = some y) : e.Reaches y

/-- From an engine to a later one: what it reaches was in its reach before or is new, and the objects
out of its reach are as they were. -/
structure Confined (e e' : Engine) : Prop where
  length_le : e.heap.objects.length ≤ e'.heap.objects.length
  reaches : ∀ x : Nat, e'.Reaches x → e.Reaches x ∨
    (e.heap.objects.length ≤ x ∧ x < e'.heap.objects.length)
  object : ∀ x : Nat, x < e.heap.objects.length → ¬ e.Reaches x →
    e'.heap.objects[x]? = e.heap.objects[x]?

variable {e e' e'' : Engine} {key : SessionKey} {slots : List ObjectIndex}

/-- What holds the objects known at first hand, and with a namespace its members, holds all that is
reached. -/
theorem Reaches.of_closed {P : ObjectIndex → Prop} (hroot : ∀ x, e.interp.Root x → P x)
    (hmember : ∀ x ms name y, P x → e.heap.objects[x]? = some (.space ms) →
      ms.get? name = some y → P y) {x : ObjectIndex} (hx : e.Reaches x) : P x := by
  induction hx with
  | root hx => exact hroot _ hx
  | member hx ho hy ih => exact hmember _ _ _ _ ih ho hy

theorem Confined.refl (e : Engine) : e.Confined e :=
  ⟨Nat.le_refl _, fun _ => .inl, fun _ _ _ => rfl⟩

theorem Confined.trans (hc : e.Confined e') (hc' : e'.Confined e'') : e.Confined e'' where
  length_le := Nat.le_trans hc.length_le hc'.length_le
  reaches x hx := by
    have hlen := hc.length_le
    have hlen' := hc'.length_le
    rcases hc'.reaches x hx with hx | hx
    · rcases hc.reaches x hx with hx | hx
      · exact .inl hx
      · exact .inr (by omega)
    · exact .inr (by omega)
  object x hlt hx := by
    have hlen := hc.length_le
    have hx' : ¬ e'.Reaches x := by
      intro hr
      rcases hc.reaches x hr with hr | hr
      · exact hx hr
      · omega
    rw [hc'.object x (by omega) hx', hc.object x hlt hx]

/-- Some objects were added, whose members are in reach or new. -/
theorem confined_of_append (added : List Object)
    (hheap : e'.heap.objects = e.heap.objects ++ added)
    (hroot : ∀ x : Nat, e'.interp.Root x → e.Reaches x ∨
      (e.heap.objects.length ≤ x ∧ x < e'.heap.objects.length))
    (hadded : ∀ (ms : Table String ObjectIndex) (name : String) (y : Nat), .space ms ∈ added →
      ms.get? name = some y → e.heap.objects.length ≤ y ∧ y < e'.heap.objects.length) : e.Confined e' where
  length_le := by
    rw [hheap, List.length_append]
    omega
  reaches x hx := by
    refine hx.of_closed hroot fun (x : Nat) ms name y hx ho hy => ?_
    by_cases hlt : x < e.heap.objects.length
    · -- An object that there was has the members that it had.
      have hx : e.Reaches x := by
        rcases hx with hx | hx
        · exact hx
        · omega
      rw [hheap, List.getElem?_append_left hlt] at ho
      exact .inl (hx.member ho hy)
    · rw [hheap, List.getElem?_append_right (Nat.le_of_not_lt hlt)] at ho
      exact .inr (hadded ms name y (List.mem_of_getElem? ho) hy)
  object x hlt _ := by rw [hheap, List.getElem?_append_left hlt]

/-- No object changed, and nothing is known at first hand that was not in reach. -/
theorem confined_of_roots (hheap : e'.heap = e.heap)
    (hroot : ∀ x, e'.interp.Root x → e.Reaches x) : e.Confined e' := by
  refine confined_of_append [] ?_ (fun x hx => .inl (hroot x hx)) nofun
  rw [hheap, List.append_nil]

theorem confined_handOut {n : ObjectIndex} (hs : ∀ x ∈ slots, e.Reaches x) (hn : e.Reaches n) :
    e.Confined (e.handOut key slots n).2 := by
  refine confined_of_roots rfl fun x hx => ?_
  rcases Interp.root_insertSession hx with hx | hx
  · exact .root hx
  · rcases List.mem_append.1 hx with hx | hx
    · exact hs x hx
    · exact List.mem_singleton.1 hx ▸ hn

/-- A value is added to the heap, and so much may change that the new object alone comes in reach. -/
theorem confined_alloc {v : Value} (hheap : e'.heap = (e.heap.alloc (.value v)).2)
    (hroot : ∀ x : Nat, e'.interp.Root x → e.Reaches x ∨ x = e.heap.objects.length) : e.Confined e' := by
  have hobjects : e'.heap.objects = e.heap.objects ++ [.value v] := by
    rw [hheap]
    rfl
  refine confined_of_append _ hobjects (fun x hx => ?_) ?_
  · rcases hroot x hx with hx | hx
    · exact .inl hx
    · refine .inr ?_
      rw [hobjects, List.length_append, List.length_singleton]
      omega
  · intro ms name y hmem
    rw [List.mem_singleton] at hmem
    cases hmem

theorem confined_handOutNew {v : Value} (hs : ∀ x ∈ slots, e.Reaches x) :
    e.Confined (e.handOutNew key slots v).2 := by
  refine confined_alloc (v := v) rfl fun x hx => ?_
  rcases Interp.root_insertSession hx with hx | hx
  · exact .inl (.root hx)
  · rcases List.mem_append.1 hx with hx | hx
    · exact .inl (hs x hx)
    · exact .inr (List.mem_singleton.1 hx)

/-- A namespace in reach gets a member in reach. -/
theorem confined_bind {n m : ObjectIndex} {members : Table String ObjectIndex} (name : String)
    (hn : e.Reaches n) (hm : e.Reaches m) (hget : e.heap.get n = .space members) :
    e.Confined { e with heap := e.heap.set n (.space (members.insert name m)) } where
  length_le := Nat.le_of_eq (List.length_set ..).symm
  reaches x hx := by
    refine .inl (hx.of_closed (fun x hx => .root hx) fun x ms name' y hx ho hy => ?_)
    have hspace := Heap.get_eq_space hget
    rcases getElem?_set_cases ho with ⟨rfl, hset⟩ | ⟨-, ho⟩
    · cases hset
      rcases Table.get?_insert_eq_some.1 hy with ⟨-, rfl⟩ | ⟨-, hy⟩
      · exact hm
      · exact hn.member hspace hy
    · exact hx.member ho hy
  object x _ hx := by
    have hne : n ≠ x := fun h => hx (h ▸ hn)
    simp only [Heap.set, List.getElem?_set_ne hne]

end Engine

namespace Heap

/-- Adds objects and binds the names to them; the last one for a name stays. -/
def allocNamed (members : Table String ObjectIndex) (h : Heap) :
    List (String × Object) → Table String ObjectIndex × Heap
  | [] => (members, h)
  | (name, o) :: rest => allocNamed (members.insert name h.objects.length) (h.alloc o).2 rest

theorem allocBindings_eq (h : Heap) (bindings : List (String × Value)) :
    h.allocBindings bindings =
      allocNamed Table.empty h (bindings.map fun b => (b.1, .value b.2)) := by
  have hgo (members : Table String ObjectIndex) : allocBindings.go members h bindings =
      allocNamed members h (bindings.map fun b => (b.1, .value b.2)) := by
    induction bindings generalizing members h with
    | nil => rfl
    | cons b rest ih => exact ih _ _
  exact hgo Table.empty

theorem allocBuiltins_eq (h : Heap) (builtins : List Builtin) :
    h.allocBuiltins builtins =
      allocNamed Table.empty h (builtins.map fun b => (b.name, .builtin b)) := by
  have hgo (members : Table String ObjectIndex) : allocBuiltins.go members h builtins =
      allocNamed members h (builtins.map fun b => (b.name, .builtin b)) := by
    induction builtins generalizing members h with
    | nil => rfl
    | cons b rest ih => exact ih _ _
  exact hgo Table.empty

theorem allocNamed_objects (members : Table String ObjectIndex) (h : Heap)
    (items : List (String × Object)) :
    (allocNamed members h items).2.objects = h.objects ++ items.map Prod.snd := by
  induction items generalizing members h with
  | nil => exact (List.append_nil _).symm
  | cons item rest ih =>
    rw [allocNamed, ih, List.map_cons]
    exact List.append_assoc ..

/-- A name is bound to what it was bound to, or to an object that was added. -/
theorem allocNamed_members (members : Table String ObjectIndex) (h : Heap)
    (items : List (String × Object)) {name : String} {y : Nat}
    (hy : (allocNamed members h items).1.get? name = some y) :
    members.get? name = some y ∨
      (h.objects.length ≤ y ∧ y < (allocNamed members h items).2.objects.length) := by
  -- The induction is on the objects that are left to add.
  induction items generalizing members h with
  | nil => exact .inl hy
  | cons item rest ih =>
    rcases ih _ _ hy with hold | hnew
    · rcases Table.get?_insert_eq_some.1 hold with ⟨-, rfl⟩ | ⟨-, hold⟩
      · refine .inr ⟨Nat.le_refl _, ?_⟩
        rw [allocNamed_objects, List.length_append, List.map_cons, List.length_cons]
        omega
      · exact .inl hold
    · have hlen : (h.alloc item.2).2.objects.length = h.objects.length + 1 := by
        rw [alloc, List.length_append, List.length_singleton]
      rw [hlen] at hnew
      exact .inr ⟨by omega, hnew.2⟩

theorem allocNamed_get?_eq_none {members : Table String ObjectIndex} {h : Heap}
    {items : List (String × Object)} {name : String} :
    (allocNamed members h items).1.get? name = none ↔
      members.get? name = none ∧ name ∉ items.map Prod.fst := by
  induction items generalizing members h with
  | nil => simp only [allocNamed, List.map_nil, List.not_mem_nil, not_false_eq_true, and_true]
  | cons item rest ih =>
    rw [allocNamed, ih, Table.get?_insert, List.map_cons, List.mem_cons, not_or]
    by_cases he : name = item.1
    · simp only [he, if_true, reduceCtorEq, not_true_eq_false, false_and, and_false]
    · simp only [he, if_false, not_false_eq_true, true_and]

theorem allocNamed_get?_of_not_mem {members : Table String ObjectIndex} {h : Heap}
    {items : List (String × Object)} {name : String} (hname : name ∉ items.map Prod.fst) :
    (allocNamed members h items).1.get? name = members.get? name := by
  induction items generalizing members h with
  | nil => rfl
  | cons item rest ih =>
    rw [List.map_cons, List.mem_cons, not_or] at hname
    rw [allocNamed, ih hname.2, Table.get?_insert_of_ne hname.1]

/-- If all names are different, then each is bound to its object. -/
theorem allocNamed_bound {members : Table String ObjectIndex} {h : Heap}
    {items : List (String × Object)} (hnames : (items.map Prod.fst).Nodup) {j : Nat} {name : String}
    {o : Object} (hj : items[j]? = some (name, o)) :
    (allocNamed members h items).1.get? name = some (h.objects.length + j) := by
  induction items generalizing members h j with
  | nil => cases hj
  | cons item rest ih =>
    rw [List.map_cons, List.nodup_cons] at hnames
    cases j with
    | zero =>
      cases hj
      rw [allocNamed, allocNamed_get?_of_not_mem hnames.1, Table.get?_insert_self, Nat.add_zero]
    | succ j =>
      rw [allocNamed, ih hnames.2 hj, alloc, List.length_append, List.length_singleton,
        Nat.add_right_comm, Nat.add_assoc]

/-- The objects of some bindings come behind those that there are, and the names are bound. -/
theorem allocBindings_appends (h : Heap) (bindings : List (String × Value)) :
    (h.allocBindings bindings).2 = ⟨h.objects ++ bindings.map fun b => .value b.2⟩ ∧
      ∀ name, (h.allocBindings bindings).1.get? name = none ↔ name ∉ bindings.map Prod.fst := by
  rw [allocBindings_eq]
  refine ⟨?_, fun name => ?_⟩
  · rw [Heap.mk.injEq, allocNamed_objects, List.map_map]
    rfl
  · rw [allocNamed_get?_eq_none, List.map_map]
    exact and_iff_right rfl

/-- A namespace that was added last. -/
theorem member_concat {objects : List Object} {members : Table String ObjectIndex} {n : ObjectIndex}
    {name : String} (hn : n = objects.length) :
    (⟨objects ++ [.space members]⟩ : Heap).member n name =
      match members.get? name with
      | some m => .ok m
      | none => .error (.noMember name) := by
  have hget : (⟨objects ++ [.space members]⟩ : Heap).get n = .space members := by
    rw [Heap.get, hn, List.getElem?_concat_length, Option.getD_some]
  cases hm : members.get? name <;> simp only [Heap.member, hget, hm]

end Heap

namespace Engine

variable {e e' : Engine} {key : SessionKey} {slots : List ObjectIndex}

/-- What the search for a module comes to. -/
inductive Sought (source : TextSource) (module : String) (e : Engine) :
    Except Failure ObjectIndex × Engine → Prop
  | cached {n : ObjectIndex} (hn : e.interp.modules.get? module = some n) :
    Sought source module e (.ok n, e)
  /-- There is no text, or one that cannot be read; its first values stay in the heap, where nothing
  leads to them. -/
  | missing (f : Failure) (values : List Value) :
    Sought source module e (.error f, ⟨⟨e.heap.objects ++ values.map .value⟩, e.interp⟩)
  /-- A module was made of a text. -/
  | made {text : String} {members : Table String ObjectIndex}
    (hnew : e.interp.modules.get? module = none)
    (htext : source e.interp.resolver module = some text) (hread : (ModuleText.read text).2 = none)
    (hnames : ∀ x, members.get? x = none ↔ x ∉ (ModuleText.read text).1.map Prod.fst)
    (hmembers : ∀ (x : String) (y : Nat), members.get? x = some y → e.heap.objects.length ≤ y ∧
      y < e.heap.objects.length + (ModuleText.read text).1.length) :
    Sought source module e (.ok (e.heap.objects.length + (ModuleText.read text).1.length),
      ⟨⟨e.heap.objects ++ (ModuleText.read text).1.map (fun b => .value b.2) ++ [.space members]⟩,
        { e.interp with
          modules := e.interp.modules.insert module
            (e.heap.objects.length + (ModuleText.read text).1.length) }⟩)

theorem findModule_sought (source : TextSource) (module : String) (e : Engine) :
    Sought source module e (e.findModule source module) := by
  unfold findModule
  cases hnew : e.interp.modules.get? module with
  | some n => exact .cached hnew
  | none =>
    cases htext : source e.interp.resolver module with
    | none =>
      have h : Sought source module e (.error (.noModule module),
        ⟨⟨e.heap.objects ++ List.map .value []⟩, e.interp⟩) := .missing _ []
      rwa [List.map_nil, List.append_nil] at h
    | some text =>
      obtain ⟨hheap, hnames⟩ := e.heap.allocBindings_appends (ModuleText.read text).1
      have hmembers (x : String) (y : Nat)
          (hy : (e.heap.allocBindings (ModuleText.read text).1).1.get? x = some y) :
          e.heap.objects.length ≤ y ∧
            y < e.heap.objects.length + (ModuleText.read text).1.length := by
        rw [Heap.allocBindings_eq] at hy
        rcases Heap.allocNamed_members _ _ _ hy with hold | hnew
        · cases hold
        · rwa [Heap.allocNamed_objects, List.length_append, List.length_map, List.length_map] at hnew
      simp only []
      -- Whether the text can be read to its end or not, its values are in the heap.
      cases hread : (ModuleText.read text).2 with
      | some problem =>
        simp only [hheap]
        rw [show (fun b : String × Value => Object.value b.2) = .value ∘ Prod.snd from rfl,
          ← List.map_map]
        exact .missing _ _
      | none =>
        simp only [hheap, Heap.alloc, List.length_append, List.length_map]
        exact .made hnew htext hread hnames hmembers

/-- No namespace is among values. -/
theorem not_space_mem {α : Type} {items : List α} {f : α → Value} {ms : Table String ObjectIndex} :
    Object.space ms ∉ items.map fun item => .value (f item) := by
  intro hmem
  obtain ⟨item, -, hitem⟩ := List.mem_map.1 hmem
  cases hitem

/-- A namespace behind some values is the only one. -/
theorem space_mem_concat {α : Type} {items : List α} {f : α → Value} {ms members : Table String ObjectIndex}
    (h : Object.space ms ∈ (items.map fun item => .value (f item)) ++ [.space members]) :
    ms = members := by
  rcases List.mem_append.1 h with h | h
  · exact absurd h not_space_mem
  · exact Object.space.inj (List.mem_singleton.1 h)

/-- Looking up a module reaches nothing else, and what was found is in reach. -/
theorem confined_findModule (source : TextSource) (name : String) (e : Engine) :
    e.Confined (e.findModule source name).2 ∧
      ∀ n, (e.findModule source name).1 = .ok n → (e.findModule source name).2.Reaches n := by
  have hsought := findModule_sought source name e
  generalize e.findModule source name = found at hsought
  cases hsought with
  | cached hn =>
    refine ⟨.refl e, fun n' hn' => ?_⟩
    cases hn'
    exact .root (.module hn)
  | missing f values =>
    refine ⟨confined_of_append _ rfl (fun x hx => .inl (.root hx)) ?_, nofun⟩
    exact fun ms _ _ hmem => absurd hmem not_space_mem
  | @made text members hnew htext hread hnames hmembers =>
    refine ⟨confined_of_append _ (List.append_assoc ..) (fun x hx => ?_) ?_, fun n hn => ?_⟩
    · simp only [List.length_append, List.length_map, List.length_singleton]
      rcases Interp.root_insertModule hx with hx | hx
      · exact .inl (.root hx)
      · subst hx
        exact .inr (by omega)
    · intro ms name' y hmem hy
      obtain rfl := space_mem_concat hmem
      have hnew := hmembers name' y hy
      simp only [List.length_append, List.length_map, List.length_singleton]
      omega
    · cases hn
      exact .root (@Interp.Root.module _ name _ (Table.get?_insert_self ..))

theorem resolveRef_ok {r : Ref} {n : ObjectIndex} :
    resolveRef key slots r = .ok n ↔ r.session = key ∧ slots[r.slot.toNat]? = some n := by
  unfold resolveRef
  by_cases hkey : r.session = key
  · cases slots[r.slot.toNat]? <;>
      simp only [hkey, ne_eq, not_true_eq_false, if_false, reduceCtorEq, Except.ok.injEq,
        Option.some.injEq, true_and]
  · simp only [hkey, ne_eq, not_false_eq_true, if_true, reduceCtorEq, false_and]

theorem mem_of_resolveRef {r : Ref} {n : ObjectIndex} (h : resolveRef key slots r = .ok n) :
    n ∈ slots :=
  List.mem_of_getElem? (resolveRef_ok.1 h).2

theorem mem_of_resolveRefs {rs : List Ref} {ns : List ObjectIndex}
    (h : rs.mapM (resolveRef key slots) = .ok ns) : ∀ n ∈ ns, n ∈ slots := by
  induction rs generalizing ns with
  | nil =>
    cases h
    exact nofun
  | cons r rs ih =>
    rw [List.mapM_cons] at h
    obtain ⟨n, hn, h⟩ := Except.bind_ok h
    obtain ⟨ns', hns, h⟩ := Except.bind_ok h
    cases h
    intro m hm
    rcases List.mem_cons.1 hm with rfl | hm
    · exact mem_of_resolveRef hn
    · exact ih hns m hm

/-- The one builtin that returns an object that there is, and the one that it returns. -/
theorem apply_existing {h : Heap} {b : Builtin} {args : List ObjectIndex} {n : ObjectIndex}
    (hb : b.apply h args = .ok (.existing n)) : b = .echo ∧ args = [n] := by
  unfold Builtin.apply at hb
  split at hb
  · obtain ⟨a, -, hb⟩ := Except.bind_ok hb
    obtain ⟨c, -, hb⟩ := Except.bind_ok hb
    cases hs : a.sum c <;> (rw [hs] at hb; cases hb)
  · obtain ⟨v, -, hb⟩ := Except.bind_ok hb
    obtain ⟨k, -, hb⟩ := Except.bind_ok hb
    cases hb
  · cases hb
    exact ⟨rfl, rfl⟩
  · cases hb
  · cases hb
  · obtain ⟨v, -, hb⟩ := Except.bind_ok hb
    cases hb
  · cases hs : args.mapM h.value <;> (rw [hs] at hb; cases hb)
  all_goals cases hb

theorem mem_of_apply {h : Heap} {b : Builtin} {args : List ObjectIndex} {n : ObjectIndex}
    (hb : b.apply h args = .ok (.existing n)) : n ∈ args := by
  obtain ⟨-, rfl⟩ := apply_existing hb
  exact List.mem_singleton_self n

/-- An operation other than `global` that succeeds. -/
theorem confined_of_attempt {op : Op} {x : Response × Engine}
    (hk : e.interp.sessions.get? key = some slots) (h : e.attempt key slots op = .ok x) :
    e.Confined x.2 := by
  have hs : ∀ n ∈ slots, e.Reaches n := fun n hn => .root (.slot hk hn)
  -- What an operand stands for is in reach: the reference is to a slot of this very session.
  have hresolve (r : Ref) (n : ObjectIndex) (hn : resolveRef key slots r = .ok n) : e.Reaches n :=
    hs n (mem_of_resolveRef hn)
  cases op with
  | global module name => cases h
  | eval source =>
    simp only [attempt] at h
    split at h
    · cases h
      exact confined_handOutNew hs
    · cases h
  | ofValue v =>
    cases h
    exact confined_handOutNew hs
  | toValue target =>
    obtain ⟨n, -, h⟩ := Except.bind_ok h
    obtain ⟨v, -, h⟩ := Except.bind_ok h
    cases h
    exact .refl e
  | attr target name =>
    obtain ⟨n, hn, h⟩ := Except.bind_ok h
    obtain ⟨m, hm, h⟩ := Except.bind_ok h
    cases h
    refine confined_handOut hs ?_
    unfold Heap.member at hm
    split at hm
    · rename_i members hspace
      split at hm
      · rename_i m' hget
        cases hm
        exact (hresolve target n hn).member (Heap.get_eq_space hspace) hget
      · cases hm
    · cases hm
  | setAttr target name value =>
    obtain ⟨n, hn, h⟩ := Except.bind_ok h
    obtain ⟨m, hm, h⟩ := Except.bind_ok h
    split at h
    · rename_i members hspace
      cases h
      exact confined_bind name (hresolve target n hn) (hresolve value m hm) hspace
    · cases h
  | call callee args =>
    obtain ⟨n, -, h⟩ := Except.bind_ok h
    split at h
    · obtain ⟨ns, hns, h⟩ := Except.bind_ok h
      obtain ⟨result, hr, h⟩ := Except.bind_ok h
      cases result with
      | existing m =>
        cases h
        exact confined_handOut hs (hs m (mem_of_resolveRefs hns m (mem_of_apply hr)))
      | fresh v =>
        cases h
        exact confined_handOutNew hs
    · cases h
  | isOwner target =>
    cases h
    exact .refl e
  | serialize receiver target =>
    obtain ⟨n, -, h⟩ := Except.bind_ok h
    split at h
    · split at h
      · cases h
        exact .refl e
      · cases h
    · cases h
  | restore id data =>
    simp only [attempt] at h
    split at h
    · rename_i n hn
      cases h
      exact confined_handOut hs (.root (.loaded hn))
    · split at h
      · cases h
      · rename_i v hv
        cases h
        refine confined_alloc (v := v) rfl fun x hx => ?_
        rcases Interp.root_insertSession hx with hx | hx
        · rcases Interp.root_insertLoaded hx with hx | hx
          · exact .inl (.root hx)
          · exact .inr hx
        · rcases List.mem_append.1 hx with hx | hx
          · exact .inl (hs x hx)
          · exact .inr (List.mem_singleton.1 hx)
  | unload id =>
    cases h
    exact confined_of_roots rfl fun x hx => .root (Interp.root_eraseLoaded hx)

/-- Every operation, whether it succeeds or fails, keeps to what its interpreter reaches. -/
theorem confined_perform (source : TextSource) (key : SessionKey) (op : Op) (e : Engine) :
    e.Confined (Engine.perform source key op e).2 := by
  unfold Engine.perform
  cases hk : e.interp.sessions.get? key with
  | none => exact .refl e
  | some slots =>
    have hattempt : e.Confined (e.settle (e.attempt key slots op)).2 := by
      cases ha : e.attempt key slots op with
      | error f => exact .refl e
      | ok x => exact confined_of_attempt hk ha
    cases op with
    -- The module that was looked up stays, even if it has no such member.
    | global module name =>
      simp only []
      obtain ⟨hc, hfound⟩ := confined_findModule source module e
      obtain ⟨heap, modules, hinterp, -⟩ := findModule_cases source module e
      rcases hm : e.findModule source module with ⟨f | n, e'⟩
      · rw [hm] at hc
        exact hc
      · rw [hm] at hc hfound hinterp
        have hn : e'.Reaches n := hfound n rfl
        have hk' : e'.interp.sessions.get? key = some slots := by
          obtain rfl : e' = _ := hinterp
          exact hk
        have hs : ∀ x ∈ slots, e'.Reaches x := fun x hx => .root (.slot hk' hx)
        simp only []
        unfold Heap.member
        split
        · rename_i members hspace
          split
          · rename_i m hget
            exact hc.trans (confined_handOut hs (hn.member (Heap.get_eq_space hspace) hget))
          · exact hc
        · exact hc
    | _ => exact hattempt

end Engine

/-- The objects that come with a new interpreter: the version namespace, the module that holds it, the
builtins and last their module. The members of each namespace are among them, and the two modules are not. -/
theorem Interp.create_objects (h : Heap) (searchPaths : List String) (failFinalize : Bool)
    (observer : Option Observer) :
    ∃ added : List Object,
      (Interp.create h searchPaths failFinalize observer).heap.objects = h.objects ++ added ∧
      2 ≤ added.length ∧ added.take 2 =
        [.space Table.empty, .space (Table.empty.insert "version" h.objects.length)] ∧
      (Interp.create h searchPaths failFinalize observer).interp.modules.get? "builtins" =
        some (h.objects.length + added.length - 1) ∧
      (∃ members, added.getLast? = some (.space members) ∧
        (∀ f : Builtin, ∃ g, members.get? f.name = some (h.objects.length + g) ∧
          added[g]? = some (.builtin f)) ∧
        ∀ name, members.get? name ≠ none → ∃ f : Builtin, f.name = name) ∧
      ∀ (ms : Table String ObjectIndex) (name : String) (y : Nat), .space ms ∈ added →
        ms.get? name = some y → h.objects.length ≤ y ∧ y ≠ h.objects.length + 1 ∧
          y < h.objects.length + added.length - 1 := by
  -- The builtins are added to a heap that has the first two objects; nine are added in all.
  let runtime : Table String ObjectIndex := Table.empty.insert "version" h.objects.length
  let first : Heap := ⟨h.objects ++ [.space Table.empty] ++ [.space runtime]⟩
  have hfirst : first.objects.length = h.objects.length + 2 := by
    simp only [first, List.length_append, List.length_singleton]
  have hbuiltins : (first.allocBuiltins Builtin.all).2.objects =
      first.objects ++ Builtin.all.map Object.builtin := by
    rw [Heap.allocBuiltins_eq, Heap.allocNamed_objects]
    rfl
  have hlen : (first.allocBuiltins Builtin.all).2.objects.length = h.objects.length + 8 := by
    rw [hbuiltins, List.length_append, hfirst]
    rfl
  let added : List Object := [.space Table.empty, .space runtime] ++
    Builtin.all.map Object.builtin ++ [.space (first.allocBuiltins Builtin.all).1]
  have hcount : added.length = 9 := rfl
  refine ⟨added, ?_, by omega, rfl, ?_, ⟨_, List.getLast?_concat .., fun f => ?_, fun name hname => ?_⟩, ?_⟩
  · calc (Interp.create h searchPaths failFinalize observer).heap.objects
      _ = (first.allocBuiltins Builtin.all).2.objects ++
          [.space (first.allocBuiltins Builtin.all).1] := rfl
      _ = _ := by
        rw [hbuiltins]
        simp only [first, added, List.append_assoc, List.cons_append, List.nil_append]
  · have hlast : (Interp.create h searchPaths failFinalize observer).interp.modules.get?
        "builtins" = some (first.allocBuiltins Builtin.all).2.objects.length := rfl
    rw [hlast, hlen, hcount]
    rfl
  · refine ⟨2 + Builtin.all.idxOf f, ?_, ?_⟩
    · have hbound : (Builtin.all.map fun b => (b.name, Object.builtin b))[Builtin.all.idxOf f]? =
          some (f.name, .builtin f) := by
        cases f <;> rfl
      rw [Heap.allocBuiltins_eq, Heap.allocNamed_bound (by decide) hbound, hfirst, Nat.add_assoc]
    · cases f <;> rfl
  · rw [Heap.allocBuiltins_eq, ne_eq, Heap.allocNamed_get?_eq_none, List.map_map] at hname
    obtain ⟨f, -, hf⟩ := List.mem_map.1 (Decidable.not_not.1 fun hno => hname ⟨rfl, hno⟩)
    exact ⟨f, hf⟩
  · intro ms name y hmem hy
    rw [hcount]
    simp only [added, List.mem_append, List.mem_cons, List.mem_map, List.not_mem_nil, or_false,
      Object.space.injEq, reduceCtorEq, and_false, exists_false] at hmem
    -- Three of them are namespaces, and the first of these is empty.
    rcases hmem with (rfl | rfl) | rfl
    · cases hy
    · rcases Table.get?_insert_eq_some.1 hy with ⟨-, rfl⟩ | ⟨-, hy⟩
      · omega
      · cases hy
    · rw [Heap.allocBuiltins_eq] at hy hlen
      rcases Heap.allocNamed_members _ _ _ hy with hy | hy
      · cases hy
      · rw [hfirst] at hy
        omega

/-- A new interpreter reaches nothing but the objects that come with it. -/
theorem Interp.reaches_create {h : Heap} {searchPaths : List String} {failFinalize : Bool}
    {observer : Option Observer} {x : Nat}
    (hx : (Interp.create h searchPaths failFinalize observer).Reaches x) :
    h.objects.length ≤ x ∧
      x < (Interp.create h searchPaths failFinalize observer).heap.objects.length := by
  obtain ⟨added, hobjects, hlen, -, hbuiltins, -, hadded⟩ :=
    Interp.create_objects h searchPaths failFinalize observer
  rw [hobjects, List.length_append]
  refine hx.of_closed (P := fun x : Nat => h.objects.length ≤ x ∧
    x < h.objects.length + added.length) ?_ ?_
  · intro x hx
    cases hx with
    | version =>
      have hversion : (Interp.create h searchPaths failFinalize observer).interp.version =
          h.objects.length := rfl
      rw [hversion]
      omega
    | @module name _ hx =>
      by_cases hn : name = "builtins"
      · rw [hn, hbuiltins] at hx
        cases hx
        omega
      · have hruntime : (Interp.create h searchPaths failFinalize observer).interp.modules.get? name =
            (Table.empty.insert "runtime" (h.objects.length + 1)).get? name := by
          simp only [Interp.create, Table.get?_insert_of_ne hn, Heap.alloc, List.length_append,
            List.length_singleton]
        rw [hruntime] at hx
        rcases Table.get?_insert_eq_some.1 hx with ⟨-, rfl⟩ | ⟨-, hx⟩
        · omega
        · cases hx
    | loaded hx => cases hx
    | slot hk hx => cases hk
  · intro x ms name y hx ho hy
    rw [hobjects, List.getElem?_append_right hx.1] at ho
    have hin := hadded ms name y (List.mem_of_getElem? ho) hy
    omega

end InstancePool
