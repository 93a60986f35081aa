import InstancePool.Interp.Basic

/-!
The heap only grows: every object keeps its number, and all that ever changes is the members of a
namespace.
-/

namespace InstancePool

theorem getElem?_append_cases {α : Type} {xs ys : List α} {k : Nat} {a : α}
    (h : (xs ++ ys)[k]? = some a) : xs[k]? = some a ∨ xs.length ≤ k ∧ a ∈ ys := by
  by_cases hlt : k < xs.length
  · rw [List.getElem?_append_left hlt] at h
    exact .inl h
  · rw [List.getElem?_append_right (Nat.le_of_not_lt hlt)] at h
    exact .inr ⟨Nat.le_of_not_lt hlt, List.mem_of_getElem? h⟩

theorem getElem?_set_cases {α : Type} {xs : List α} {k j : Nat} {a b : α}
    (h : (xs.set k a)[j]? = some b) : k = j ∧ a = b ∨ k ≠ j ∧ xs[j]? = some b := by
  by_cases hkj : k = j
  · subst hkj
    have hlt : k < xs.length := by simpa using (List.getElem?_eq_some_iff.1 h).1
    rw [List.getElem?_set_self hlt] at h
    exact .inl ⟨rfl, Option.some.inj h⟩
  · rw [List.getElem?_set_ne hkj] at h
    exact .inr ⟨hkj, h⟩

namespace Object

/-- What can become of an object: it stays, or it is a namespace with other members. -/
def Becomes (o o' : Object) : Prop := o' = o ∨ ∃ ms ms', o = .space ms ∧ o' = .space ms'

theorem Becomes.refl (o : Object) : o.Becomes o := Or.inl rfl

theorem Becomes.trans {a b c : Object} (h : a.Becomes b) (h' : b.Becomes c) : a.Becomes c := by
  rcases h with rfl | ⟨ms, ms', rfl, rfl⟩
  · exact h'
  · rcases h' with rfl | ⟨ns, ns', hb, rfl⟩
    · exact Or.inr ⟨ms, ms', rfl, rfl⟩
    · exact Or.inr ⟨ms, ns', rfl, rfl⟩

theorem Becomes.value {v : Value} {o : Object} (h : (Object.value v).Becomes o) :
    o = .value v := by
  rcases h with h | ⟨ms, ms', he, -⟩
  · exact h
  · cases he

end Object

namespace Heap

/-- Every object of `h` is in `h'`, under the same number. -/
def Extends (h h' : Heap) : Prop :=
  ∀ (n : ObjectIndex) (o : Object), h.objects[n]? = some o →
    ∃ o' : Object, h'.objects[n]? = some o' ∧ o.Becomes o'

theorem Extends.refl (h : Heap) : h.Extends h := fun _ o ho => ⟨o, ho, .refl o⟩

theorem Extends.trans {a b c : Heap} (h : a.Extends b) (h' : b.Extends c) : a.Extends c := by
  intro n o ho
  obtain ⟨o', ho', hb⟩ := h n o ho
  obtain ⟨o'', ho'', hb'⟩ := h' n o' ho'
  exact ⟨o'', ho'', hb.trans hb'⟩

theorem Extends.value {h h' : Heap} (he : h.Extends h') {n : ObjectIndex} {v : Value}
    (hn : h.objects[n]? = some (.value v)) : h'.objects[n]? = some (.value v) := by
  obtain ⟨o, ho, hb⟩ := he n _ hn
  rwa [hb.value] at ho

theorem extends_alloc (h : Heap) (o : Object) : h.Extends (h.alloc o).2 := by
  intro n a ha
  have hn : n < h.objects.length := (List.getElem?_eq_some_iff.1 ha).1
  exact ⟨a, by rw [alloc, List.getElem?_append_left hn, ha], .refl a⟩

theorem alloc_get (h : Heap) (o : Object) :
    (h.alloc o).2.objects[h.objects.length]? = some o := by
  simp [alloc]

theorem get_eq_space {h : Heap} {n : ObjectIndex} {ms : Table String ObjectIndex}
    (hn : h.get n = .space ms) : h.objects[n]? = some (.space ms) := by
  unfold get at hn
  cases ho : h.objects[n]? with
  | none => rw [ho] at hn; cases hn
  | some o => rw [ho] at hn; exact congrArg some hn

theorem extends_set {h : Heap} {n : ObjectIndex} {ms : Table String ObjectIndex}
    (hn : h.get n = .space ms) (ms' : Table String ObjectIndex) :
    h.Extends (h.set n (.space ms')) := by
  intro k o ho
  have hk : k < h.objects.length := (List.getElem?_eq_some_iff.1 ho).1
  by_cases he : n = k
  · subst he
    refine ⟨.space ms', by rw [set, List.getElem?_set_self hk], Or.inr ⟨ms, ms', ?_, rfl⟩⟩
    exact Option.some.inj (ho.symm.trans (get_eq_space hn))
  · exact ⟨o, by rw [set, List.getElem?_set_ne he, ho], .refl o⟩

theorem extends_allocBindings (h : Heap) (bindings : List (String × Value)) :
    h.Extends (h.allocBindings bindings).2 := by
  have hgo (members : Table String ObjectIndex) :
      h.Extends (allocBindings.go members h bindings).2 := by
    induction bindings generalizing members h with
    | nil => exact .refl h
    | cons b rest ih => exact (extends_alloc h (.value b.2)).trans (ih _ _)
  exact hgo Table.empty

theorem extends_allocBuiltins (h : Heap) (builtins : List Builtin) :
    h.Extends (h.allocBuiltins builtins).2 := by
  have hgo (members : Table String ObjectIndex) :
      h.Extends (allocBuiltins.go members h builtins).2 := by
    induction builtins generalizing members h with
    | nil => exact .refl h
    | cons b rest ih => exact (extends_alloc h (.builtin b)).trans (ih _ _)
  exact hgo Table.empty

end Heap

theorem Interp.extends_create (h : Heap) (searchPaths : List String) (failFinalize : Bool)
    (observer : Option Observer) :
    h.Extends (Interp.create h searchPaths failFinalize observer).heap := by
  have h1 := Heap.extends_alloc h (.space Table.empty)
  have h2 := h1.trans (Heap.extends_alloc _
    (.space (Table.empty.insert "version" (h.alloc (.space Table.empty)).1)))
  have h3 := h2.trans (Heap.extends_allocBuiltins _ Builtin.all)
  exact h3.trans (Heap.extends_alloc _ _)

end InstancePool
