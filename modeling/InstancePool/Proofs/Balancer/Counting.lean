import InstancePool.Balancer

/-!
Counting the entries of a table, and the slots of a balancer.
-/

namespace InstancePool

namespace Table

variable {κ ν : Type}

/-- How many entries have a property. -/
def count (t : Table κ ν) (p : κ × ν → Bool) : Nat := t.entries.countP p

theorem count_true (t : Table κ ν) : t.count (fun _ => true) = t.size := by
  simp only [count, size, List.countP_true]

theorem count_le_size (t : Table κ ν) (p : κ × ν → Bool) : t.count p ≤ t.size :=
  List.countP_le_length

variable [DecidableEq κ]

theorem lookup_of_mem {es : List (κ × ν)} (hn : (es.map Prod.fst).Nodup) {e : κ × ν} (he : e ∈ es) :
    lookup e.1 es = some e.2 := by
  induction es with
  | nil => cases he
  | cons a es ih =>
    have hd : a.1 ∉ es.map Prod.fst ∧ (es.map Prod.fst).Nodup := List.nodup_cons.1 hn
    unfold lookup
    rcases List.mem_cons.1 he with rfl | he
    · rw [if_pos rfl]
    · rw [if_neg, ih hd.2 he]
      intro hk
      exact hd.1 (hk ▸ List.mem_map_of_mem he)

theorem get?_of_mem {t : Table κ ν} {e : κ × ν} (he : e ∈ t.entries) : t.get? e.1 = some e.2 :=
  lookup_of_mem t.nodup he

theorem mem_of_get? {t : Table κ ν} {k : κ} {v : ν} (h : t.get? k = some v) :
    (k, v) ∈ t.entries := by
  have hgo (es : List (κ × ν)) (hl : lookup k es = some v) : (k, v) ∈ es := by
    induction es with
    | nil => cases hl
    | cons e es ih =>
      unfold lookup at hl
      split at hl
      · rename_i hk
        cases hl
        subst hk
        exact List.mem_cons_self
      · exact List.mem_cons_of_mem e (ih hl)
  exact hgo t.entries h

theorem mem_keys {t : Table κ ν} {k : κ} : k ∈ t.keys ↔ (t.get? k).isSome := by
  rw [Option.isSome_iff_exists, keys, List.mem_map]
  constructor
  · rintro ⟨e, he, rfl⟩
    exact ⟨e.2, get?_of_mem he⟩
  · rintro ⟨v, hv⟩
    exact ⟨(k, v), mem_of_get? hv, rfl⟩

theorem countP_insertEntry_new {k : κ} (v : ν) {es : List (κ × ν)} (p : κ × ν → Bool)
    (h : lookup k es = none) :
    (insertEntry k v es).countP p = es.countP p + if p (k, v) then 1 else 0 := by
  induction es with
  | nil => simp only [insertEntry, List.countP_cons, List.countP_nil]
  | cons e es ih =>
    unfold lookup at h
    split at h
    · cases h
    · rename_i hk
      simp only [insertEntry, if_neg hk, List.countP_cons, ih h]
      omega

theorem countP_insertEntry_old {k : κ} {v w : ν} {es : List (κ × ν)} {p : κ × ν → Bool}
    (h : lookup k es = some w) (hp : p (k, v) = p (k, w)) :
    (insertEntry k v es).countP p = es.countP p := by
  induction es with
  | nil => cases h
  | cons e es ih =>
    unfold lookup at h
    unfold insertEntry
    split at h
    · rename_i hk
      cases h
      rw [if_pos hk, List.countP_cons, List.countP_cons, hp, ← hk]
    · rename_i hk
      rw [if_neg hk, List.countP_cons, List.countP_cons, ih h]

theorem countP_filter_ne {k : κ} {v : ν} {es : List (κ × ν)} (p : κ × ν → Bool)
    (hn : (es.map Prod.fst).Nodup) (h : lookup k es = some v) :
    es.countP p = (es.filter fun e => e.1 ≠ k).countP p + if p (k, v) then 1 else 0 := by
  induction es with
  | nil => cases h
  | cons e es ih =>
    have hd : e.1 ∉ es.map Prod.fst ∧ (es.map Prod.fst).Nodup := List.nodup_cons.1 hn
    unfold lookup at h
    split at h
    · rename_i hk
      obtain rfl := Option.some.inj h
      subst hk
      -- No other entry has the key, so the filter takes away this one alone.
      have hrest : es.filter (fun a => a.1 ≠ e.1) = es := by
        apply List.filter_eq_self.2
        intro a ha
        exact decide_eq_true fun he => hd.1 (he ▸ List.mem_map_of_mem ha)
      rw [List.filter_cons_of_neg (by simp), hrest, List.countP_cons]
    · rename_i hk
      rw [List.filter_cons_of_pos (by simpa using hk), List.countP_cons, List.countP_cons,
        ih hd.2 h]
      omega

theorem count_insert_new {t : Table κ ν} {k : κ} (h : t.get? k = none) (v : ν)
    (p : κ × ν → Bool) : (t.insert k v).count p = t.count p + if p (k, v) then 1 else 0 :=
  countP_insertEntry_new v p h

theorem count_insert_old {t : Table κ ν} {k : κ} {v w : ν} (h : t.get? k = some w)
    {p : κ × ν → Bool} (hp : p (k, v) = p (k, w)) : (t.insert k v).count p = t.count p :=
  countP_insertEntry_old h hp

theorem count_erase {t : Table κ ν} {k : κ} {v : ν} (h : t.get? k = some v) (p : κ × ν → Bool) :
    t.count p = (t.erase k).count p + if p (k, v) then 1 else 0 :=
  countP_filter_ne p t.nodup h

theorem size_insert_new {t : Table κ ν} {k : κ} (h : t.get? k = none) (v : ν) :
    (t.insert k v).size = t.size + 1 := by
  rw [← count_true, ← count_true, count_insert_new h]
  rfl

theorem size_insert_old {t : Table κ ν} {k : κ} {w : ν} (h : t.get? k = some w) (v : ν) :
    (t.insert k v).size = t.size := by
  rw [← count_true, ← count_true, count_insert_old h (p := fun _ => true) rfl]

theorem size_erase_le (t : Table κ ν) (k : κ) : (t.erase k).size ≤ t.size :=
  List.length_filter_le ..

end Table

namespace Balancer

variable {b : Balancer}

theorem size_pos (b : Balancer) : 0 < b.size := List.length_pos_iff.2 b.nonempty

theorem start_lt (b : Balancer) (cursor : Nat) : b.start cursor < b.size := by
  unfold start
  split
  · assumption
  · exact b.size_pos

theorem scan_slot_lt (steps cursor least : Nat) (uses : UInt64) (hl : least < b.size) :
    (b.scan steps cursor least uses).slot < b.size := by
  induction steps generalizing cursor least uses with
  | zero => exact hl
  | succ steps ih =>
    have hs := b.start_lt cursor
    unfold scan
    simp only []
    split
    · exact hs
    · split
      · exact ih _ _ _ hs
      · exact ih _ _ _ hl

/-- A thread takes a slot that there is. -/
theorem choose_slot_lt (b : Balancer) (cursor : Nat) : (b.choose cursor).slot < b.size :=
  scan_slot_lt _ _ _ _ b.size_pos

@[simp] theorem size_update (b : Balancer) (slot : Nat) (f : UInt64 → UInt64) :
    (b.update slot f).size = b.size := by
  simp only [size, update, List.length_modify]

theorem load_update (b : Balancer) {slot : Nat} (hs : slot < b.size) (f : UInt64 → UInt64)
    (k : Nat) : (b.update slot f).load k = if k = slot then f (b.load slot) else b.load k := by
  have hb : slot < b.loads.length := hs
  simp only [load, update, List.getElem?_modify]
  by_cases hk : slot = k
  · subst hk
    simp [List.getElem?_eq_getElem hb]
  · simp [hk, Ne.symm hk]

/-- To count up and down again changes nothing. -/
theorem update_update (b : Balancer) (slot : Nat) :
    (b.update slot (· + 1)).update slot (· - 1) = b := by
  rcases b with ⟨loads, hne⟩
  simp only [update, List.modify_modify_eq, mk.injEq]
  have hid : ((fun x : UInt64 => x - 1) ∘ fun x => x + 1) = id := by
    funext x
    exact UInt64.add_sub_cancel x 1
  rw [hid, List.modify_id]

end Balancer

end InstancePool
