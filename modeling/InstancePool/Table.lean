/-!
Finite maps kept as a list of entries with distinct keys. Everything about a table is said through
`get?`; the order of the entries is the order in which keys first arrived.
-/

namespace InstancePool

/-- A finite map from `κ` to `ν`. -/
structure Table (κ ν : Type) where
  entries : List (κ × ν)
  nodup : (entries.map Prod.fst).Nodup
  deriving Repr, DecidableEq

namespace Table

variable {κ ν : Type} [DecidableEq κ]

/-- The value stored under `k` in a list of entries, if there is one. -/
def lookup (k : κ) : List (κ × ν) → Option ν
  | [] => none
  | e :: es => if e.1 = k then some e.2 else lookup k es

/-- Replaces the value under `k`, or adds an entry at the end. -/
def insertEntry (k : κ) (v : ν) : List (κ × ν) → List (κ × ν)
  | [] => [(k, v)]
  | e :: es => if e.1 = k then (k, v) :: es else e :: insertEntry k v es

theorem mem_keys_insertEntry (k : κ) (v : ν) (es : List (κ × ν)) (a : κ) :
    a ∈ (insertEntry k v es).map Prod.fst ↔ a = k ∨ a ∈ es.map Prod.fst := by
  induction es with
  | nil => simp [insertEntry]
  | cons e es ih =>
    unfold insertEntry
    by_cases h : e.1 = k
    · simp [h]
    · simp only [h, if_false, List.map_cons, List.mem_cons, ih]
      constructor
      · rintro (h1 | h1 | h1) <;> simp [h1]
      · rintro (h1 | h1 | h1) <;> simp [h1]

theorem nodup_insertEntry (k : κ) (v : ν) (es : List (κ × ν))
    (h : (es.map Prod.fst).Nodup) : ((insertEntry k v es).map Prod.fst).Nodup := by
  induction es with
  | nil => simp [insertEntry]
  | cons e es ih =>
    have hd : e.1 ∉ es.map Prod.fst ∧ (es.map Prod.fst).Nodup := by simpa using h
    unfold insertEntry
    by_cases hk : e.1 = k
    · simpa [hk] using h
    · rw [if_neg hk, List.map_cons, List.nodup_cons, mem_keys_insertEntry]
      exact ⟨fun hm => hm.elim hk hd.1, ih hd.2⟩

/-- The table with no entries. -/
def empty : Table κ ν := ⟨[], List.nodup_nil⟩

instance : EmptyCollection (Table κ ν) := ⟨empty⟩
instance : Inhabited (Table κ ν) := ⟨empty⟩

/-- The value under `k`. -/
def get? (t : Table κ ν) (k : κ) : Option ν := lookup k t.entries

/-- Stores `v` under `k`, replacing what was there. -/
def insert (t : Table κ ν) (k : κ) (v : ν) : Table κ ν :=
  ⟨insertEntry k v t.entries, nodup_insertEntry k v t.entries t.nodup⟩

/-- Forgets the key `k`. -/
def erase (t : Table κ ν) (k : κ) : Table κ ν :=
  ⟨t.entries.filter (fun e => e.1 ≠ k), (List.filter_sublist.map Prod.fst).nodup t.nodup⟩

/-- Whether `k` has a value. -/
def contains (t : Table κ ν) (k : κ) : Bool := (t.get? k).isSome

/-- The number of keys. -/
def size (t : Table κ ν) : Nat := t.entries.length

def keys (t : Table κ ν) : List κ := t.entries.map Prod.fst

/-- The table after storing each entry in turn, so that the last one for a key wins. -/
def ofList (es : List (κ × ν)) : Table κ ν := es.foldl (fun t e => t.insert e.1 e.2) empty

@[simp] theorem get?_empty (k : κ) : (empty : Table κ ν).get? k = none := rfl

theorem lookup_insertEntry (k a : κ) (v : ν) (es : List (κ × ν)) :
    lookup a (insertEntry k v es) = if a = k then some v else lookup a es := by
  induction es with
  | nil => by_cases h : k = a <;> simp [insertEntry, lookup, h, eq_comm]
  | cons e es ih =>
    unfold insertEntry
    by_cases h : e.1 = k
    · subst h
      by_cases ha : e.1 = a
      · subst ha; simp [lookup]
      · have ha' : a ≠ e.1 := fun h => ha h.symm
        simp [lookup, ha, ha']
    · simp only [h, if_false, lookup, ih]
      by_cases ha : e.1 = a
      · subst ha; simp [h]
      · simp [ha]

theorem get?_insert (t : Table κ ν) (k a : κ) (v : ν) :
    (t.insert k v).get? a = if a = k then some v else t.get? a :=
  lookup_insertEntry k a v t.entries

@[simp] theorem get?_insert_self (t : Table κ ν) (k : κ) (v : ν) : (t.insert k v).get? k = some v := by
  rw [get?_insert, if_pos rfl]

theorem get?_insert_of_ne {t : Table κ ν} {k a : κ} {v : ν} (h : a ≠ k) :
    (t.insert k v).get? a = t.get? a := by
  rw [get?_insert, if_neg h]

theorem get?_insert_eq_some {t : Table κ ν} {k a : κ} {v w : ν} :
    (t.insert k v).get? a = some w ↔ a = k ∧ v = w ∨ a ≠ k ∧ t.get? a = some w := by
  by_cases h : a = k
  · subst h
    simp
  · simp [get?_insert_of_ne h, h]

theorem lookup_filter_ne (k a : κ) (es : List (κ × ν)) :
    lookup a (es.filter (fun e => e.1 ≠ k)) = if a = k then none else lookup a es := by
  induction es with
  | nil => simp [lookup]
  | cons e es ih =>
    by_cases h : e.1 = k
    · have hf : List.filter (fun e => decide (e.1 ≠ k)) (e :: es) =
          List.filter (fun e => decide (e.1 ≠ k)) es := by simp [h]
      rw [hf, ih]
      by_cases ha : a = k
      · simp [ha]
      · have : e.1 ≠ a := fun he => ha (by rw [← he, h])
        simp [ha, lookup, this]
    · have hf : List.filter (fun e => decide (e.1 ≠ k)) (e :: es) =
          e :: List.filter (fun e => decide (e.1 ≠ k)) es := by simp [h]
      rw [hf]
      simp only [lookup, ih]
      by_cases ha : e.1 = a
      · subst ha; simp [h]
      · simp [ha]

theorem get?_erase (t : Table κ ν) (k a : κ) :
    (t.erase k).get? a = if a = k then none else t.get? a :=
  lookup_filter_ne k a t.entries

theorem get?_erase_eq_some {t : Table κ ν} {k a : κ} {v : ν} :
    (t.erase k).get? a = some v ↔ a ≠ k ∧ t.get? a = some v := by
  by_cases h : a = k <;> simp [get?_erase, h]

end Table

end InstancePool
