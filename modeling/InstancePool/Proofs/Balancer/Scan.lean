import InstancePool.Proofs.Balancer.LevelCounts

/-!
Which slot a scan comes to. The slots are gone through from the cursor to the last one, and then from the
first one on. Of those that are used least, the first on this way is taken, and the cursor is left behind
it if it was idle, and where the way began if no slot was.
-/

namespace InstancePool

namespace Balancer

variable {b : Balancer}

/-- The slots in the order in which a scan comes to them. -/
def order (b : Balancer) (cursor : Nat) : List Nat :=
  List.range' (b.start cursor) (b.size - b.start cursor) ++ List.range (b.start cursor)

/-- The slots that so many steps of a scan come to. -/
def walk (b : Balancer) : (steps cursor : Nat) → List Nat
  | 0, _ => []
  | steps + 1, cursor => b.start cursor :: b.walk steps (b.start cursor + 1)

/-- Of some slots, the first of those that are used least. -/
def FirstLeast (b : Balancer) (slots : List Nat) (slot : Nat) : Prop :=
  ∃ before after, slots = before ++ slot :: after ∧
    (∀ s ∈ before, b.load slot < b.load s) ∧ ∀ s ∈ after, b.load slot ≤ b.load s

/-- As long as it does not come to the end, a scan goes on slot by slot. -/
theorem walk_straight {steps cursor : Nat} (hs : b.start cursor + steps ≤ b.size) :
    b.walk steps cursor = List.range' (b.start cursor) steps := by
  induction steps generalizing cursor with
  | zero => rfl
  | succ steps ih =>
    rw [walk, List.range'_succ]
    cases steps with
    | zero => rfl
    | succ steps =>
      have hnext : b.start (b.start cursor + 1) = b.start cursor + 1 := if_pos (by omega)
      rw [ih (by omega), hnext]

theorem walk_append {first cursor : Nat} (hf : 0 < first) (hs : b.start cursor + first ≤ b.size)
    (steps : Nat) : b.walk (first + steps) cursor =
      b.walk first cursor ++ b.walk steps (b.start cursor + first) := by
  induction first generalizing cursor with
  | zero => omega
  | succ first ih =>
    rw [Nat.succ_add_eq_add_succ, Nat.add_succ, walk, walk, List.cons_append]
    cases first with
    | zero => rw [Nat.zero_add, walk, List.nil_append]
    | succ first =>
      have hnext : b.start (b.start cursor + 1) = b.start cursor + 1 := if_pos (by omega)
      rw [ih (Nat.succ_pos first) (by omega), hnext, Nat.add_assoc, Nat.add_comm 1]

/-- A whole round comes to every slot. -/
theorem walk_size (b : Balancer) (cursor : Nat) : b.walk b.size cursor = b.order cursor := by
  have hstart := b.start_lt cursor
  have hround : b.size = (b.size - b.start cursor) + b.start cursor := by omega
  have hend : b.start (b.start cursor + (b.size - b.start cursor)) = 0 := if_neg (by omega)
  have hback : b.walk (b.start cursor) (b.start cursor + (b.size - b.start cursor)) =
      List.range (b.start cursor) := by
    rw [walk_straight (by omega), hend, List.range_eq_range']
  calc b.walk b.size cursor = b.walk ((b.size - b.start cursor) + b.start cursor) cursor := by
        rw [← hround]
    _ = b.order cursor := by
        rw [walk_append (by omega) (by omega), walk_straight (by omega), hback, order]

theorem mem_order {cursor slot : Nat} : slot ∈ b.order cursor ↔ slot < b.size := by
  have hstart := b.start_lt cursor
  rw [order, List.mem_append, List.mem_range'_1, List.mem_range]
  omega

/-- A scan ends at the best slot that it started out with, unless it came to a better one. -/
theorem scan_firstLeast (steps cursor least : Nat) {uses : UInt64} (hu : uses ≠ 0) :
    let found := (b.scan steps cursor least uses).slot
    found = least ∧ (∀ s ∈ b.walk steps cursor, uses ≤ b.load s) ∨
      b.FirstLeast (b.walk steps cursor) found ∧ b.load found < uses := by
  induction steps generalizing cursor least uses with
  | zero => exact .inl ⟨rfl, fun s hs => absurd hs List.not_mem_nil⟩
  | succ steps ih =>
    -- What is found behind the slot at the cursor is the first on the whole way if it is used less.
    have hlater {found : Nat} (hless : b.load found < b.load (b.start cursor))
        (hf : b.FirstLeast (b.walk steps (b.start cursor + 1)) found) :
        b.FirstLeast (b.walk (steps + 1) cursor) found := by
      obtain ⟨before, after, hwalk, hbefore, hafter⟩ := hf
      refine ⟨b.start cursor :: before, after, ?_, List.forall_mem_cons.2 ⟨hless, hbefore⟩, hafter⟩
      rw [walk, hwalk, List.cons_append]
    unfold scan
    simp only []
    -- The slot at the cursor is idle, or the best so far, or neither.
    split
    · rename_i hidle
      have hzero {n : UInt64} : (0 : UInt64) ≤ n := UInt64.zero_le
      refine .inr ⟨⟨[], _, rfl, List.forall_mem_nil _, fun s _ => hidle ▸ hzero⟩, ?_⟩
      rw [hidle]
      exact UInt64.pos_iff_ne_zero.2 hu
    · rename_i hbusy
      split
      · rename_i hless
        right
        rcases ih (b.start cursor + 1) (b.start cursor) hbusy with ⟨he, hrest⟩ | ⟨hf, hlt⟩
        · rw [he]
          exact ⟨⟨[], _, rfl, List.forall_mem_nil _, hrest⟩, hless⟩
        · exact ⟨hlater hlt hf, UInt64.lt_trans hlt hless⟩
      · rename_i hmore
        have hle : uses ≤ b.load (b.start cursor) := UInt64.not_lt.1 hmore
        rcases ih (b.start cursor + 1) least hu with ⟨he, hrest⟩ | ⟨hf, hlt⟩
        · exact .inl ⟨he, List.forall_mem_cons.2 ⟨hle, hrest⟩⟩
        · exact .inr ⟨hlater (UInt64.lt_of_lt_of_le hlt hle) hf, hlt⟩

/-- Where no slot is idle, the cursor is left behind the last slot that the scan came to. -/
theorem scan_cursor_of_busy {steps : Nat} (cursor least : Nat) (uses : UInt64)
    (hs : ∀ slot < b.size, b.load slot ≠ 0) :
    (b.scan (steps + 1) cursor least uses).cursor = (b.start cursor + steps) % b.size + 1 := by
  induction steps generalizing cursor least uses with
  | zero =>
    have hbusy := hs _ (b.start_lt cursor)
    rw [Nat.add_zero (b.start cursor), Nat.mod_eq_of_lt (b.start_lt cursor), scan]
    simp only [if_neg hbusy]
    split <;> rfl
  | succ steps ih =>
    have hstart := b.start_lt cursor
    have hbusy := hs _ hstart
    have hnext : (b.start (b.start cursor + 1) + steps) % b.size + 1 =
        (b.start cursor + (steps + 1)) % b.size + 1 := by
      rw [start_succ hstart, Nat.mod_add_mod, Nat.add_assoc, Nat.add_comm 1]
    rw [scan]
    simp only [if_neg hbusy]
    split
    · rw [ih, hnext]
    · rw [ih, hnext]

/-- A scan that comes to an idle slot ends there. -/
theorem scan_cursor_of_idle {steps cursor : Nat} (least : Nat) (uses : UInt64)
    (hidle : ∃ slot ∈ b.walk steps cursor, b.load slot = 0) :
    (b.scan steps cursor least uses).cursor = (b.scan steps cursor least uses).slot + 1 := by
  induction steps generalizing cursor least uses with
  | zero =>
    obtain ⟨slot, hmem, -⟩ := hidle
    cases hmem
  | succ steps ih =>
    unfold scan
    simp only []
    split
    · rfl
    · rename_i hbusy
      obtain ⟨slot, hmem, hzero⟩ := hidle
      have hlater : ∃ slot ∈ b.walk steps (b.start cursor + 1), b.load slot = 0 := by
        rcases List.mem_cons.1 hmem with rfl | hmem
        · exact absurd hzero hbusy
        · exact ⟨slot, hmem, hzero⟩
      split
      · exact ih _ _ hlater
      · exact ih _ _ hlater

/-- The slot that is taken is the first of the least used ones. -/
theorem choose_firstLeast (hb : b.Slack) (cursor : Nat) :
    b.FirstLeast (b.order cursor) (b.choose cursor).slot := by
  rw [← walk_size]
  have hseed : (0xFFFFFFFFFFFFFFFF : UInt64) ≠ 0 := by decide
  rcases b.scan_firstLeast b.size cursor 0 hseed with ⟨-, hfull⟩ | ⟨hfirst, -⟩
  · -- There is room at some slot, so not all are as used as can be.
    obtain ⟨_, hmem, hroom⟩ := hb
    obtain ⟨slot, hslot, rfl⟩ := mem_loads.1 hmem
    have hle := UInt64.le_iff_toNat_le.1 (hfull slot (walk_size b cursor ▸ mem_order.2 hslot))
    have hmost : (0xFFFFFFFFFFFFFFFF : UInt64).toNat + 1 = 2 ^ 64 := rfl
    omega
  · exact hfirst

theorem find?_order (hb : b.Slack) (cursor : Nat) :
    (b.order cursor).find? (fun slot => ∀ s < b.size, b.load slot ≤ b.load s) =
      some (b.choose cursor).slot := by
  obtain ⟨before, after, horder, hbefore, -⟩ := choose_firstLeast hb cursor
  rw [List.find?_eq_some_iff_append]
  refine ⟨?_, before, after, horder, fun s hs => ?_⟩
  · rw [decide_eq_true_eq]
    exact fun s hs => UInt64.le_iff_toNat_le.2 (b.load_choose_le cursor hs)
  · -- What comes before is used more than the slot that was taken.
    have hnot : ¬ ∀ s' < b.size, b.load s ≤ b.load s' := fun hall =>
      UInt64.not_le.2 (hbefore s hs) (hall _ (b.choose_slot_lt cursor))
    rw [decide_eq_false hnot, Bool.not_false]

/-- Where the cursor is left. If no slot is idle, it means the slot that it meant before. -/
theorem cursor_choose (b : Balancer) (cursor : Nat) :
    (b.choose cursor).cursor = if b.load (b.choose cursor).slot = 0 then (b.choose cursor).slot + 1
      else if b.start cursor = 0 then b.size else b.start cursor := by
  have hstart := b.start_lt cursor
  split
  · rename_i hidle
    refine scan_cursor_of_idle 0 _ ⟨_, ?_, hidle⟩
    rw [walk_size, mem_order]
    exact b.choose_slot_lt cursor
  · rename_i hbusy
    have hall (slot : Nat) (hs : slot < b.size) : b.load slot ≠ 0 := by
      intro hzero
      have hle := b.load_choose_le cursor hs
      rw [hzero] at hle
      exact hbusy (UInt64.toNat_inj.1 (Nat.le_zero.1 hle))
    obtain ⟨steps, hsteps⟩ : ∃ steps, b.size = steps + 1 := ⟨b.size - 1, by omega⟩
    have hcursor : (b.choose cursor).cursor = (b.start cursor + steps) % b.size + 1 := by
      rw [choose, hsteps, scan_cursor_of_busy cursor 0 _ hall, ← hsteps]
    rw [hcursor]
    split
    · rename_i hzero
      rw [hzero, Nat.zero_add, Nat.mod_eq_of_lt (by omega), hsteps]
    · -- The slot before the one where the scan began is the last that it comes to.
      have hlast : b.start cursor + steps = b.start cursor - 1 + b.size := by omega
      rw [hlast, Nat.add_mod_right, Nat.mod_eq_of_lt (by omega)]
      omega

end Balancer

namespace Fleet

theorem cursor_insert (f : Fleet) (t t' : Thread) (n : Nat) :
    ({ f with cursors := f.cursors.insert t n } : Fleet).cursor t' =
      if t' = t then n else f.cursor t' := by
  rw [cursor, Table.get?_insert]
  split
  · rfl
  · rfl

/-- A thread that takes a slot of a balancer, wherever its cursor stands, gets the first of the least used
slots, in the order from the cursor to the last slot and then from slot 0 on: an idle one, if there is
one. Its use count goes up by one, and no other count changes. The cursor is left behind an idle slot;
where none is idle it means the same slot as before. The cursors of other threads and the other balancers
stay as they are. Some use count must be below `2 ^ 64 - 1`. -/
theorem acquire_first_least (f : Fleet) (k : Nat) (t : Thread) (b : Balancer)
    (hb : f.balancers[k]? = some b) (hroom : ∃ uses ∈ b.loads, uses.toNat ≠ 2 ^ 64 - 1) :
    let start := if f.cursor t < b.size then f.cursor t else 0
    ∃ slot f' b', f.acquire k t = some (slot, f') ∧ slot < b.size ∧
      (List.range' start (b.size - start) ++ List.range start).find?
        (fun s => ∀ s' < b.size, b.load s ≤ b.load s') = some slot ∧
      ((∃ s < b.size, b.load s = 0) → b.load slot = 0) ∧
      f'.balancers = f.balancers.set k b' ∧ b'.size = b.size ∧
      (∀ s < b.size, (b'.load s).toNat = (b.load s).toNat + if s = slot then 1 else 0) ∧
      (b.load slot = 0 → f'.cursor t = slot + 1) ∧
      (b.load slot ≠ 0 → f'.cursor t = (if start = 0 then b.size else start) ∧
        (if f'.cursor t < b.size then f'.cursor t else 0) = start) ∧
      (∀ t', t' ≠ t → f'.cursor t' = f.cursor t') ∧ f'.complaints = f.complaints := by
  intro start
  have hslack : b.Slack := by
    obtain ⟨uses, hmem, hne⟩ := hroom
    have hlt := uses.toNat_lt
    exact ⟨uses, hmem, by omega⟩
  have hstart : start < b.size := b.start_lt (f.cursor t)
  have hcursor := b.cursor_choose (f.cursor t)
  let choice := b.choose (f.cursor t)
  let f' : Fleet := { f with
    balancers := f.balancers.set k (b.acquire (f.cursor t)).2
    cursors := f.cursors.insert t choice.cursor }
  have hacquire : f.acquire k t = some (choice.slot, f') := by
    simp only [acquire, hb, Option.map_some]
    rfl
  have hself : f'.cursor t = choice.cursor := (f.cursor_insert t t choice.cursor).trans (if_pos rfl)
  refine ⟨choice.slot, f', (b.acquire (f.cursor t)).2, hacquire, b.choose_slot_lt _,
    Balancer.find?_order hslack _, ?_, rfl, Balancer.size_update .., ?_, ?_, ?_, ?_, rfl⟩
  · rintro ⟨s, hs, hzero⟩
    have hle := b.load_choose_le (f.cursor t) hs
    rw [hzero] at hle
    exact UInt64.toNat_inj.1 (Nat.le_zero.1 hle)
  · exact fun s _ => Balancer.load_acquire hslack (f.cursor t) s
  · intro hidle
    rw [hself, hcursor, if_pos hidle]
  · intro hbusy
    have hleft : f'.cursor t = if start = 0 then b.size else start := by
      rw [hself, hcursor, if_neg hbusy]
      rfl
    -- Read back, the cursor starts the next scan at the same slot.
    refine ⟨hleft, ?_⟩
    rw [hleft]
    by_cases hzero : start = 0
    · rw [if_pos hzero, if_neg (Nat.lt_irrefl b.size), hzero]
    · rw [if_neg hzero, if_pos hstart]
  · exact fun t' hne => (f.cursor_insert t t' choice.cursor).trans (if_neg hne)

end Fleet

/-- A balancer without an idle slot and a larger one. One thread stands at the last slot of the first, another
one comes from the second and stands beyond it. -/
def Fleet.crowded : Fleet where
  balancers := [⟨[3, 2, 5, 2], by decide⟩, ⟨[1, 0, 0, 0, 0, 0], by decide⟩]
  cursors := (Table.empty.insert none 3).insert (some "worker") 5

/-- From slot 3 on the first of the least used slots is slot 3 itself, from slot 0 on it is slot 1. -/
theorem Fleet.acquire_first_least_crowded :
    (∃ uses ∈ ([3, 2, 5, 2] : List UInt64), uses.toNat ≠ 2 ^ 64 - 1) ∧
    (∃ f' b', Fleet.crowded.acquire 0 none = some (3, f') ∧ f'.balancers[0]? = some b' ∧
      b'.load 3 = 3 ∧ f'.cursor none = 3 ∧ f'.cursor (some "worker") = 5) ∧
    ∃ f' b', Fleet.crowded.acquire 0 (some "worker") = some (1, f') ∧ f'.balancers[0]? = some b' ∧
      b'.load 1 = 3 ∧ f'.cursor (some "worker") = 4 ∧ f'.cursor none = 3 := by
  have hroom : ∃ uses ∈ ([3, 2, 5, 2] : List UInt64), uses.toNat ≠ 2 ^ 64 - 1 := by decide
  refine ⟨hroom, ?_, ?_⟩
  · obtain ⟨slot, f', b', hacquire, -, hfirst, -, hset, -, hload, -, hbusy, hother, -⟩ :=
      Fleet.acquire_first_least Fleet.crowded 0 none _ rfl hroom
    obtain rfl : 3 = slot := Option.some.inj hfirst
    refine ⟨f', b', hacquire, by rw [hset]; rfl, ?_, (hbusy (by decide)).1,
      hother (some "worker") (by decide)⟩
    exact UInt64.toNat_inj.1 (hload 3 (by decide))
  · obtain ⟨slot, f', b', hacquire, -, hfirst, -, hset, -, hload, -, hbusy, hother, -⟩ :=
      Fleet.acquire_first_least Fleet.crowded 0 (some "worker") _ rfl hroom
    obtain rfl : 1 = slot := Option.some.inj hfirst
    refine ⟨f', b', hacquire, by rw [hset]; rfl, ?_, (hbusy (by decide)).1, hother none (by decide)⟩
    exact UInt64.toNat_inj.1 (hload 1 (by decide))

end InstancePool
