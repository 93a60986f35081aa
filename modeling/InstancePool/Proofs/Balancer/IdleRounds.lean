import InstancePool.Proofs.Balancer.Scan
import Mathlib.Data.List.Rotate

/-!
Going round the idle slots. A thread that takes a slot and gives it back at once, again and again, goes
round the slots that nobody holds: each round takes the first of them from the cursor on, and puts it at the
end of those to come.
-/

namespace InstancePool

open Finset

namespace Balancer

variable {b : Balancer}

/-- The idle slots in the order in which a scan comes to them. -/
def ring (b : Balancer) (cursor : Nat) : List Nat := (b.order cursor).filter fun s => b.load s = 0

theorem mem_ring {cursor slot : Nat} : slot ∈ b.ring cursor ↔ slot ∈ b.idle := by
  rw [ring, List.mem_filter, mem_order, mem_idle, decide_eq_true_eq]

theorem order_eq_rotate (b : Balancer) (cursor : Nat) :
    b.order cursor = (List.range b.size).rotate (b.start cursor) := by
  have hstart := b.start_lt cursor
  rw [List.rotate_eq_drop_append_take (by rw [List.length_range]; omega), List.take_range,
    Nat.min_eq_left hstart.le, List.range_eq_range' (n := b.size), List.drop_range', order, Nat.mul_one,
    Nat.zero_add]

theorem nodup_ring (b : Balancer) (cursor : Nat) : (b.ring cursor).Nodup := by
  rw [ring, order_eq_rotate]
  exact (List.nodup_rotate.2 List.nodup_range).filter _

theorem toFinset_ring (b : Balancer) (cursor : Nat) : (b.ring cursor).toFinset = b.idle := by
  ext slot
  rw [List.mem_toFinset, mem_ring]

theorem length_ring (b : Balancer) (cursor : Nat) : (b.ring cursor).length = #b.idle := by
  rw [← b.toFinset_ring cursor, List.toFinset_card_of_nodup (b.nodup_ring cursor)]

/-- From the slot behind one on, the slots come in the same circle, and that one comes last. -/
theorem order_succ {cursor slot : Nat} {before after : List Nat}
    (horder : b.order cursor = before ++ slot :: after) :
    b.order (slot + 1) = after ++ before ++ [slot] := by
  have hstart := b.start_lt cursor
  have hlen : before.length < (List.range b.size).length := by
    have hsize := congrArg List.length horder
    rw [order_eq_rotate, List.length_rotate, List.length_append, List.length_cons] at hsize
    omega
  have hslot : slot = (b.start cursor + before.length) % b.size := by
    have hget : (b.order cursor)[before.length]? = some slot := by
      rw [horder, List.getElem?_append_right (Nat.le_refl _), Nat.sub_self, List.getElem?_cons_zero]
    rw [order_eq_rotate, List.getElem?_rotate hlen, List.length_range,
      List.getElem?_range (Nat.mod_lt _ b.size_pos), Nat.add_comm] at hget
    exact (Option.some.inj hget).symm
  have hlt : slot < b.size := hslot ▸ Nat.mod_lt _ b.size_pos
  have hsplit : before ++ slot :: after = (before ++ [slot]) ++ after := by simp
  calc b.order (slot + 1) = (List.range b.size).rotate ((slot + 1) % b.size) := by
        rw [order_eq_rotate, start_succ hlt]
    _ = (List.range b.size).rotate (b.start cursor + (before ++ [slot]).length) := by
        rw [hslot, Nat.mod_add_mod, ← List.rotate_mod _ (b.start cursor + _), List.length_range,
          List.length_append, List.length_singleton, Nat.add_assoc]
    _ = (b.order cursor).rotate (before ++ [slot]).length := by rw [order_eq_rotate, List.rotate_rotate]
    _ = after ++ before ++ [slot] := by
        rw [horder, hsplit, List.rotate_append_length_eq, List.append_assoc]

/-- A scan takes the first slot of the ring and leaves the cursor where that slot comes last. -/
theorem choose_ring (hidle : b.idle.Nonempty) (cursor : Nat) :
    b.ring (b.choose cursor).cursor = (b.ring cursor).rotate 1 ∧
      (b.ring cursor).head? = some (b.choose cursor).slot := by
  obtain ⟨hslot, hzero⟩ := mem_idle.1 (choose_mem_idle hidle cursor)
  have hslack : b.Slack := ⟨_, mem_loads.2 ⟨_, hslot, hzero⟩, by decide⟩
  obtain ⟨before, after, horder, hbefore, -⟩ := choose_firstLeast hslack cursor
  have hcursor : (b.choose cursor).cursor = (b.choose cursor).slot + 1 := by
    rw [cursor_choose, if_pos hzero]
  -- All that comes before the slot is busy.
  have hbusy : before.filter (fun s => b.load s = 0) = [] := by
    rw [List.filter_eq_nil_iff]
    intro s hs hidle
    have hless := hbefore s hs
    rw [of_decide_eq_true hidle, hzero] at hless
    exact UInt64.lt_irrefl 0 hless
  have hself : decide (b.load (b.choose cursor).slot = 0) = true := decide_eq_true hzero
  have hring : b.ring cursor = (b.choose cursor).slot :: after.filter (fun s => b.load s = 0) := by
    rw [ring, horder, List.filter_append, hbusy, List.nil_append, List.filter_cons, if_pos hself]
  refine ⟨?_, by rw [hring, List.head?_cons]⟩
  rw [hring, List.rotate_cons_succ, List.rotate_zero, hcursor, ring, order_succ horder, List.filter_append,
    List.filter_append, hbusy, List.append_nil, List.filter_cons, if_pos hself, List.filter_nil]

end Balancer

namespace Fleet

/-- A thread takes a slot of a balancer and gives it back. No complaint may come of it. -/
def round (f : Fleet) (k : Nat) (t : Thread) : Option (Nat × Fleet) := do
  let (slot, f) ← f.acquire k t
  let (.ok (), f) ← f.free k slot | none
  pure (slot, f)

/-- So many rounds, and the slots that they took. -/
def rounds (f : Fleet) (k : Nat) (t : Thread) : Nat → Option (List Nat × Fleet)
  | 0 => some ([], f)
  | m + 1 => do
    let (slots, f) ← f.rounds k t m
    let (slot, f) ← f.round k t
    pure (slots ++ [slot], f)

/-- Nothing but the cursor of a thread differs. -/
structure Turned (f : Fleet) (t : Thread) (f' : Fleet) : Prop where
  balancers : f'.balancers = f.balancers
  complaints : f'.complaints = f.complaints
  others : ∀ t', t' ≠ t → f'.cursor t' = f.cursor t'

theorem Turned.refl (f : Fleet) (t : Thread) : f.Turned t f := ⟨rfl, rfl, fun _ _ => rfl⟩

theorem Turned.trans {f g i : Fleet} {t : Thread} (hf : f.Turned t g) (hg : g.Turned t i) :
    f.Turned t i where
  balancers := hg.balancers.trans hf.balancers
  complaints := hg.complaints.trans hf.complaints
  others t' hne := (hg.others t' hne).trans (hf.others t' hne)

variable {f : Fleet} {k : Nat} {t : Thread} {b : Balancer}

/-- One round takes the first slot of the ring and turns the ring by one. -/
theorem round_ok (hb : f.balancers[k]? = some b) (hidle : b.idle.Nonempty) :
    ∃ slot f', f.round k t = some (slot, f') ∧ f.Turned t f' ∧
      (b.ring (f.cursor t)).head? = some slot ∧
      b.ring (f'.cursor t) = (b.ring (f.cursor t)).rotate 1 := by
  obtain ⟨hslot, hzero⟩ := Balancer.mem_idle.1 (Balancer.choose_mem_idle hidle (f.cursor t))
  obtain ⟨hturn, hhead⟩ := Balancer.choose_ring hidle (f.cursor t)
  let choice := b.choose (f.cursor t)
  let taken := b.update choice.slot (· + 1)
  let f₁ : Fleet := { f with
    balancers := f.balancers.set k taken
    cursors := f.cursors.insert t choice.cursor }
  let f₂ : Fleet := { f₁ with balancers := f₁.balancers.set k (taken.update choice.slot (· - 1)) }
  obtain ⟨hk, hget⟩ := List.getElem?_eq_some_iff.1 hb
  have hacquire : f.acquire k t = some (choice.slot, f₁) := by
    rw [acquire, hb]
    rfl
  have hfree : f₁.free k choice.slot = some (.ok (), f₂) := by
    refine free_ok (List.getElem?_set_self hk) ((Balancer.size_update ..).symm ▸ hslot) ?_
    rw [Balancer.load_update b hslot, if_pos rfl, hzero]
    decide
  have hback : f₂.balancers = f.balancers := by
    calc f₂.balancers = (f.balancers.set k taken).set k (taken.update choice.slot (· - 1)) := rfl
      _ = f.balancers.set k b := by rw [List.set_set, Balancer.update_update]
      _ = f.balancers := hget ▸ List.set_getElem_self hk
  have hcursor (t' : Thread) : f₂.cursor t' = if t' = t then choice.cursor else f.cursor t' :=
    f.cursor_insert t t' choice.cursor
  refine ⟨choice.slot, f₂, ?_, ⟨hback, rfl, fun t' hne => (hcursor t').trans (if_neg hne)⟩, hhead, ?_⟩
  · simp only [round, hacquire, hfree, Option.bind_eq_bind, Option.bind_some, Option.pure_def]
  · rw [hcursor, if_pos rfl, hturn]

/-- Each round goes on where the one before it stopped. -/
theorem rounds_ok (hb : f.balancers[k]? = some b) (hidle : b.idle.Nonempty) (m : Nat) :
    ∃ slots f', f.rounds k t m = some (slots, f') ∧ f.Turned t f' ∧ slots.length = m ∧
      (∀ i < m, slots[i]? = ((b.ring (f.cursor t)).rotate i).head?) ∧
      b.ring (f'.cursor t) = (b.ring (f.cursor t)).rotate m := by
  induction m with
  | zero =>
    exact ⟨[], f, rfl, .refl f t, rfl, fun i hi => absurd hi (Nat.not_lt_zero i), (List.rotate_zero _).symm⟩
  | succ m ih =>
    obtain ⟨slots, f₁, hrounds, hturned, hlen, hslots, hring⟩ := ih
    obtain ⟨slot, f₂, hround, hturn, hhead, hnext⟩ := round_ok (hturned.balancers ▸ hb) hidle (t := t)
    refine ⟨slots ++ [slot], f₂, ?_, hturned.trans hturn, ?_, fun i hi => ?_, ?_⟩
    · simp only [rounds, hrounds, hround, Option.bind_eq_bind, Option.bind_some, Option.pure_def]
    · rw [List.length_append, hlen, List.length_singleton]
    · rcases Nat.lt_succ_iff_lt_or_eq.1 hi with hlt | rfl
      · rw [List.getElem?_append_left (hlen ▸ hlt), hslots i hlt]
      · rw [List.getElem?_append_right hlen.le, hlen, Nat.sub_self, List.getElem?_cons_zero, ← hring, hhead]
    · rw [hnext, hring, List.rotate_rotate]

/-- A thread, wherever its cursor stands, takes a slot of a balancer and gives it back, as often as one
likes, while other slots of it, `held`, have use counts above zero; there must be a slot that is not held.
It gets the slots that are not held in their circular order, beginning with the first one from the cursor
on, or from slot 0 if the cursor is beyond the last slot. As many rounds on end as there are such slots take
each of them once and no other. Every round leaves all use counts, and the other balancers, as they were,
without a complaint, and moves the cursor of no other thread. -/
theorem rounds_circle (f : Fleet) (k : Nat) (t : Thread) (b : Balancer)
    (hb : f.balancers[k]? = some b) (held : Finset Nat)
    (hheld : ∀ s, s ∈ held ↔ s < b.size ∧ b.load s ≠ 0) (hsome : (#held) < b.size) (m : Nat) :
    let start := if f.cursor t < b.size then f.cursor t else 0
    let ring := (List.range' start (b.size - start) ++ List.range start).filter (· ∉ held)
    let n := b.size - (#held)
    ring.length = n ∧ 0 < n ∧
    ∃ slots f', f.rounds k t m = some (slots, f') ∧ slots.length = m ∧
      (∀ i < m, slots[i]? = ring[i % n]?) ∧
      (∀ i, i + n ≤ m → ((slots.drop i).take n).Nodup ∧
        ∀ s, s ∈ (slots.drop i).take n ↔ s < b.size ∧ s ∉ held) ∧
      (∀ k', f'.loads k' = f.loads k') ∧ f'.complaints = f.complaints ∧
      ∀ t', t' ≠ t → f'.cursor t' = f.cursor t' := by
  intro start ring n
  have hring : ring = b.ring (f.cursor t) := by
    refine List.filter_congr fun s hs => ?_
    have hlt : s < b.size := Balancer.mem_order.1 hs
    rw [decide_eq_decide, hheld, not_and_not_right]
    exact ⟨fun h => h hlt, fun h _ => h⟩
  have hmem (s : Nat) : s ∈ ring ↔ s < b.size ∧ s ∉ held := by
    rw [hring, Balancer.mem_ring, Balancer.mem_idle, hheld, not_and_not_right]
    exact ⟨fun h => ⟨h.1, fun _ => h.2⟩, fun h => ⟨h.1, h.2 h.1⟩⟩
  have hlen : ring.length = n := by
    have hsub : held ⊆ range b.size := fun s hs => mem_range.2 ((hheld s).1 hs).1
    have hidle : b.idle = range b.size \ held := by
      ext s
      rw [← @Balancer.mem_ring b (f.cursor t) s, ← hring, hmem, mem_sdiff, mem_range]
    rw [hring, b.length_ring, hidle, card_sdiff_of_subset hsub, card_range]
  have hn : 0 < n := Nat.sub_pos_of_lt hsome
  have hidle : b.idle.Nonempty := by
    rw [← card_pos, ← b.length_ring (f.cursor t), ← hring, hlen]
    exact hn
  obtain ⟨slots, f', hrounds, hturned, hslots, hget, -⟩ := rounds_ok hb hidle m (t := t)
  have hcircle (i : Nat) (hi : i < m) : slots[i]? = ring[i % n]? := by
    have hlt : i % n < ring.length := hlen.symm ▸ Nat.mod_lt i hn
    rw [hget i hi, ← hring, ← List.rotate_mod, hlen, List.head?_rotate hlt]
  -- So many slots on end are the ring, turned.
  have hwindow (i : Nat) (hi : i + n ≤ m) : (slots.drop i).take n = ring.rotate i := by
    refine List.ext_getElem? fun j => ?_
    by_cases hj : j < n
    · rw [List.getElem?_take_of_lt hj, List.getElem?_drop, hcircle _ (by omega),
        List.getElem?_rotate (hlen ▸ hj), hlen, Nat.add_comm]
    · rw [List.getElem?_take_eq_none (by omega), List.getElem?_eq_none]
      rw [List.length_rotate, hlen]
      omega
  refine ⟨hlen, hn, slots, f', hrounds, hslots, hcircle, fun i hi => ?_, fun k' => ?_,
    hturned.complaints, hturned.others⟩
  · rw [hwindow i hi]
    refine ⟨?_, fun s => List.mem_rotate.trans (hmem s)⟩
    rw [List.nodup_rotate, hring]
    exact b.nodup_ring _
  · rw [loads, loads, hturned.balancers]

end Fleet

/-- Two of five slots are held, one of them as often as can be. The thread comes from a larger balancer. -/
def Fleet.halfHeld : Fleet where
  balancers := [⟨[0, 2, 0, 0xFFFFFFFFFFFFFFFF, 0], by decide⟩, ⟨[0, 0, 0, 0, 0, 0, 0, 1], by decide⟩]
  cursors := (Table.empty.insert none 4).insert (some "worker") 7

/-- Seven rounds of the one thread begin at slot 0, those of the other one at slot 4. -/
theorem Fleet.rounds_circle_halfHeld :
    #({1, 3} : Finset Nat) < 5 ∧
    (∃ f', Fleet.halfHeld.rounds 0 (some "worker") 7 = some ([0, 2, 4, 0, 2, 4, 0], f') ∧
      f'.loads 0 = Fleet.halfHeld.loads 0) ∧
    ∃ f', Fleet.halfHeld.rounds 0 none 7 = some ([4, 0, 2, 4, 0, 2, 4], f') ∧
      f'.loads 0 = Fleet.halfHeld.loads 0 := by
  have hheld (s : Nat) : s ∈ ({1, 3} : Finset Nat) ↔
      s < 5 ∧ (⟨[0, 2, 0, 0xFFFFFFFFFFFFFFFF, 0], by decide⟩ : Balancer).load s ≠ 0 := by
    by_cases hs : s < 5
    · have hall : ∀ s < 5, s ∈ ({1, 3} : Finset Nat) ↔
          s < 5 ∧ (⟨[0, 2, 0, 0xFFFFFFFFFFFFFFFF, 0], by decide⟩ : Balancer).load s ≠ 0 := by decide
      exact hall s hs
    · rw [mem_insert, mem_singleton]
      omega
  have hcircle {slots ring seven : List Nat} (hlen : slots.length = 7) (hseven : seven.length = 7)
      (hslots : ∀ i < 7, slots[i]? = ring[i % 3]?) (hring : ∀ i < 7, ring[i % 3]? = seven[i]?) :
      slots = seven := by
    refine List.ext_getElem?' fun i hi => ?_
    rw [hlen, hseven, max_self] at hi
    exact (hslots i hi).trans (hring i hi)
  refine ⟨by decide, ?_, ?_⟩
  · obtain ⟨-, -, slots, f', hrounds, hlen, hslots, -, hloads, -⟩ :=
      Fleet.rounds_circle Fleet.halfHeld 0 (some "worker") _ rfl {1, 3} hheld (by decide) 7
    obtain rfl : slots = [0, 2, 4, 0, 2, 4, 0] := hcircle hlen rfl hslots (by decide)
    exact ⟨f', hrounds, hloads 0⟩
  · obtain ⟨-, -, slots, f', hrounds, hlen, hslots, -, hloads, -⟩ :=
      Fleet.rounds_circle Fleet.halfHeld 0 none _ rfl {1, 3} hheld (by decide) 7
    obtain rfl : slots = [4, 0, 2, 4, 0, 2, 4] := hcircle hlen rfl hslots (by decide)
    exact ⟨f', hrounds, hloads 0⟩

end InstancePool
