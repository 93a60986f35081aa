import InstancePool.Proofs.Balancer.UseCounts
import Mathlib.Algebra.Order.BigOperators.Group.Finset
import Mathlib.Data.Multiset.Count
import Mathlib.Tactic.Linarith

/-!
Balancers level their slots. Wherever the cursors of the threads stand, a slot that is taken is one of
the least used, so the use counts of a balancer never drift apart while slots are only taken, and the
idle slots are taken first.
-/

namespace InstancePool

open Finset

namespace Balancer

variable {b : Balancer}

/-- Past a slot stands the next one, and past the last one the first. -/
theorem start_succ {slot : Nat} (hs : slot < b.size) : b.start (slot + 1) = (slot + 1) % b.size := by
  unfold start
  split
  · rename_i hlt
    exact (Nat.mod_eq_of_lt hlt).symm
  · have hlast : slot + 1 = b.size := by omega
    rw [hlast, Nat.mod_self]

/-- A scan ends at a slot that is used no more than the best one it started out with and than any that
it came past. -/
theorem load_scan_le (steps cursor least : Nat) (uses : UInt64) (hleast : b.load least ≤ uses) :
    let found := b.load (b.scan steps cursor least uses).slot
    found ≤ uses ∧ ∀ i < steps, found ≤ b.load ((b.start cursor + i) % b.size) := by
  induction steps generalizing cursor least uses with
  | zero => exact ⟨hleast, fun i hi => absurd hi (Nat.not_lt_zero i)⟩
  | succ steps ih =>
    have hstart := b.start_lt cursor
    -- The scan goes on behind the slot at the cursor, which is the first that it came past.
    have hpast {x : UInt64} (hfirst : x ≤ b.load (b.start cursor))
        (hrest : ∀ i < steps, x ≤ b.load ((b.start (b.start cursor + 1) + i) % b.size)) :
        ∀ i < steps + 1, x ≤ b.load ((b.start cursor + i) % b.size) := by
      intro i hi
      cases i with
      | zero => rwa [Nat.add_zero, Nat.mod_eq_of_lt hstart]
      | succ i =>
        have hi' := hrest i (by omega)
        rw [start_succ hstart, Nat.mod_add_mod] at hi'
        rwa [Nat.add_comm i 1, ← Nat.add_assoc]
    unfold scan
    simp only []
    split
    · rename_i hidle
      rw [hidle]
      exact ⟨UInt64.zero_le, fun i _ => UInt64.zero_le⟩
    · split
      · rename_i hless
        obtain ⟨hbest, hrest⟩ := ih (b.start cursor + 1) (b.start cursor) _ (UInt64.le_refl _)
        exact ⟨UInt64.le_trans hbest (UInt64.le_of_lt hless), hpast hbest hrest⟩
      · rename_i hmore
        obtain ⟨hbest, hrest⟩ := ih (b.start cursor + 1) least uses hleast
        exact ⟨hbest, hpast (UInt64.le_trans hbest (UInt64.not_lt.1 hmore)) hrest⟩

/-- The slot that is taken is one of the least used, wherever the cursor stands. -/
theorem load_choose_le (b : Balancer) (cursor : Nat) {slot : Nat} (hs : slot < b.size) :
    (b.load (b.choose cursor).slot).toNat ≤ (b.load slot).toNat := by
  have hfull (uses : UInt64) : uses ≤ 0xFFFFFFFFFFFFFFFF := by
    rw [UInt64.le_iff_toNat_le]
    exact Nat.le_of_lt_succ uses.toNat_lt
  have hstart := b.start_lt cursor
  obtain ⟨-, hall⟩ := b.load_scan_le b.size cursor 0 0xFFFFFFFFFFFFFFFF (hfull _)
  -- A whole round comes past the slot.
  have hround : (b.start cursor + (slot + (b.size - b.start cursor)) % b.size) % b.size = slot := by
    have hsum : b.start cursor + (slot + (b.size - b.start cursor)) = slot + b.size := by omega
    rw [Nat.add_mod_mod, hsum, Nat.add_mod_right, Nat.mod_eq_of_lt hs]
  have hle := hall _ (Nat.mod_lt (slot + (b.size - b.start cursor)) b.size_pos)
  rw [hround] at hle
  exact UInt64.le_iff_toNat_le.1 hle

/-- Some slot can still be counted up. -/
def Slack (b : Balancer) : Prop := ∃ uses ∈ b.loads, uses.toNat + 1 < 2 ^ 64

instance (b : Balancer) : Decidable b.Slack :=
  inferInstanceAs (Decidable (∃ uses ∈ b.loads, uses.toNat + 1 < 2 ^ 64))

theorem mem_loads {uses : UInt64} : uses ∈ b.loads ↔ ∃ slot < b.size, b.load slot = uses := by
  rw [List.mem_iff_getElem]
  constructor
  · rintro ⟨slot, hs, rfl⟩
    refine ⟨slot, hs, ?_⟩
    rw [load, List.getElem?_eq_getElem hs]
    rfl
  · rintro ⟨slot, hs, rfl⟩
    refine ⟨slot, hs, ?_⟩
    rw [load, List.getElem?_eq_getElem hs]
    rfl

/-- What taking a slot does to the counts. -/
theorem load_acquire (hb : b.Slack) (cursor slot : Nat) :
    ((b.acquire cursor).2.load slot).toNat =
      (b.load slot).toNat + if slot = (b.choose cursor).slot then 1 else 0 := by
  rw [acquire, b.load_update (b.choose_slot_lt cursor)]
  split
  · rename_i hslot
    obtain ⟨_, hmem, hroom⟩ := hb
    obtain ⟨s, hs, rfl⟩ := mem_loads.1 hmem
    have hle := b.load_choose_le cursor hs
    rw [Host.toNat_add_one (by omega), hslot]
  · rfl

theorem counts_ne_nil (b : Balancer) : b.loads.map UInt64.toNat ≠ [] := fun h =>
  b.nonempty (List.map_eq_nil_iff.1 h)

/-- How far the most used slot is ahead of the least used one. -/
def spread (b : Balancer) : Nat :=
  (b.loads.map UInt64.toNat).max b.counts_ne_nil - (b.loads.map UInt64.toNat).min b.counts_ne_nil

theorem spread_le_iff {d : Nat} : b.spread ≤ d ↔
    ∀ s < b.size, ∀ s' < b.size, (b.load s).toNat ≤ (b.load s').toNat + d := by
  have hmem (s : Nat) (hs : s < b.size) : (b.load s).toNat ∈ b.loads.map UInt64.toNat :=
    List.mem_map_of_mem (mem_loads.2 ⟨s, hs, rfl⟩)
  constructor
  · intro h s hs s' hs'
    have hmax := List.le_max_of_mem (hmem s hs)
    have hmin := List.min_le_of_mem (hmem s' hs')
    unfold spread at h
    omega
  · intro h
    obtain ⟨x, hx, hmost⟩ := List.mem_map.1 (List.max_mem b.counts_ne_nil)
    obtain ⟨y, hy, hleast⟩ := List.mem_map.1 (List.min_mem b.counts_ne_nil)
    obtain ⟨s, hs, rfl⟩ := mem_loads.1 hx
    obtain ⟨s', hs', rfl⟩ := mem_loads.1 hy
    have hle := h s hs s' hs'
    unfold spread
    omega

/-- The counts do not drift apart: only the least used slot is counted up. -/
theorem spread_acquire (hb : b.Slack) (cursor : Nat) :
    (b.acquire cursor).2.spread ≤ max 1 b.spread := by
  rw [spread_le_iff]
  intro s hs s' hs'
  have hsize : (b.acquire cursor).2.size = b.size := size_update ..
  rw [hsize] at hs hs'
  have hapart : (b.load s).toNat ≤ (b.load s').toNat + b.spread :=
    spread_le_iff.1 (Nat.le_refl _) s hs s' hs'
  have hleast := b.load_choose_le cursor hs'
  rw [load_acquire hb, load_acquire hb]
  -- The slot that is counted up was used no more than any other, so it is at most one ahead.
  by_cases he : s = (b.choose cursor).slot
  · rw [if_pos he, he]
    omega
  · rw [if_neg he]
    omega

/-- The slots that nobody holds. -/
def idle (b : Balancer) : Finset Nat := {slot ∈ range b.size | b.load slot = 0}

theorem mem_idle {slot : Nat} : slot ∈ b.idle ↔ slot < b.size ∧ b.load slot = 0 := by
  rw [idle, mem_filter, mem_range]

/-- As long as a slot is idle an idle one is taken. -/
theorem choose_mem_idle (hb : b.idle.Nonempty) (cursor : Nat) : (b.choose cursor).slot ∈ b.idle := by
  obtain ⟨slot, hmem⟩ := hb
  obtain ⟨hs, hidle⟩ := mem_idle.1 hmem
  have hle := b.load_choose_le cursor hs
  rw [hidle] at hle
  refine mem_idle.2 ⟨b.choose_slot_lt cursor, ?_⟩
  exact UInt64.toNat_inj.1 (Nat.le_zero.1 hle)

theorem idle_acquire (hb : b.idle.Nonempty) (cursor : Nat) :
    (b.acquire cursor).2.idle = b.idle.erase (b.choose cursor).slot := by
  have hchosen := mem_idle.1 (choose_mem_idle hb cursor)
  ext slot
  rw [mem_idle, mem_erase, mem_idle, acquire, size_update, b.load_update hchosen.1]
  split
  · rename_i he
    simp [he, hchosen.2]
  · rename_i he
    simp [he]

/-! ### One slot after the other -/

/-- The slots that threads with the given cursors take one after the other. -/
def taken : Balancer → List Nat → List Nat
  | _, [] => []
  | b, cursor :: cursors => (b.choose cursor).slot :: taken (b.acquire cursor).2 cursors

/-- The balancer when they have. -/
def acquireAll (b : Balancer) (cursors : List Nat) : Balancer :=
  cursors.foldl (fun b cursor => (b.acquire cursor).2) b

/-- Some slot can be counted up whenever one is taken. -/
def SlackAll : Balancer → List Nat → Prop
  | _, [] => True
  | b, cursor :: cursors => b.Slack ∧ SlackAll (b.acquire cursor).2 cursors

theorem size_acquireAll (b : Balancer) (cursors : List Nat) : (b.acquireAll cursors).size = b.size := by
  induction cursors generalizing b with
  | nil => rfl
  | cons cursor cursors ih => exact (ih (b.acquire cursor).2).trans (size_update ..)

theorem length_taken (b : Balancer) (cursors : List Nat) : (b.taken cursors).length = cursors.length := by
  induction cursors generalizing b with
  | nil => rfl
  | cons cursor cursors ih => exact congrArg (· + 1) (ih (b.acquire cursor).2)

theorem taken_lt (b : Balancer) (cursors : List Nat) : ∀ slot ∈ b.taken cursors, slot < b.size := by
  induction cursors generalizing b with
  | nil => exact fun slot hmem => absurd hmem List.not_mem_nil
  | cons cursor cursors ih =>
    intro slot hmem
    rcases List.mem_cons.1 hmem with rfl | hmem
    · exact b.choose_slot_lt cursor
    · exact (ih _ slot hmem).trans_eq (size_update ..)

theorem take_taken (b : Balancer) (cursors : List Nat) (n : Nat) :
    (b.taken cursors).take n = b.taken (cursors.take n) := by
  induction cursors generalizing b n with
  | nil => rw [List.take_nil, taken, List.take_nil]
  | cons cursor cursors ih =>
    cases n with
    | zero => rw [List.take_zero, List.take_zero, taken]
    | succ n => rw [taken, List.take_succ_cons, List.take_succ_cons, taken, ih]

theorem SlackAll.take {cursors : List Nat} (hb : b.SlackAll cursors) (n : Nat) :
    b.SlackAll (cursors.take n) := by
  induction cursors generalizing b n with
  | nil =>
    rw [List.take_nil]
    trivial
  | cons cursor cursors ih =>
    cases n with
    | zero => exact trivial
    | succ n => exact ⟨hb.1, ih hb.2 n⟩

theorem load_acquireAll {cursors : List Nat} (hb : b.SlackAll cursors) (slot : Nat) :
    ((b.acquireAll cursors).load slot).toNat = (b.load slot).toNat + (b.taken cursors).count slot := by
  induction cursors generalizing b with
  | nil => rfl
  | cons cursor cursors ih =>
    have hrest : ((b.acquireAll (cursor :: cursors)).load slot).toNat = _ := ih hb.2
    rw [hrest, load_acquire hb.1, taken, List.count_cons]
    simp only [beq_iff_eq, eq_comm (a := slot)]
    omega

theorem spread_acquireAll {cursors : List Nat} (hb : b.SlackAll cursors) :
    (b.acquireAll cursors).spread ≤ max 1 b.spread := by
  induction cursors generalizing b with
  | nil => exact Nat.le_max_right ..
  | cons cursor cursors ih =>
    have hstep := spread_acquire hb.1 cursor
    have hrest : (b.acquireAll (cursor :: cursors)).spread ≤ max 1 (b.acquire cursor).2.spread := ih hb.2
    omega

/-- The idle slots go first, each of them once. -/
theorem taken_idle (b : Balancer) (cursors : List Nat) :
    ((b.taken cursors).take b.idle.card).Nodup ∧
      ∀ slot ∈ (b.taken cursors).take b.idle.card, slot ∈ b.idle := by
  induction cursors generalizing b with
  | nil => simp [taken]
  | cons cursor cursors ih =>
    rcases b.idle.eq_empty_or_nonempty with hnone | hsome
    · simp [hnone]
    · -- One of the idle slots is taken, and those that come next are idle without it.
      have hchosen := choose_mem_idle hsome cursor
      obtain ⟨hnodup, hidle⟩ := ih (b.acquire cursor).2
      have hcard : b.idle.card = (b.acquire cursor).2.idle.card + 1 := by
        rw [idle_acquire hsome, card_erase_add_one hchosen]
      rw [taken, hcard, List.take_succ_cons]
      rw [idle_acquire hsome] at hidle hnodup ⊢
      refine ⟨List.nodup_cons.2 ⟨?_, hnodup⟩, ?_⟩
      · intro hmem
        exact (mem_erase.1 (hidle _ hmem)).1 rfl
      · intro slot hmem
        rcases List.mem_cons.1 hmem with rfl | hmem
        · exact hchosen
        · exact mem_of_mem_erase (hidle slot hmem)

theorem sum_count_taken (b : Balancer) (cursors : List Nat) :
    ∑ slot ∈ range b.size, (b.taken cursors).count slot = cursors.length := by
  have hall : ∀ slot ∈ (b.taken cursors : Multiset Nat), slot ∈ range b.size := by
    intro slot hmem
    exact mem_range.2 (b.taken_lt cursors slot (Multiset.mem_coe.1 hmem))
  have hsum := Multiset.sum_count_eq_card hall
  simp only [Multiset.coe_count, Multiset.coe_card] at hsum
  rw [hsum, length_taken]

/-- Slots that were used alike share what is taken of them evenly. -/
theorem count_taken {c : Nat} (hc : ∀ slot < b.size, (b.load slot).toNat = c) {cursors : List Nat}
    (hb : b.SlackAll cursors) {slot : Nat} (hs : slot < b.size) :
    (b.taken cursors).count slot = cursors.length / b.size ∨
      (b.taken cursors).count slot = (cursors.length + b.size - 1) / b.size := by
  have hsum := b.sum_count_taken cursors
  have hmem : slot ∈ range b.size := mem_range.2 hs
  have hflat : b.spread ≤ 1 := by
    rw [spread_le_iff]
    intro s hs s' hs'
    rw [hc s hs, hc s' hs']
    exact Nat.le_succ c
  -- Any two slots were taken equally often but for one time.
  have hclose {s s' : Nat} (hs : s < b.size) (hs' : s' < b.size) :
      (b.taken cursors).count s ≤ (b.taken cursors).count s' + 1 := by
    have hspread : (b.acquireAll cursors).spread ≤ 1 :=
      (spread_acquireAll hb).trans (max_le (Nat.le_refl 1) hflat)
    have hle := spread_le_iff.1 hspread s (by rwa [size_acquireAll]) s' (by rwa [size_acquireAll])
    rw [load_acquireAll hb, load_acquireAll hb, hc s hs, hc s' hs'] at hle
    omega
  -- All that is taken adds up, so one slot is above the average by less than one, and below it.
  have hupper : cursors.length < b.size * ((b.taken cursors).count slot + 1) := by
    calc cursors.length = ∑ s ∈ range b.size, (b.taken cursors).count s := hsum.symm
      _ < ∑ s ∈ range b.size, ((b.taken cursors).count slot + 1) :=
        sum_lt_sum (fun s hs' => hclose (mem_range.1 hs') hs) ⟨slot, hmem, Nat.lt_succ_self _⟩
      _ = b.size * ((b.taken cursors).count slot + 1) := by
        rw [sum_const_nat fun _ _ => rfl, card_range]
  have hlower : b.size * (b.taken cursors).count slot < cursors.length + b.size := by
    calc b.size * (b.taken cursors).count slot
        = ∑ s ∈ range b.size, (b.taken cursors).count slot := by
          rw [sum_const_nat fun _ _ => rfl, card_range]
      _ < ∑ s ∈ range b.size, ((b.taken cursors).count s + 1) :=
        sum_lt_sum (fun s hs' => hclose hs (mem_range.1 hs')) ⟨slot, hmem, Nat.lt_succ_self _⟩
      _ = cursors.length + b.size := by
        rw [sum_add_distrib, hsum, sum_const_nat fun _ _ => rfl, card_range, Nat.mul_one]
  have hfloor : cursors.length / b.size ≤ (b.taken cursors).count slot :=
    Nat.le_of_lt_succ ((Nat.div_lt_iff_lt_mul b.size_pos).2 (by rwa [Nat.mul_comm]))
  have hceil : (b.taken cursors).count slot ≤ (cursors.length + b.size - 1) / b.size := by
    rw [Nat.le_div_iff_mul_le b.size_pos, Nat.mul_comm]
    omega
  have hgap : (cursors.length + b.size - 1) / b.size ≤ cursors.length / b.size + 1 := by
    rw [← Nat.add_div_right _ b.size_pos]
    exact Nat.div_le_div_right (Nat.sub_le _ 1)
  omega

/-- The first round over slots that were used alike takes each of them. -/
theorem taken_perm_range {c : Nat} (hc : ∀ slot < b.size, (b.load slot).toNat = c) {cursors : List Nat}
    (hb : b.SlackAll cursors) (hlen : b.size ≤ cursors.length) :
    ((b.taken cursors).take b.size).Perm (List.range b.size) := by
  rw [take_taken]
  have hround : (cursors.take b.size).length = b.size := List.length_take_of_le hlen
  rw [List.perm_iff_count]
  intro slot
  rw [List.count_range]
  split
  · rename_i hs
    have hone : (b.size + b.size - 1) / b.size = 1 := by
      rw [Nat.div_eq_iff b.size_pos]
      have := b.size_pos
      omega
    have hcount := count_taken hc (hb.take b.size) hs
    rw [hround, hone, Nat.div_self b.size_pos, or_self] at hcount
    exact hcount
  · rename_i hs
    rw [List.count_eq_zero]
    exact fun hmem => hs (b.taken_lt _ slot hmem)

end Balancer

namespace Ledger

/-- The slot of a balancer that a move takes. -/
def takes (l : Ledger) (k : Nat) : Fleet.Move → Option Nat
  | .acquire j t => if j = k then (l.fleet.acquire k t).map Prod.fst else none
  | _ => none

/-- The slots of a balancer that the moves take one after the other. -/
def taken (k : Nat) : Ledger → List Fleet.Move → List Nat
  | _, [] => []
  | l, a :: moves => (l.takes k a).toList ++ taken k (l.step a) moves

/-- Some slot of a balancer can be counted up whenever one is taken. -/
def SlackAll (k : Nat) : Ledger → List Fleet.Move → Prop
  | _, [] => True
  | l, a :: moves =>
    (a.target? = some k → ∀ b ∈ l.fleet.balancers[k]?, b.Slack) ∧ SlackAll k (l.step a) moves

instance decidableSlackAll (k : Nat) (l : Ledger) (moves : List Fleet.Move) :
    Decidable (l.SlackAll k moves) :=
  match moves with
  | [] => isTrue trivial
  | a :: moves => @instDecidableAnd _ _ _ (decidableSlackAll k (l.step a) moves)

variable {l : Ledger} {k : Nat} {b : Balancer}

/-- A move that gives nothing back to a balancer either takes a slot of it or leaves it alone. -/
theorem step_taking (hb : l.fleet.balancers[k]? = some b) {a : Fleet.Move}
    (hfree : ∀ slot, a ≠ .free k slot) :
    (a.target? = some k ∧ ∃ cursor, l.takes k a = some (b.choose cursor).slot ∧
      (l.step a).fleet.balancers[k]? = some (b.acquire cursor).2) ∨
    (a.target? ≠ some k ∧ l.takes k a = none ∧ (l.step a).fleet.balancers[k]? = some b) := by
  by_cases htarget : a.target? = some k
  · left
    cases a with
    | add size => cases htarget
    | free j slot => exact absurd (Option.some.inj htarget ▸ rfl) (hfree slot)
    | acquire j t =>
      obtain rfl := Option.some.inj htarget
      have hj : j < l.fleet.balancers.length := (List.getElem?_eq_some_iff.1 hb).1
      refine ⟨rfl, l.fleet.cursor t, ?_, ?_⟩
      · simp only [takes, if_true, Fleet.acquire, hb, Option.map_some, Balancer.acquire]
      · simp only [step, Fleet.acquire, hb, Option.map_some, List.getElem?_set_self hj]
  · right
    obtain ⟨b', hb', -, hsame⟩ := l.step_balancer a hb
    rw [hsame htarget] at hb'
    refine ⟨htarget, ?_, hb'⟩
    cases a with
    | add size => rfl
    | free j slot => rfl
    | acquire j t => exact if_neg fun h => htarget (congrArg some h)

/-- What the threads do to a balancer while they only take from it, they do with some cursors, whatever
else happens to these in between. -/
theorem after_taking (hb : l.fleet.balancers[k]? = some b) {moves : List Fleet.Move}
    (hfree : ∀ slot, .free k slot ∉ moves) :
    ∃ cursors, cursors.length = moves.countP (fun a => a.target? = some k) ∧
      l.taken k moves = b.taken cursors ∧
      (l.after moves).fleet.balancers[k]? = some (b.acquireAll cursors) ∧
      (l.SlackAll k moves → b.SlackAll cursors) := by
  induction moves generalizing l b with
  | nil => exact ⟨[], rfl, rfl, hb, fun _ => trivial⟩
  | cons a moves ih =>
    have hhead (slot : Nat) : a ≠ .free k slot := fun h => hfree slot (h ▸ List.mem_cons_self)
    have htail (slot : Nat) : .free k slot ∉ moves := fun h => hfree slot (List.mem_cons_of_mem a h)
    rcases step_taking hb hhead with ⟨htarget, cursor, htakes, hstep⟩ | ⟨htarget, htakes, hstep⟩
    · obtain ⟨cursors, hlen, htaken, hafter, hslack⟩ := ih hstep htail
      refine ⟨cursor :: cursors, ?_, ?_, hafter, ?_⟩
      · rw [List.countP_cons_of_pos (by simpa using htarget), List.length_cons, hlen]
      · rw [taken, htakes, htaken]
        rfl
      · exact fun hs => ⟨hs.1 htarget b hb, hslack hs.2⟩
    · obtain ⟨cursors, hlen, htaken, hafter, hslack⟩ := ih hstep htail
      refine ⟨cursors, ?_, ?_, hafter, fun hs => hslack hs.2⟩
      · rw [List.countP_cons_of_neg (by simpa using htarget), hlen]
      · rw [taken, htakes, htaken]
        rfl

/-- While no slot of a balancer is given back, whichever threads take one, whatever they do to other
balancers in between, and wherever that leaves their cursors: every acquisition gets a slot. Slots that
were all used alike share `m` acquisitions evenly, and a first round over them takes each one once. The
slots never drift further apart than they were, or than by one. The idle slots are taken first, each
once. For the counts, some slot must be below `2 ^ 64 - 1` whenever one is taken. -/
theorem loads_level (hb : l.fleet.balancers[k]? = some b) (moves : List Fleet.Move)
    (hfree : ∀ slot, .free k slot ∉ moves) :
    let slots := l.taken k moves
    let m := moves.countP fun a => a.target? = some k
    ∃ b', (l.after moves).fleet.balancers[k]? = some b' ∧ b'.size = b.size ∧ slots.length = m ∧
      (l.SlackAll k moves →
        (∀ c, (∀ slot < b.size, (b.load slot).toNat = c) →
          (∀ slot < b.size, (b'.load slot).toNat = c + m / b.size ∨
            (b'.load slot).toNat = c + (m + b.size - 1) / b.size) ∧
          (b.size ≤ m → (slots.take b.size).Perm (List.range b.size))) ∧
        b'.spread ≤ max 1 b.spread) ∧
      (slots.take b.idle.card).Nodup ∧ ∀ slot ∈ slots.take b.idle.card, slot ∈ b.idle := by
  intro slots m
  -- For one balancer the run comes to acquisitions alone, wherever the cursors stand.
  obtain ⟨cursors, hlen, htaken, hafter, hslack⟩ := after_taking hb hfree
  have hslots : slots = b.taken cursors := htaken
  have hm : cursors.length = m := hlen
  refine ⟨b.acquireAll cursors, hafter, b.size_acquireAll cursors, ?_, ?_, ?_⟩
  · rw [hslots, b.length_taken, hm]
  · intro hs
    have hb := hslack hs
    refine ⟨?_, Balancer.spread_acquireAll hb⟩
    intro c hc
    refine ⟨?_, ?_⟩
    · intro slot hlt
      rw [Balancer.load_acquireAll hb, hc slot hlt, ← hm, Nat.add_right_inj, Nat.add_right_inj]
      exact Balancer.count_taken hc hb hlt
    · intro hround
      rw [hslots]
      exact Balancer.taken_perm_range hc hb (hm ▸ hround)
  · rw [hslots]
    exact b.taken_idle cursors

end Ledger

/-- Two balancers, and a thread whose cursor is beyond the small one. -/
def Fleet.Move.leanRun : List Fleet.Move :=
  [.add 3, .add 5, .acquire 1 none, .acquire 1 none, .acquire 1 none, .acquire 1 none]

/-- Two threads take of the small balancer, one of them of the large one too. -/
def Fleet.Move.levelRun : List Fleet.Move :=
  [.acquire 0 none, .acquire 0 (some "worker"), .acquire 1 none, .acquire 0 none,
    .acquire 0 (some "worker")]

theorem Ledger.loads_level_leaning :
    let l := Ledger.after {} Fleet.Move.leanRun
    l.fleet.cursor none = 4 ∧ l.SlackAll 0 Fleet.Move.levelRun ∧
      ∃ b', (l.after Fleet.Move.levelRun).fleet.balancers[0]? = some b' ∧ b'.spread ≤ 1 ∧
        (∀ slot < 3, (b'.load slot).toNat = 4 / 3 ∨ (b'.load slot).toNat = (4 + 3 - 1) / 3) ∧
        ((l.taken 0 Fleet.Move.levelRun).take 3).Perm (List.range 3) := by
  intro l
  have hb : l.fleet.balancers[0]? = some ⟨[0, 0, 0], by decide⟩ := by decide +kernel
  have hslack : l.SlackAll 0 Fleet.Move.levelRun := by decide +kernel
  have hfree (slot : Nat) : .free 0 slot ∉ Fleet.Move.levelRun := by simp [Fleet.Move.levelRun]
  obtain ⟨b', hafter, hsize, -, hlevel, -⟩ := loads_level hb Fleet.Move.levelRun hfree
  obtain ⟨heven, hspread⟩ := hlevel hslack
  obtain ⟨hshare, hround⟩ := heven 0 (by decide)
  refine ⟨by decide +kernel, hslack, b', hafter, hspread, ?_, hround (by decide)⟩
  intro slot hs
  have hslot := hshare slot hs
  rwa [Nat.zero_add, Nat.zero_add] at hslot

end InstancePool
