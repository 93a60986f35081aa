import InstancePool.Proofs.Manager.SlotCounts

/-!
Balancers in use. Any threads take and give back slots of any balancers, which all share the cursors of
the threads; the use counts of a balancer are at every time the acquisitions of its slots that were not
given back.
-/

namespace InstancePool

-- An empty sum is the literal, whatever other zeros are in scope.
attribute [local instance (100000)] Zero.ofOfNat0

namespace Fleet

/-- What is done to the balancers of a fleet. Who gives a slot back does not matter. -/
inductive Move where
  | add (size : Nat)
  | acquire (balancer : Nat) (thread : Thread)
  | free (balancer slot : Nat)
  deriving Repr, DecidableEq

/-- The balancer that a move takes a slot of or gives one back to. -/
def Move.target? : Move → Option Nat
  | add _ => none
  | acquire k _ | free k _ => some k

end Fleet

/-- A fleet, and the acquisitions that were not given back: the balancer and the slot of each. -/
structure Ledger where
  fleet : Fleet := {}
  held : List (Nat × Nat) := []
  deriving Repr

namespace Ledger

/-- How many acquisitions from a balancer were not given back. -/
def outstanding (l : Ledger) (k : Nat) : Nat := l.held.countP fun e => e.1 = k

def step (l : Ledger) : Fleet.Move → Ledger
  | .add size =>
    match l.fleet.add size with
    | .ok (_, fleet) => { l with fleet }
    | .error _ => l
  | .acquire k t =>
    match l.fleet.acquire k t with
    | some (slot, fleet) => ⟨fleet, (k, slot) :: l.held⟩
    | none => l
  | .free k slot =>
    match l.fleet.free k slot with
    | some (_, fleet) => ⟨fleet, l.held.erase (k, slot)⟩
    | none => l

/-- Whether a move can be made: only what was acquired is given back, and fewer than `2 ^ 64`
acquisitions from one balancer are outstanding. -/
def Allows (l : Ledger) : Fleet.Move → Prop
  | .add _ => True
  | .acquire k _ => l.outstanding k + 1 < 2 ^ 64
  | .free k slot => (k, slot) ∈ l.held

instance (l : Ledger) : DecidablePred l.Allows
  | .add _ => inferInstanceAs (Decidable True)
  | .acquire k _ => inferInstanceAs (Decidable (l.outstanding k + 1 < 2 ^ 64))
  | .free k slot => inferInstanceAs (Decidable ((k, slot) ∈ l.held))

/-- The ledger after some moves. -/
def after (l : Ledger) (moves : List Fleet.Move) : Ledger := moves.foldl step l

/-- Each move can be made when its turn comes. -/
def AllowsAll (l : Ledger) : List Fleet.Move → Prop
  | [] => True
  | a :: moves => l.Allows a ∧ (l.step a).AllowsAll moves

instance decidableAllowsAll (l : Ledger) (moves : List Fleet.Move) :
    Decidable (l.AllowsAll moves) :=
  match moves with
  | [] => isTrue trivial
  | a :: moves => @instDecidableAnd _ _ _ (decidableAllowsAll (l.step a) moves)

/-- The use counts are the acquisitions that were not given back. -/
structure Exact (l : Ledger) : Prop where
  count : ∀ k b, l.fleet.balancers[k]? = some b →
    ∀ slot < b.size, (b.load slot).toNat = l.held.count (k, slot)
  placed : ∀ e ∈ l.held, ∃ b, l.fleet.balancers[e.1]? = some b ∧ e.2 < b.size
  calm : l.fleet.complaints = []

variable {l : Ledger}

theorem count_le_outstanding (l : Ledger) (k slot : Nat) :
    l.held.count (k, slot) ≤ l.outstanding k := by
  apply List.countP_mono_left
  intro e _ he
  have hkey : e = (k, slot) := beq_iff_eq.1 he
  simp [hkey]

/-- The slots of a balancer share out its acquisitions among them. -/
theorem sum_count_lt (held : List (Nat × Nat)) (k n : Nat) :
    ((List.range n).map fun slot => held.count (k, slot)).sum =
      held.countP fun e => e.1 = k ∧ e.2 < n := by
  -- The induction is on the number of slots, and each slot adds the entries that name it.
  induction n with
  | zero => simp
  | succ n ih =>
    have hsplit : held.countP (fun e => e.1 = k ∧ e.2 < n + 1) =
        held.countP (fun e => e.1 = k ∧ e.2 < n) + held.count (k, n) := by
      clear ih
      induction held with
      | nil => rfl
      | cons e held ih =>
        rcases e with ⟨k', slot⟩
        simp only [List.countP_cons, List.count_cons, ih, decide_eq_true_eq, beq_iff_eq,
          Prod.mk.injEq]
        by_cases hk : k' = k
        · by_cases hs : slot = n
          · have hnot : ¬ n < n := Nat.lt_irrefl n
            simp only [hk, hs, hnot, Nat.lt_succ_self, and_self, and_false, if_true, if_false]
            omega
          · have hlt : slot < n + 1 ↔ slot < n := by omega
            simp only [hk, hs, hlt, true_and, and_false, if_false]
            omega
        · simp only [hk, false_and, if_false]
          omega
    rw [List.range_succ, List.map_append, List.sum_append, ih, hsplit]
    simp

theorem Exact.sum_loads (hl : l.Exact) {k : Nat} {b : Balancer}
    (hb : l.fleet.balancers[k]? = some b) :
    (b.loads.map UInt64.toNat).sum = l.outstanding k := by
  have hloads : b.loads.map UInt64.toNat =
      (List.range b.size).map fun slot => l.held.count (k, slot) := by
    apply List.ext_getElem
    · simp [Balancer.size]
    · intro slot hs hs'
      have hlt : slot < b.size := by simpa using hs'
      have hload : b.load slot = b.loads[slot] := by
        rw [Balancer.load, List.getElem?_eq_getElem]
        rfl
      have hcount := hl.count k b hb slot hlt
      rw [hload] at hcount
      rw [List.getElem_map, List.getElem_map, List.getElem_range]
      exact hcount
  -- Every acquisition is of a slot that there is.
  have hall : l.held.countP (fun e => e.1 = k ∧ e.2 < b.size) = l.outstanding k := by
    apply List.countP_congr
    intro e he
    obtain ⟨b', hb', hslot⟩ := hl.placed e he
    constructor
    · intro h
      simp only [decide_eq_true_eq] at h ⊢
      exact h.1
    · intro h
      simp only [decide_eq_true_eq] at h ⊢
      subst h
      obtain rfl := Option.some.inj (hb.symm.trans hb')
      exact ⟨rfl, hslot⟩
  rw [hloads, sum_count_lt, hall]

/-- One slot is counted anew together with its acquisitions. -/
theorem Exact.recount (hl : l.Exact) {k slot : Nat} {b : Balancer} {f : UInt64 → UInt64}
    {fleet : Fleet} {held : List (Nat × Nat)} (hb : l.fleet.balancers[k]? = some b)
    (hslot : slot < b.size) (hset : fleet.balancers = l.fleet.balancers.set k (b.update slot f))
    (hcalm : fleet.complaints = l.fleet.complaints)
    (hone : (f (b.load slot)).toNat = held.count (k, slot))
    (hother : ∀ e, e ≠ (k, slot) → held.count e = l.held.count e)
    (hmem : ∀ e ∈ held, e = (k, slot) ∨ e ∈ l.held) : Exact ⟨fleet, held⟩ := by
  have hk : k < l.fleet.balancers.length := (List.getElem?_eq_some_iff.1 hb).1
  have hself : fleet.balancers[k]? = some (b.update slot f) := by
    rw [hset, List.getElem?_set_self hk]
  have hrest (j : Nat) (hj : k ≠ j) : fleet.balancers[j]? = l.fleet.balancers[j]? := by
    rw [hset, List.getElem?_set_ne hj]
  refine ⟨?_, ?_, hcalm.trans hl.calm⟩
  · intro j b' hb' s hs
    change fleet.balancers[j]? = some b' at hb'
    -- The slot may be the one, another one of its balancer, or one of another balancer.
    by_cases hj : k = j
    · subst hj
      obtain rfl := Option.some.inj (hself.symm.trans hb')
      rw [Balancer.size_update] at hs
      rw [b.load_update hslot]
      by_cases he : s = slot
      · rw [if_pos he, he, hone]
      · have hne : (k, s) ≠ (k, slot) := fun h => he (Prod.mk.inj h).2
        rw [if_neg he, hl.count k b hb s hs, hother _ hne]
    · have hne : (j, s) ≠ (k, slot) := fun h => hj (Prod.mk.inj h).1.symm
      rw [hrest j hj] at hb'
      rw [hl.count j b' hb' s hs, hother _ hne]
  · intro e he
    change ∃ b', fleet.balancers[e.1]? = some b' ∧ e.2 < b'.size
    have hold : e.1 = k ∧ e.2 < b.size ∨
        k ≠ e.1 ∧ ∃ b', l.fleet.balancers[e.1]? = some b' ∧ e.2 < b'.size := by
      rcases hmem e he with rfl | hmem
      · exact .inl ⟨rfl, hslot⟩
      · obtain ⟨b', hb', hs⟩ := hl.placed e hmem
        by_cases hj : k = e.1
        · rw [← hj, hb] at hb'
          cases hb'
          exact .inl ⟨hj.symm, hs⟩
        · exact .inr ⟨hj, b', hb', hs⟩
    rcases hold with ⟨hj, hs⟩ | ⟨hj, b', hb', hs⟩
    · exact ⟨b.update slot f, by rw [hj, hself], by rwa [Balancer.size_update]⟩
    · exact ⟨b', by rw [hrest _ hj, hb'], hs⟩

theorem Exact.acquire (hl : l.Exact) {k : Nat} {t : Thread} (ha : l.Allows (.acquire k t)) :
    (l.step (.acquire k t)).Exact := by
  cases hacq : l.fleet.acquire k t with
  | none =>
    simp only [step, hacq]
    exact hl
  | some x =>
    obtain ⟨slot, fleet⟩ := x
    simp only [step, hacq]
    obtain ⟨b, hb, hslot, hset, hcalm⟩ := Fleet.acquire_ok hacq
    have hcount : (b.load slot).toNat = l.held.count (k, slot) := hl.count k b hb slot hslot
    have hle : l.held.count (k, slot) ≤ l.outstanding k := l.count_le_outstanding k slot
    have hroom : l.outstanding k + 1 < 2 ^ 64 := ha
    refine hl.recount hb hslot hset hcalm ?_ ?_ ?_
    · rw [Host.toNat_add_one (by omega), hcount, List.count_cons_self]
    · intro e he
      exact List.count_cons_of_ne he.symm
    · intro e he
      exact List.mem_cons.1 he

/-- A slot that was acquired and not given back is in use. -/
theorem Exact.load_pos (hl : l.Exact) {k slot : Nat} (hheld : (k, slot) ∈ l.held) :
    ∃ b, l.fleet.balancers[k]? = some b ∧ slot < b.size ∧ 0 < (b.load slot).toNat := by
  obtain ⟨b, hb, hslot⟩ := hl.placed _ hheld
  refine ⟨b, hb, hslot, ?_⟩
  rw [hl.count k b hb slot hslot]
  exact List.count_pos_iff.2 hheld

/-- To give back what was acquired raises no complaint. -/
theorem Exact.free_ok (hl : l.Exact) {k slot : Nat} (hheld : (k, slot) ∈ l.held) :
    ∃ b, l.fleet.balancers[k]? = some b ∧ slot < b.size ∧ 0 < (b.load slot).toNat ∧
      l.fleet.free k slot = some (.ok (), { l.fleet with
        balancers := l.fleet.balancers.set k (b.update slot (· - 1)) }) := by
  obtain ⟨b, hb, hslot, hpos⟩ := hl.load_pos hheld
  have hload : b.load slot ≠ 0 := by
    intro hzero
    rw [hzero] at hpos
    exact absurd hpos (Nat.lt_irrefl 0)
  exact ⟨b, hb, hslot, hpos, Fleet.free_ok hb hslot hload⟩

theorem Exact.free (hl : l.Exact) {k slot : Nat} (ha : l.Allows (.free k slot)) :
    (l.step (.free k slot)).Exact := by
  have hheld : (k, slot) ∈ l.held := ha
  obtain ⟨b, hb, hslot, hpos, hfree⟩ := hl.free_ok hheld
  have hcount : (b.load slot).toNat = l.held.count (k, slot) := hl.count k b hb slot hslot
  simp only [step, hfree]
  refine hl.recount hb hslot rfl rfl ?_ ?_ ?_
  · rw [Host.toNat_sub_one hpos, hcount, List.count_erase_self]
  · intro e he
    exact List.count_erase_of_ne he
  · intro e he
    exact .inr (List.mem_of_mem_erase he)

/-- The balancers that there are stay when one is added, which comes last and is idle. -/
theorem add_cases (l : Ledger) (size : Nat) :
    l.step (.add size) = l ∨ ∃ b, (∀ slot < b.size, b.load slot = 0) ∧ b.size = size ∧
      l.step (.add size) =
        { l with fleet := { l.fleet with balancers := l.fleet.balancers ++ [b] } } := by
  cases hc : Balancer.create size with
  | error e => exact .inl (by simp only [step, Fleet.add, hc, Except.map])
  | ok b =>
    obtain ⟨hsize, hidle⟩ := Balancer.create_ok hc
    refine .inr ⟨b, ?_, hsize, by simp only [step, Fleet.add, hc, Except.map]⟩
    intro slot hs
    exact hidle slot (hsize ▸ hs)

theorem Exact.add (hl : l.Exact) (size : Nat) : (l.step (.add size)).Exact := by
  rcases l.add_cases size with he | ⟨b, hidle, -, he⟩
  · rw [he]
    exact hl
  · rw [he]
    have hnew (e : Nat × Nat) (hmem : e ∈ l.held) : e.1 < l.fleet.balancers.length := by
      obtain ⟨b', hb', -⟩ := hl.placed e hmem
      exact (List.getElem?_eq_some_iff.1 hb').1
    refine ⟨?_, ?_, hl.calm⟩
    · intro k b' hb' slot hs
      change (l.fleet.balancers ++ [b])[k]? = some b' at hb'
      rcases getElem?_append_cases hb' with hb' | ⟨hk, hb'⟩
      · exact hl.count k b' hb' slot hs
      · obtain rfl := List.mem_singleton.1 hb'
        -- No acquisition can be of a balancer that was not there.
        have hnone : (k, slot) ∉ l.held := fun hmem => Nat.not_lt.2 hk (hnew _ hmem)
        rw [hidle slot hs, List.count_eq_zero.2 hnone]
        rfl
    · intro e hmem
      obtain ⟨b', hb', hs⟩ := hl.placed e hmem
      exact ⟨b', (List.getElem?_append_left (hnew e hmem)).trans hb', hs⟩

theorem Exact.step (hl : l.Exact) {a : Fleet.Move} (ha : l.Allows a) : (l.step a).Exact := by
  cases a with
  | add size => exact hl.add size
  | acquire k t => exact hl.acquire ha
  | free k slot => exact hl.free ha

theorem exact_empty : Exact {} where
  count k b hb := by cases hb
  placed e he := by cases he
  calm := rfl

theorem Exact.after (hl : l.Exact) {moves : List Fleet.Move} (ha : l.AllowsAll moves) :
    (l.after moves).Exact := by
  induction moves generalizing l with
  | nil => exact hl
  | cons a moves ih => exact ih (hl.step ha.1) ha.2

/-- A move concerns its own balancer alone, and no balancer ever changes its size. -/
theorem step_balancer (l : Ledger) (a : Fleet.Move) {k : Nat} {b : Balancer}
    (hb : l.fleet.balancers[k]? = some b) :
    ∃ b', (l.step a).fleet.balancers[k]? = some b' ∧ b'.size = b.size ∧
      (a.target? ≠ some k → b' = b) := by
  have hk : k < l.fleet.balancers.length := (List.getElem?_eq_some_iff.1 hb).1
  -- Whatever a move does, it does to the counts of one balancer.
  have hset (j slot : Nat) (c : Balancer) (f : UInt64 → UInt64) (hc : l.fleet.balancers[j]? = some c) :
      ∃ b', (l.fleet.balancers.set j (c.update slot f))[k]? = some b' ∧ b'.size = b.size ∧
        (some j ≠ some k → b' = b) := by
    by_cases hj : j = k
    · subst hj
      obtain rfl := Option.some.inj (hb.symm.trans hc)
      exact ⟨_, List.getElem?_set_self hk, Balancer.size_update .., fun h => absurd rfl h⟩
    · exact ⟨b, by rw [List.getElem?_set_ne hj, hb], rfl, fun _ => rfl⟩
  have hsame : ∃ b', l.fleet.balancers[k]? = some b' ∧ b'.size = b.size ∧
      (a.target? ≠ some k → b' = b) := ⟨b, hb, rfl, fun _ => rfl⟩
  cases a with
  | add size =>
    rcases l.add_cases size with he | ⟨c, -, -, he⟩
    · rw [he]
      exact hsame
    · rw [he]
      exact ⟨b, (List.getElem?_append_left hk).trans hb, rfl, fun _ => rfl⟩
  | acquire j t =>
    cases hacq : l.fleet.acquire j t with
    | none =>
      simp only [step, hacq]
      exact hsame
    | some x =>
      obtain ⟨slot, fleet⟩ := x
      obtain ⟨c, hc, -, hbal, -⟩ := Fleet.acquire_ok hacq
      simp only [step, hacq, hbal]
      exact hset j slot c _ hc
  | free j slot =>
    cases hc : l.fleet.balancers[j]? with
    | none =>
      simp only [step, Fleet.free, hc, Option.map_none]
      exact hsame
    | some c =>
      simp only [step, Fleet.free, hc, Option.map_some, Balancer.free]
      by_cases hslot : slot < c.size
      · by_cases hload : c.load slot = 0
        · simp only [if_pos hslot, if_pos hload]
          exact hset j slot c _ hc
        · simp only [if_pos hslot, if_neg hload]
          exact hset j slot c _ hc
      · simp only [if_neg hslot]
        have hself : c.update slot id = c := by
          simp only [Balancer.update, List.modify_id]
        have hback := hset j slot c id hc
        rwa [hself] at hback

/-- A slot can be taken of every balancer, by every thread wherever its cursor stands. -/
theorem acquire_some (f : Fleet) {k : Nat} {b : Balancer} (hb : f.balancers[k]? = some b)
    (t : Thread) : ∃ slot fleet, f.acquire k t = some (slot, fleet) ∧ slot < b.size := by
  cases hacq : f.acquire k t with
  | none =>
    rw [Fleet.acquire, hb] at hacq
    cases hacq
  | some x =>
    obtain ⟨b', hb', hslot, -, -⟩ := Fleet.acquire_ok hacq
    obtain rfl := Option.some.inj (hb.symm.trans hb')
    exact ⟨x.1, x.2, rfl, hslot⟩

/-- After every run of moves, by any threads and over any balancers: each thread gets a slot that
there is; each slot is counted as often as it was acquired and not given back, so that the counts of a
balancer sum up to what is outstanding; what was acquired can be given back without a complaint, and
there never was one; and whatever is done next leaves the size of every balancer as it is and the
counts of all balancers but its own. -/
theorem loads_eq_outstanding (moves : List Fleet.Move) (ha : AllowsAll {} moves) :
    let l := after {} moves
    (∀ k b, l.fleet.balancers[k]? = some b →
      (∀ t, ∃ slot fleet, l.fleet.acquire k t = some (slot, fleet) ∧ slot < b.size) ∧
      (∀ slot < b.size, (b.load slot).toNat = l.held.count (k, slot)) ∧
      (b.loads.map UInt64.toNat).sum = l.outstanding k) ∧
    (∀ k slot, (k, slot) ∈ l.held →
      ∃ b fleet, l.fleet.balancers[k]? = some b ∧ 0 < (b.load slot).toNat ∧
        l.fleet.free k slot = some (.ok (), fleet)) ∧
    l.fleet.complaints = [] ∧
    (∀ a k b, l.fleet.balancers[k]? = some b →
      ∃ b', (l.step a).fleet.balancers[k]? = some b' ∧ b'.size = b.size ∧
        (a.target? ≠ some k → b'.loads = b.loads)) := by
  intro l
  have hl : l.Exact := exact_empty.after ha
  refine ⟨?_, ?_, hl.calm, ?_⟩
  · intro k b hb
    exact ⟨acquire_some l.fleet hb, hl.count k b hb, hl.sum_loads hb⟩
  · intro k slot hheld
    obtain ⟨b, hb, -, hpos, hfree⟩ := hl.free_ok hheld
    exact ⟨b, _, hb, hpos, hfree⟩
  · intro a k b hb
    obtain ⟨b', hb', hsize, hsame⟩ := l.step_balancer a hb
    exact ⟨b', hb', hsize, fun h => congrArg Balancer.loads (hsame h)⟩

end Ledger

/-- Two threads on a large balancer and a small one. The cursor of the first thread is beyond the small
one when it turns to it, both slots of which become busy, and the second thread gives back what the
first one took. -/
def Fleet.Move.crowdedRun : List Fleet.Move :=
  [.add 5, .add 2, .acquire 0 none, .acquire 0 none, .acquire 0 none, .acquire 0 none,
    .acquire 1 none, .acquire 1 (some "worker"), .acquire 1 (some "worker"), .acquire 1 none,
    .free 0 2, .acquire 0 (some "worker"), .free 1 0, .free 1 0]

theorem Ledger.loads_eq_outstanding_crowded :
    Ledger.AllowsAll {} Fleet.Move.crowdedRun ∧
      (Ledger.after {} Fleet.Move.crowdedRun).fleet.balancers.map Balancer.loads =
        [[1, 1, 1, 1, 0], [0, 2]] ∧
      (Ledger.after {} Fleet.Move.crowdedRun).outstanding 1 = 2 ∧
      (Ledger.after {} Fleet.Move.crowdedRun).fleet.complaints = [] :=
  have hp : Ledger.AllowsAll {} Fleet.Move.crowdedRun := by decide +kernel
  ⟨hp, by decide +kernel, by decide +kernel,
    (Ledger.loads_eq_outstanding Fleet.Move.crowdedRun hp).2.2.1⟩

end InstancePool
