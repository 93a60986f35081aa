import Mathlib.Logic.Relation
import InstancePool.Proofs.Interp.Reach

/-!
The interpreters of a machine are apart: no object is in the reach of two of them. Whatever is done to
some of them keeps them apart, and leaves the others and all that these reach as it was.
-/

namespace InstancePool

namespace Engine

/-- What a step makes of an interpreter whose turn it is. -/
inductive Turn (e : Engine) : Engine → Prop
  | performed (source : TextSource) (key : SessionKey) (op : Op) :
    e.Turn (Engine.perform source key op e).2
  /-- Its modules are what they were, and it knows no other objects. -/
  | kept {i : Interp} (hmodules : i.modules = e.interp.modules) (hroot : ∀ modules x,
      Interp.Root { i with modules } x → Interp.Root { e.interp with modules } x) :
    e.Turn ⟨e.heap, i⟩

theorem Turn.confined {e e' : Engine} (ht : e.Turn e') : e.Confined e' := by
  cases ht with
  | performed source key op => exact confined_perform source key op e
  | @kept i hmodules hroot =>
    refine confined_of_roots rfl fun x hx => .root (hroot e.interp.modules x ?_)
    rwa [← hmodules]

end Engine

namespace Machine

/-- An interpreter of a machine reaches an object. -/
def Reaches (m : Machine) (n : Nat) (x : ObjectIndex) : Prop :=
  ∃ i, m.interps[n]? = some i ∧ (⟨m.heap, i⟩ : Engine).Reaches x

/-- No object is in the reach of two interpreters, and what is reached is there. -/
structure Apart (m : Machine) : Prop where
  apart : ∀ n n' x, m.Reaches n x → m.Reaches n' x → n = n'
  there : ∀ (n x : Nat), m.Reaches n x → x < m.heap.objects.length

/-- From a machine to a later one: the interpreters with numbers outside `S` are as they were, and so is
all that they reach. -/
structure Leaves (S : Nat → Prop) (m m' : Machine) : Prop where
  interp : ∀ k, ¬ S k → m'.interps[k]? = m.interps[k]?
  object : ∀ k x, ¬ S k → m.Reaches k x → m'.heap.objects[x]? = m.heap.objects[x]?

/-- All that is ever done to the interpreters of a machine, one step at a time. Those that take part
have numbers in `S`. -/
inductive Step (S : Nat → Prop) (m : Machine) : Machine → Prop
  | create {searchPaths : List String} {failFinalize : Bool} {observer : Option Observer}
    (hn : S m.interps.length) : Step S m (m.create searchPaths failFinalize observer).2
  | openSession {n : Nat} (hn : S n) : Step S m (m.openSession n).2
  | perform {source : TextSource} {n : Nat} {key : SessionKey} {op : Op} (hn : S n) :
    Step S m (m.perform source n key op).2
  | closeSession {n : Nat} {key : SessionKey} (hn : S n) : Step S m (m.closeSession n key)
  | setResolver {n : Nat} {r : Resolver} (hn : S n) : Step S m (m.setResolver n r)
  | finalize {n : Nat} (hn : S n) : Step S m (m.finalize n).2
  | record {entry : JournalEntry} : Step S m (m.record entry)

/-- Any number of steps. -/
abbrev Steps (S : Nat → Prop) : Machine → Machine → Prop := Relation.ReflTransGen (Step S)

variable {S T : Nat → Prop} {m m' m'' : Machine} {n k : Nat} {i : Interp}

theorem Leaves.refl (m : Machine) : m.Leaves S m := ⟨fun _ _ => rfl, fun _ _ _ _ => rfl⟩

theorem Leaves.mono (h : m.Leaves T m') (hs : ∀ k, T k → S k) : m.Leaves S m' where
  interp k hk := h.interp k fun ht => hk (hs k ht)
  object k x hk := h.object k x fun ht => hk (hs k ht)

/-- An interpreter that is left alone reaches what it reached. -/
theorem Leaves.reaches (h : m.Leaves S m') (hk : ¬ S k) (x : ObjectIndex) :
    m'.Reaches k x ↔ m.Reaches k x := by
  constructor
  · rintro ⟨i, hi, hx⟩
    rw [h.interp k hk] at hi
    refine ⟨i, hi, ?_⟩
    induction hx with
    | root hx => exact .root hx
    | member hx ho hy ih =>
      rw [h.object k _ hk ⟨i, hi, ih⟩] at ho
      exact ih.member ho hy
  · rintro ⟨i, hi, hx⟩
    refine ⟨i, (h.interp k hk).trans hi, ?_⟩
    induction hx with
    | root hx => exact .root hx
    | member hx ho hy ih =>
      rw [← h.object k _ hk ⟨i, hi, hx⟩] at ho
      exact ih.member ho hy

theorem Leaves.trans (h : m.Leaves S m') (h' : m'.Leaves S m'') : m.Leaves S m'' where
  interp k hk := (h'.interp k hk).trans (h.interp k hk)
  object k x hk hx :=
    (h'.object k x hk ((h.reaches hk x).2 hx)).trans (h.object k x hk hx)

/-- All that one interpreter comes to reach is new. -/
theorem Apart.of_grown (ha : m.Apart) (hlen : m.heap.objects.length ≤ m'.heap.objects.length)
    (hgrown : ∀ k x : Nat, m'.Reaches k x → m.Reaches k x ∨
      (k = n ∧ m.heap.objects.length ≤ x ∧ x < m'.heap.objects.length)) : m'.Apart where
  apart k k' x hx hx' := by
    -- What two interpreters reach is old for both, or new for both; only one of them reaches anything new.
    rcases hgrown k x hx with hx | ⟨rfl, hx, -⟩
    · rcases hgrown k' x hx' with hx' | ⟨-, hx', -⟩
      · exact ha.apart k k' x hx hx'
      · exact absurd (ha.there k x hx) (Nat.not_lt.2 hx')
    · rcases hgrown k' x hx' with hx' | ⟨rfl, -, -⟩
      · exact absurd (ha.there k' x hx') (Nat.not_lt.2 hx)
      · rfl
  there k x hx := by
    rcases hgrown k x hx with hx | ⟨-, -, hx⟩
    · exact Nat.lt_of_lt_of_le (ha.there k x hx) hlen
    · exact hx

/-- One interpreter does something and keeps to what it reaches. -/
theorem Apart.confined (ha : m.Apart) (hi : m.interps[n]? = some i) {e : Engine}
    (hc : Engine.Confined ⟨m.heap, i⟩ e) (hheap : m'.heap = e.heap)
    (hset : m'.interps = m.interps.set n e.interp) : m'.Apart ∧ m.Leaves (· = n) m' := by
  have hlt : n < m.interps.length := (List.getElem?_eq_some_iff.1 hi).1
  have hself : m'.interps[n]? = some e.interp := by rw [hset, List.getElem?_set_self hlt]
  have hleaves : m.Leaves (· = n) m' := by
    refine ⟨fun k hk => ?_, fun k x hk hx => ?_⟩
    · rw [hset, List.getElem?_set_ne (Ne.symm hk)]
    · rw [hheap]
      -- The object belongs to another interpreter, so this one does not reach it.
      refine hc.object x (ha.there k x hx) fun hx' => ?_
      exact hk (ha.apart k n x hx ⟨i, hi, hx'⟩)
  refine ⟨ha.of_grown (n := n) (hheap ▸ hc.length_le) fun k x hx => ?_, hleaves⟩
  by_cases hk : k = n
  · subst hk
    obtain ⟨i', hi', hx⟩ := hx
    obtain rfl := Option.some.inj (hself.symm.trans hi')
    rw [hheap] at hx ⊢
    rcases hc.reaches x hx with hx | hx
    · exact .inl ⟨i, hi, hx⟩
    · exact .inr ⟨rfl, hx⟩
  · exact .inl ((hleaves.reaches hk x).1 hx)

/-- Neither interpreters nor objects change. -/
theorem Apart.of_eq (ha : m.Apart) (hheap : m'.heap = m.heap) (hinterps : m'.interps = m.interps) :
    m'.Apart ∧ m.Leaves S m' := by
  have hreaches (k : Nat) (x : ObjectIndex) (hx : m'.Reaches k x) : m.Reaches k x := by
    obtain ⟨i, hi, hx⟩ := hx
    rw [hinterps] at hi
    rw [hheap] at hx
    exact ⟨i, hi, hx⟩
  refine ⟨⟨fun n n' x hx hx' => ha.apart n n' x (hreaches n x hx) (hreaches n' x hx'),
    fun n x hx => ?_⟩, fun k _ => by rw [hinterps], fun k x _ _ => by rw [hheap]⟩
  rw [hheap]
  exact ha.there n x (hreaches n x hx)

theorem Apart.create (ha : m.Apart) {searchPaths : List String} {failFinalize : Bool}
    {observer : Option Observer} :
    (m.create searchPaths failFinalize observer).2.Apart ∧
      m.Leaves (· = m.interps.length) (m.create searchPaths failFinalize observer).2 := by
  obtain ⟨added, hobjects, -⟩ :=
    Interp.create_objects m.heap searchPaths failFinalize observer
  have hleaves : m.Leaves (· = m.interps.length)
      (m.create searchPaths failFinalize observer).2 := by
    refine ⟨fun k hk => ?_, fun k x _ hx => ?_⟩
    -- One more at the end is no change for those before, and after it there is still none.
    · by_cases hlt : k < m.interps.length
      · simp only [Machine.create, List.getElem?_append_left hlt]
      · have hlen : (m.create searchPaths failFinalize observer).2.interps.length =
            m.interps.length + 1 := by
          simp only [Machine.create, List.length_append, List.length_singleton]
        rw [List.getElem?_eq_none (by omega), List.getElem?_eq_none (by omega)]
    · simp only [Machine.create, hobjects]
      rw [List.getElem?_append_left (ha.there k x hx)]
  have hlen : m.heap.objects.length ≤
      (m.create searchPaths failFinalize observer).2.heap.objects.length := by
    simp only [Machine.create, hobjects, List.length_append]
    omega
  refine ⟨ha.of_grown (n := m.interps.length) hlen fun k x hx => ?_, hleaves⟩
  by_cases hk : k = m.interps.length
  · subst hk
    obtain ⟨i, hi, hx⟩ := hx
    simp only [Machine.create, List.getElem?_concat_length, Option.some.injEq] at hi
    subst hi
    exact .inr ⟨rfl, Interp.reaches_create hx⟩
  · exact .inl ((hleaves.reaches hk x).1 hx)

/-- A step makes an interpreter, or it is the turn of one, or it has to do with none. -/
theorem Step.turn (hs : Step S m m') :
    (S m.interps.length ∧ ∃ searchPaths failFinalize observer,
      m' = (m.create searchPaths failFinalize observer).2) ∨
    (∃ n i e, S n ∧ m.interps[n]? = some i ∧ Engine.Turn ⟨m.heap, i⟩ e ∧ m'.heap = e.heap ∧
      m'.interps = m.interps.set n e.interp) ∨
    (m'.heap = m.heap ∧ m'.interps = m.interps) := by
  -- All steps but `create` and `perform` at most take roots away from one interpreter.
  have hkept {n : Nat} {i : Interp} (i' : Interp) (hn : S n) (hi : m.interps[n]? = some i)
      (hmodules : i'.modules = i.modules) (hroot : ∀ modules x,
        Interp.Root { i' with modules } x → Interp.Root { i with modules } x)
      {m' : Machine} (hheap : m'.heap = m.heap) (hset : m'.interps = m.interps.set n i') :
      ∃ n i e, S n ∧ m.interps[n]? = some i ∧ Engine.Turn ⟨m.heap, i⟩ e ∧ m'.heap = e.heap ∧
        m'.interps = m.interps.set n e.interp :=
    ⟨n, i, ⟨m.heap, i'⟩, hn, hi, .kept hmodules hroot, hheap, hset⟩
  cases hs with
  | create hn => exact .inl ⟨hn, _, _, _, rfl⟩
  | @openSession n hn =>
    unfold Machine.openSession
    split
    · exact .inr (.inr ⟨rfl, rfl⟩)
    · rename_i i hi
      split
      · exact .inr (.inr ⟨rfl, rfl⟩)
      · refine .inr (.inl (hkept { i with sessions := i.sessions.insert ⟨m.nextKey⟩ [] } hn hi rfl
          (fun modules x hx => ?_) rfl rfl))
        rcases Interp.root_insertSession (i := { i with modules }) hx with hx | hx
        · exact hx
        · cases hx
  | @perform source n key op hn =>
    unfold Machine.perform
    split
    · exact .inr (.inr ⟨rfl, rfl⟩)
    · rename_i i hi
      exact .inr (.inl ⟨n, i, _, hn, hi, .performed source key op, rfl, rfl⟩)
  | @closeSession n key hn =>
    unfold Machine.closeSession
    split
    · exact .inr (.inr ⟨rfl, rfl⟩)
    · rename_i i hi
      exact .inr (.inl (hkept { i with sessions := i.sessions.erase key } hn hi rfl
        (fun modules _ hx => Interp.root_eraseSession (i := { i with modules }) hx) rfl rfl))
  | @setResolver n r hn =>
    unfold Machine.setResolver
    split
    · exact .inr (.inr ⟨rfl, rfl⟩)
    · rename_i i hi
      exact .inr (.inl (hkept { i with resolver := some r } hn hi rfl
        (fun modules _ hx => Interp.root_settings (i := { i with modules }) hx) rfl rfl))
  | @finalize n hn =>
    unfold Machine.finalize
    split
    · exact .inr (.inr ⟨rfl, rfl⟩)
    · rename_i i hi
      refine .inr (.inl (hkept { i with finalized := true } hn hi rfl
        (fun modules _ hx => Interp.root_settings (i := { i with modules }) hx) ?_ ?_))
      · cases i.observer <;> rfl
      · cases i.observer <;> rfl
  | record => exact .inr (.inr ⟨rfl, rfl⟩)

/-- An interpreter that takes no part in a step is as it was, apart from the others or not. -/
theorem Step.interp (hs : Step S m m') (hk : ¬ S k) : m'.interps[k]? = m.interps[k]? := by
  rcases hs.turn with ⟨hn, _, _, _, rfl⟩ | ⟨n, i, e, hn, -, -, -, hset⟩ | ⟨-, hinterps⟩
  · have hne : k ≠ m.interps.length := fun he => hk (he ▸ hn)
    simp only [Machine.create]
    rw [List.getElem?_append]
    split
    · rfl
    · rw [List.getElem?_eq_none (by rw [List.length_singleton]; omega),
        List.getElem?_eq_none (by omega)]
  · rw [hset, List.getElem?_set_ne fun (he : n = k) => hk (he ▸ hn)]
  · rw [hinterps]

theorem Steps.interp (hs : Steps S m m') (hk : ¬ S k) : m'.interps[k]? = m.interps[k]? := by
  induction hs with
  | refl => rfl
  | tail _ hstep ih => exact (hstep.interp hk).trans ih

/-- One step keeps the interpreters apart, and leaves alone those that take no part. -/
theorem Apart.step (ha : m.Apart) (hs : Step S m m') : m'.Apart ∧ m.Leaves S m' := by
  have hmono {n : Nat} (hn : S n) {m' : Machine} (h : m'.Apart ∧ m.Leaves (· = n) m') :
      m'.Apart ∧ m.Leaves S m' := ⟨h.1, h.2.mono fun k hk => hk ▸ hn⟩
  rcases hs.turn with ⟨hn, _, _, _, rfl⟩ | ⟨n, i, e, hn, hi, hturn, hheap, hset⟩ | ⟨hheap, hinterps⟩
  · exact hmono hn ha.create
  · exact hmono hn (ha.confined hi hturn.confined hheap hset)
  · exact ha.of_eq hheap hinterps

/-- Steps keep the interpreters apart, and leave alone those that take no part. -/
theorem Apart.steps (ha : m.Apart) (hs : Steps S m m') : m'.Apart ∧ m.Leaves S m' := by
  induction hs with
  | refl => exact ⟨ha, .refl m⟩
  | tail _ hstep ih =>
    obtain ⟨ha', hleaves⟩ := ih.1.step hstep
    exact ⟨ha', ih.2.trans hleaves⟩

theorem apart_empty : Apart {} where
  apart n n' x hx := by
    obtain ⟨i, hi, -⟩ := hx
    cases hi
  there n x hx := by
    obtain ⟨i, hi, -⟩ := hx
    cases hi

end Machine

end InstancePool
