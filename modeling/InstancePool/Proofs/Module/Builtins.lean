import InstancePool.Proofs.Interp.ObjectProvenance
import InstancePool.Proofs.Session.ReferenceStability
import InstancePool.Proofs.Instance.Tag

/-!
The builtins of an interpreter stay. Their module is never handed out, so that no session can set a
member of it, and a session that asks for a builtin gets it.
-/

namespace InstancePool

/-- An interpreter knows an object, and not just as a module. -/
def Interp.Has (i : Interp) (x : ObjectIndex) : Prop :=
  Interp.Root { i with modules := Table.empty } x

/-- An object is a member of a namespace. -/
def Heap.Lists (h : Heap) (x : ObjectIndex) : Prop := ∃ n name, h.Binds n name x

theorem Heap.Extends.length_le {h h' : Heap} (he : h.Extends h') :
    h.objects.length ≤ h'.objects.length := by
  refine Nat.le_of_not_lt fun hlt => ?_
  obtain ⟨o, ho, -⟩ := he h'.objects.length _ (List.getElem?_eq_getElem hlt)
  rw [List.getElem?_eq_none (Nat.le_refl _)] at ho
  cases ho

namespace Engine

/-- An object that there is and that an operation may hand out. -/
def Offers (e : Engine) (x : ObjectIndex) : Prop := e.interp.Has x ∨ e.heap.Lists x

/-- From an engine to a later one: what is on offer was so before or is new, and what was not on offer
is as it was. -/
structure Guards (e e' : Engine) : Prop where
  offers : ∀ x : Nat, e'.Offers x → e.Offers x ∨
    (e.heap.objects.length ≤ x ∧ x < e'.heap.objects.length)
  object : ∀ (x : Nat) (o : Object), ¬ e.Offers x → e.heap.objects[x]? = some o →
    e'.heap.objects[x]? = some o
  module : ∀ (name : String) (n : ObjectIndex), e.interp.modules.get? name = some n →
    e'.interp.modules.get? name = some n

variable {source : TextSource} {e e' : Engine} {key : SessionKey} {slots : List ObjectIndex} {op : Op}
  {n m : ObjectIndex} {name : String}

theorem Guards.refl (e : Engine) : e.Guards e := ⟨fun _ => .inl, fun _ _ _ => id, fun _ _ => id⟩

/-- Some objects were added, and namespaces among them have none but new members. -/
theorem guards_of_append (added : List Object)
    (hheap : e'.heap.objects = e.heap.objects ++ added)
    (hhas : ∀ x : Nat, e'.interp.Has x → e.Offers x ∨
      (e.heap.objects.length ≤ x ∧ x < e'.heap.objects.length))
    (hadded : ∀ (ms : Table String ObjectIndex) (name : String) (y : Nat), .space ms ∈ added →
      ms.get? name = some y → e.heap.objects.length ≤ y ∧ y < e'.heap.objects.length)
    (hmodule : ∀ (name : String) (n : ObjectIndex), e.interp.modules.get? name = some n →
      e'.interp.modules.get? name = some n) : e.Guards e' where
  offers x hx := by
    rcases hx with hx | ⟨n, name, ms, hn, hx⟩
    · exact hhas x hx
    · rw [hheap] at hn
      rcases getElem?_append_cases hn with hn | ⟨-, hn⟩
      · exact .inl (.inr ⟨n, name, ms, hn, hx⟩)
      · exact .inr (hadded ms name x hn hx)
  object x o _ ho := by
    rw [hheap, List.getElem?_append_left (List.getElem?_eq_some_iff.1 ho).1, ho]
  module := hmodule

/-- A value is added to the heap, and the interpreter comes to know nothing else. -/
theorem guards_alloc (v : Value) {i : Interp}
    (hhas : ∀ x : Nat, i.Has x → e.Offers x ∨ x = e.heap.objects.length)
    (hmodules : i.modules = e.interp.modules) :
    e.Guards ⟨(e.heap.alloc (.value v)).2, i⟩ := by
  refine guards_of_append [.value v] rfl (fun x hx => (hhas x hx).imp_right ?_)
    (fun ms name y hmem _ => ?_) fun name n hn => ?_
  · rintro rfl
    exact new_alloc e.heap (.value v)
  · rw [List.mem_singleton] at hmem
    cases hmem
  · rwa [hmodules]

/-- An object that is on offer or new gets a slot. -/
theorem Guards.handOut (hg : e.Guards e') (hs : ∀ x ∈ slots, e.Offers x)
    (hn : e.Offers n ∨ (e.heap.objects.length ≤ n ∧ n < e'.heap.objects.length)) :
    e.Guards (e'.handOut key slots n).2 where
  offers x hx := by
    rcases hx with hx | hx
    · rcases Interp.root_insertSession (i := { e'.interp with modules := Table.empty }) hx with hx | hx
      · exact hg.offers x (.inl hx)
      · rcases List.mem_append.1 hx with hx | hx
        · exact .inl (hs x hx)
        · exact List.mem_singleton.1 hx ▸ hn
    · exact hg.offers x (.inr hx)
  object := hg.object
  module := hg.module

/-- A namespace that is on offer gets a member that is on offer. -/
theorem guards_bind {members : Table String ObjectIndex} (name : String) (hn : e.Offers n)
    (hm : e.Offers m) (hspace : e.heap.get n = .space members) :
    e.Guards { e with heap := e.heap.set n (.space (members.insert name m)) } where
  offers x hx := by
    have hobject := Heap.get_eq_space hspace
    refine .inl ?_
    rcases hx with hx | ⟨n', name', ms, hn', hx⟩
    · exact .inl hx
    · rcases getElem?_set_cases hn' with ⟨rfl, hset⟩ | ⟨-, hn'⟩
      · cases hset
        rcases Table.get?_insert_eq_some.1 hx with ⟨-, rfl⟩ | ⟨-, hx⟩
        · exact hm
        · exact .inr ⟨n, name', members, hobject, hx⟩
      · exact .inr ⟨n', name', ms, hn', hx⟩
  object x o hx ho := by
    -- The namespace is on offer, so it is another object.
    have hne : n ≠ x := fun he => hx (he ▸ hn)
    simp only [Heap.set, List.getElem?_set_ne hne, ho]
  module _ _ := id

theorem guards_findModule (source : TextSource) (name : String) (e : Engine) :
    e.Guards (e.findModule source name).2 := by
  have hsought := findModule_sought source name e
  generalize e.findModule source name = found at hsought
  cases hsought with
  | cached => exact .refl e
  | missing f values =>
    refine guards_of_append _ rfl (fun x hx => .inl (.inl hx)) ?_ fun _ _ => id
    exact fun ms _ _ hmem => absurd hmem not_space_mem
  | @made text members hnew _ _ _ hmembers =>
    refine guards_of_append _ (List.append_assoc ..) (fun x hx => .inl (.inl hx)) ?_ ?_
    · intro ms name' y hmem hy
      obtain rfl := space_mem_concat hmem
      have hnew := hmembers name' y hy
      simp only [List.length_append, List.length_map, List.length_singleton]
      omega
    · intro name' n hn
      rw [Table.get?_insert]
      split
      · rename_i he
        rw [he, hnew] at hn
        cases hn
      · exact hn

theorem offers_member (h : e.heap.member n name = .ok m) : e.Offers m := by
  unfold Heap.member at h
  split at h
  · rename_i members hspace
    split at h
    · rename_i m' hget
      cases h
      exact .inr ⟨n, name, members, Heap.get_eq_space hspace, hget⟩
    · cases h
  · cases h

theorem ok_of_existing {x : Except Failure ObjectIndex}
    (h : x.toOption.map Provenance.existing = some (.existing n)) : x = .ok n := by
  cases x with
  | error f => cases h
  | ok m =>
    cases h
    rfl

/-- What an operation hands out without making it is on offer. -/
theorem offers_of_provenance (hk : e.interp.sessions.get? key = some slots)
    (hr : e.provenance key slots op = some (.existing n)) : e.Offers n := by
  cases op with
  | global module name =>
    simp only [provenance] at hr
    split at hr
    · exact offers_member (ok_of_existing hr)
    · cases hr
  | attr target name =>
    obtain ⟨n', -, hr⟩ := Option.bind_eq_some_iff.1 hr
    exact offers_member (ok_of_existing hr)
  | call callee args =>
    obtain ⟨n', -, hr⟩ := Option.bind_eq_some_iff.1 hr
    split at hr
    · exact .inl (.slot hk (mem_of_resolveRef (ok_of_existing hr)))
    all_goals cases hr
  | restore id data =>
    simp only [provenance] at hr
    split at hr
    · rename_i n' hn
      cases hr
      exact .inl (.loaded hn)
    · cases hr
  | _ => cases hr

theorem guards_perform (source : TextSource) (key : SessionKey) (op : Op) (e : Engine) :
    e.Guards (Engine.perform source key op e).2 := by
  have hp := perform_performed source key op e
  have hhands (slots : List ObjectIndex) := @hands_of_perform source e key slots op
  generalize Engine.perform source key op e = x at hp hhands
  -- An object that gets a slot is the one that was handed out.
  have hslot {slots : List ObjectIndex} {e' : Engine} {n : ObjectIndex}
      (hk : e.interp.sessions.get? key = some slots) (hg : e.Guards e')
      (hx : x = (.ok (e'.handOut key slots n).1, (e'.handOut key slots n).2)) : e.Guards x.2 := by
    subst hx
    obtain ⟨n', hn'⟩ := hhands slots hk rfl
    have hlast := Option.some.inj ((slots_handOut e' key slots n).symm.trans hn'.last)
    obtain rfl : n = n' := List.singleton_inj.1 (List.append_cancel_left hlast)
    refine hg.handOut (fun x hx => .inl (.slot hk hx)) ?_
    exact hn'.provenance.imp (fun h => offers_of_provenance hk h.1) And.right
  cases hp with
  | unknown | failed => exact .refl e
  | missed f => exact guards_findModule source _ e
  | found hk => exact hslot hk (guards_findModule source _ e) rfl
  | @done op slots x hk hd =>
    cases hd with
    | seen => exact .refl e
    | handed n => exact hslot hk (.refl e) rfl
    | made v => exact hslot hk (guards_alloc v (fun x hx => .inl (.inl hx)) rfl) rfl
    | bound n m members hspace hn hm =>
      -- A session can only set a member of what it has, and only to what it has.
      exact guards_bind _ (.inl (.slot hk (mem_of_resolveRef hn)))
        (.inl (.slot hk (mem_of_resolveRef hm))) hspace
    | restored v hn hv =>
      refine hslot hk ?_ rfl
      refine guards_alloc v (fun x hx => ?_) rfl
      rcases Interp.root_insertLoaded (i := { e.interp with modules := Table.empty }) hx with hx | hx
      · exact .inl (.inl hx)
      · exact .inr hx
    | unloaded =>
      exact guards_of_append [] (List.append_nil _).symm
        (fun x hx => .inl (.inl (Interp.root_eraseLoaded hx))) nofun fun _ _ => id

theorem Turn.guards (ht : e.Turn e') : e.Guards e' := by
  cases ht with
  | performed source key op => exact guards_perform source key op e
  | @kept i hmodules hroot =>
    refine guards_of_append [] (List.append_nil _).symm
      (fun x hx => .inl (.inl (hroot Table.empty x hx))) nofun fun name n hn => ?_
    rwa [hmodules]

end Engine

namespace Machine

variable {S : Nat → Prop} {m m' m'' : Machine} {n : Nat} {i : Interp} {x : ObjectIndex}

/-- An object that there is and that some interpreter may hand out. -/
def Offers (m : Machine) (x : ObjectIndex) : Prop :=
  (∃ (k : Nat) (i : Interp), m.interps[k]? = some i ∧ i.Has x) ∨ m.heap.Lists x

/-- An interpreter has all builtins in a module, and that module is not on offer. -/
def Equips (m : Machine) (i : Interp) : Prop :=
  ∃ b, i.modules.get? "builtins" = some b ∧ ¬ m.Offers b ∧ ∀ f : Builtin, ∃ g,
    m.heap.Binds b f.name g ∧ m.heap.objects[g]? = some (.builtin f)

/-- All interpreters have the builtins, and what is on offer is there. -/
structure Equipped (m : Machine) : Prop where
  there : ∀ x : Nat, m.Offers x → x < m.heap.objects.length
  equips : ∀ (k : Nat) (i : Interp), m.interps[k]? = some i → m.Equips i

/-- From a machine to a later one: what is on offer was so before or is new, what was not on offer is as it
was, and interpreters keep their modules. -/
structure Guards (m m' : Machine) : Prop where
  length_le : m.heap.objects.length ≤ m'.heap.objects.length
  offers : ∀ x : Nat, m'.Offers x → m.Offers x ∨
    (m.heap.objects.length ≤ x ∧ x < m'.heap.objects.length)
  object : ∀ (x : Nat) (o : Object), ¬ m.Offers x → m.heap.objects[x]? = some o →
    m'.heap.objects[x]? = some o
  module : ∀ (k : Nat) (i : Interp) (name : String) (b : ObjectIndex), m.interps[k]? = some i →
    i.modules.get? name = some b → ∃ i', m'.interps[k]? = some i' ∧ i'.modules.get? name = some b

theorem offers_of_engine (hi : m.interps[n]? = some i)
    (hx : (⟨m.heap, i⟩ : Engine).Offers x) : m.Offers x :=
  hx.imp_left fun hx => ⟨n, i, hi, hx⟩

theorem Guards.not_offers {x : Nat} (hg : m.Guards m') (hx : ¬ m.Offers x)
    (hlt : x < m.heap.objects.length) : ¬ m'.Offers x := fun hx' =>
  (hg.offers x hx').elim hx fun hnew => Nat.not_lt.2 hnew.1 hlt

theorem Guards.trans (hg : m.Guards m') (hg' : m'.Guards m'') : m.Guards m'' where
  length_le := Nat.le_trans hg.length_le hg'.length_le
  offers x hx := by
    rcases hg'.offers x hx with hx | hx
    · exact (hg.offers x hx).imp_right fun hx => ⟨hx.1, Nat.lt_of_lt_of_le hx.2 hg'.length_le⟩
    · exact .inr ⟨Nat.le_trans hg.length_le hx.1, hx.2⟩
  object x o hx ho := by
    have hx' := hg.not_offers hx (List.getElem?_eq_some_iff.1 ho).1
    exact hg'.object x o hx' (hg.object x o hx ho)
  module k i name b hi hb := by
    obtain ⟨i', hi', hb'⟩ := hg.module k i name b hi hb
    exact hg'.module k i' name b hi' hb'

theorem guards_same (hheap : m'.heap = m.heap) (hinterps : m'.interps = m.interps) : m.Guards m' where
  length_le := Nat.le_of_eq (by rw [hheap])
  offers x hx := by
    rw [Offers, hheap, hinterps] at hx
    exact .inl hx
  object x o _ ho := by rw [hheap, ho]
  module k i name b hi hb := ⟨i, by rw [hinterps, hi], hb⟩

theorem guards_turn {e : Engine} (hi : m.interps[n]? = some i) (hg : Engine.Guards ⟨m.heap, i⟩ e)
    (hlen : m.heap.objects.length ≤ e.heap.objects.length) (hheap : m'.heap = e.heap)
    (hset : m'.interps = m.interps.set n e.interp) : m.Guards m' := by
  have hlt : n < m.interps.length := (List.getElem?_eq_some_iff.1 hi).1
  refine ⟨hheap ▸ hlen, fun x hx => ?_, fun x o hx ho => ?_, fun k j name b hj hb => ?_⟩
  · rw [Offers, hset, hheap] at hx
    rw [hheap]
    rcases hx with ⟨k, i', hi', hx⟩ | hx
    · rcases getElem?_set_cases hi' with ⟨-, rfl⟩ | ⟨-, hi'⟩
      · exact (hg.offers x (.inl hx)).imp_left (offers_of_engine hi)
      · exact .inl (.inl ⟨k, i', hi', hx⟩)
    · exact (hg.offers x (.inr hx)).imp_left (offers_of_engine hi)
  · exact hheap ▸ hg.object x o (fun hx' => hx (offers_of_engine hi hx')) ho
  · rw [hset]
    by_cases hk : n = k
    · subst hk
      obtain rfl := Option.some.inj (hi.symm.trans hj)
      exact ⟨e.interp, List.getElem?_set_self hlt, hg.module name b hb⟩
    · exact ⟨j, by rw [List.getElem?_set_ne hk, hj], hb⟩

/-- A new interpreter comes with nothing on offer but its version namespace and its builtins. -/
theorem offers_create {searchPaths : List String} {failFinalize : Bool} {observer : Option Observer} {x : Nat}
    (hx : (m.create searchPaths failFinalize observer).2.Offers x) : m.Offers x ∨
      (m.heap.objects.length ≤ x ∧ x ≠ m.heap.objects.length + 1 ∧
        x < (m.create searchPaths failFinalize observer).2.heap.objects.length - 1) := by
  obtain ⟨added, hobjects, hlen, -, -, -, hadded⟩ :=
    Interp.create_objects m.heap searchPaths failFinalize observer
  have hobjects : (m.create searchPaths failFinalize observer).2.heap.objects =
      m.heap.objects ++ added := hobjects
  rw [hobjects, List.length_append]
  rcases hx with ⟨k, i, hi, hx⟩ | ⟨n, name, ms, hn, hx⟩
  · rcases getElem?_append_cases hi with hi | ⟨-, hi⟩
    · exact .inl (.inl ⟨k, i, hi, hx⟩)
    · cases List.mem_singleton.1 hi
      cases hx with
      | version =>
        refine .inr ⟨Nat.le_refl _, ?_⟩
        change m.heap.objects.length ≠ m.heap.objects.length + 1 ∧ m.heap.objects.length < _
        omega
      | module hx | loaded hx => cases hx
      | slot hk hx => cases hk
  · rw [hobjects] at hn
    rcases getElem?_append_cases hn with hn | ⟨-, hn⟩
    · exact .inl (.inr ⟨n, name, ms, hn, hx⟩)
    · exact .inr (hadded ms name x hn hx)

theorem guards_create (m : Machine) (searchPaths : List String) (failFinalize : Bool)
    (observer : Option Observer) : m.Guards (m.create searchPaths failFinalize observer).2 := by
  obtain ⟨added, hobjects, -⟩ := Interp.create_objects m.heap searchPaths failFinalize observer
  have hobjects : (m.create searchPaths failFinalize observer).2.heap.objects =
      m.heap.objects ++ added := hobjects
  refine ⟨?_, fun x hx => ?_, fun x o _ ho => ?_, fun k i name b hi hb => ⟨i, ?_, hb⟩⟩
  · rw [hobjects, List.length_append]
    exact Nat.le_add_right ..
  · exact (offers_create hx).imp_right fun hx => ⟨hx.1, Nat.lt_of_lt_of_le hx.2.2 (Nat.sub_le ..)⟩
  · rw [hobjects, List.getElem?_append_left (List.getElem?_eq_some_iff.1 ho).1, ho]
  · exact (List.getElem?_append_left (List.getElem?_eq_some_iff.1 hi).1).trans hi

theorem Step.guards (hs : Step S m m') : m.Guards m' := by
  have hlen := hs.extends.length_le
  rcases hs.turn with ⟨-, _, _, _, rfl⟩ | ⟨n, i, e, -, hi, hturn, hheap, hset⟩ | ⟨hheap, hinterps⟩
  · exact guards_create ..
  · exact guards_turn hi hturn.guards (hheap ▸ hlen) hheap hset
  · exact guards_same hheap hinterps

theorem Steps.guards (hs : Steps S m m') : m.Guards m' := by
  induction hs with
  | refl => exact guards_same rfl rfl
  | tail _ hstep ih => exact ih.trans hstep.guards

/-- A new interpreter has a module of the builtins, which is not on offer. -/
theorem builtins_create (he : m.Equipped) (searchPaths : List String) (failFinalize : Bool)
    (observer : Option Observer) :
    let m' := (m.create searchPaths failFinalize observer).2
    ∃ (b : Nat) (members : Table String ObjectIndex),
      (Interp.create m.heap searchPaths failFinalize observer).interp.modules.get? "builtins" = some b ∧
      ¬ m'.Offers b ∧ m'.heap.objects[b]? = some (.space members) ∧
      (∀ f : Builtin, ∃ g, members.get? f.name = some g ∧ m'.heap.objects[g]? = some (.builtin f)) ∧
      ∀ name, members.get? name ≠ none → ∃ f : Builtin, f.name = name := by
  intro m'
  obtain ⟨added, hobjects, hlen, -, hmodule, ⟨members, hlast, hbuiltins, honly⟩, -⟩ :=
    Interp.create_objects m.heap searchPaths failFinalize observer
  have hobjects : m'.heap.objects = m.heap.objects ++ added := hobjects
  have hnew (j : Nat) (o : Object) (ho : added[j]? = some o) :
      m'.heap.objects[m.heap.objects.length + j]? = some o := by
    rw [hobjects, List.getElem?_append_right (Nat.le_add_right ..), Nat.add_sub_cancel_left, ho]
  refine ⟨_, members, hmodule, fun hb => ?_, ?_, fun f => ?_, honly⟩
  -- All that is on offer comes before the module of the new builtins, which is the last object.
  · rcases offers_create hb with hb | hb
    · have hlt := he.there _ hb
      omega
    · rw [hobjects, List.length_append] at hb
      omega
  · rw [List.getLast?_eq_getElem?] at hlast
    rw [Nat.add_sub_assoc (by omega)]
    exact hnew _ _ hlast
  · obtain ⟨g, hg, hbuiltin⟩ := hbuiltins f
    exact ⟨_, hg, hnew g _ hbuiltin⟩

/-- A new interpreter has the builtins. -/
theorem equips_create (he : m.Equipped) (searchPaths : List String) (failFinalize : Bool)
    (observer : Option Observer) : (m.create searchPaths failFinalize observer).2.Equips
      (Interp.create m.heap searchPaths failFinalize observer).interp := by
  obtain ⟨b, members, hb, hno, hspace, hbuiltins, -⟩ := builtins_create he searchPaths failFinalize observer
  refine ⟨b, hb, hno, fun f => ?_⟩
  obtain ⟨g, hg, hbuiltin⟩ := hbuiltins f
  exact ⟨g, ⟨members, hspace, hg⟩, hbuiltin⟩

/-- An interpreter keeps the builtins. -/
theorem Equips.of_guards (he : m.Equips i) (hg : m.Guards m') (hext : m.heap.Extends m'.heap) {i' : Interp}
    (hi : m.interps[n]? = some i) (hi' : m'.interps[n]? = some i') : m'.Equips i' := by
  obtain ⟨b, hb, hno, hbuiltins⟩ := he
  have hlt : b < m.heap.objects.length := by
    obtain ⟨g, ⟨members, hspace, -⟩, -⟩ := hbuiltins .id
    exact (List.getElem?_eq_some_iff.1 hspace).1
  refine ⟨b, ?_, hg.not_offers hno hlt, fun f => ?_⟩
  · obtain ⟨i₁, hi₁, hb₁⟩ := hg.module n i "builtins" b hi hb
    obtain rfl := Option.some.inj (hi'.symm.trans hi₁)
    exact hb₁
  · -- The module is as it was, since it was not on offer; the builtin is, since it is no namespace.
    obtain ⟨g, ⟨members, hspace, hget⟩, hbuiltin⟩ := hbuiltins f
    refine ⟨g, ⟨members, hg.object b _ hno hspace, hget⟩, ?_⟩
    obtain ⟨o, ho, rfl | ⟨ms, ms', hms, -⟩⟩ := hext g _ hbuiltin
    · exact ho
    · cases hms

theorem equipped_empty : Equipped {} where
  there x hx := by
    rcases hx with ⟨k, i, hi, -⟩ | ⟨n, name, ms, hn, -⟩
    · cases hi
    · cases hn
  equips k i hi := by cases hi

/-- No step takes a builtin away. -/
theorem Equipped.step (he : m.Equipped) (hs : Step S m m') : m'.Equipped := by
  have hg := hs.guards
  have hkeep (k : Nat) (i i' : Interp) (hi : m.interps[k]? = some i) (hi' : m'.interps[k]? = some i') :
      m'.Equips i' := (he.equips k i hi).of_guards hg hs.extends hi hi'
  refine ⟨fun x hx => ?_, fun k i' hi' => ?_⟩
  · rcases hg.offers x hx with hx | hx
    · exact Nat.lt_of_lt_of_le (he.there x hx) hg.length_le
    · exact hx.2
  · cases hi : m.interps[k]? with
    | some i => exact hkeep k i i' hi hi'
    | none =>
      -- There are more interpreters than before, so one was made.
      have hle := List.getElem?_eq_none_iff.1 hi
      rcases hs.turn with ⟨-, _, _, _, rfl⟩ | ⟨n, i, e, -, -, -, -, hset⟩ | ⟨-, hinterps⟩
      · rw [create, List.getElem?_append_right hle] at hi'
        obtain rfl := List.mem_singleton.1 (List.mem_of_getElem? hi')
        exact equips_create he ..
      · rw [hset, List.getElem?_eq_none (by rwa [List.length_set])] at hi'
        cases hi'
      · rw [hinterps, hi] at hi'
        cases hi'

theorem Equipped.steps (he : m.Equipped) (hs : Steps S m m') : m'.Equipped := by
  induction hs with
  | refl => exact he
  | tail _ hstep ih => exact ih.step hstep

end Machine

theorem Host.equipped_afterDeeds {h : Host} {deeds : List Deed} (hd : ∀ d ∈ deeds, d.Told)
    (he : h.machine.Equipped) : (h.afterDeeds deeds).machine.Equipped :=
  machine_afterDeeds (fun _ _ _ he hs => he.steps hs) hd he

end InstancePool
