import InstancePool.Proofs.Module.TextBindings
import InstancePool.Proofs.Module.Builtins

/-!
Modules stay what they were made to be. The namespace of a module is never handed out, so no session can set a
member of it: whoever asks for a member gets the object that was bound when the module was made.
-/

namespace InstancePool

namespace Heap

/-- A namespace with these members has a version namespace and nothing else. -/
def IsRuntime (h : Heap) (members : Table String ObjectIndex) : Prop :=
  (∃ v tags, members.get? "version" = some v ∧ h.objects[v]? = some (.space tags)) ∧
    ∀ name, members.get? name ≠ none → name = "version"

/-- A namespace with these members has the builtins and nothing else. -/
def IsBuiltins (h : Heap) (members : Table String ObjectIndex) : Prop :=
  (∀ f : Builtin, ∃ g, members.get? f.name = some g ∧ h.objects[g]? = some (.builtin f)) ∧
    ∀ name, members.get? name ≠ none → ∃ f : Builtin, f.name = name

/-- These members were made of a text: each name that it binds has a new object with its last value. -/
structure Reads (h h' : Heap) (text : String) (members : Table String ObjectIndex) : Prop where
  bound : ∀ x v, ModuleText.LastBinds (Text.lines text.toList) x v →
    ∃ o, members.get? x = some o ∧ h'.get o = .value v
  made : ∀ (x : String) (o : Nat), members.get? x = some o → h.objects.length ≤ o ∧
    ∃ v, ModuleText.LastBinds (Text.lines text.toList) x v ∧ h'.get o = .value v

variable {h h' : Heap} {members : Table String ObjectIndex}

theorem IsRuntime.extends (hm : h.IsRuntime members) (he : h.Extends h') : h'.IsRuntime members := by
  obtain ⟨⟨v, tags, hv, hspace⟩, honly⟩ := hm
  -- The version namespace may get members, but it stays a namespace.
  obtain ⟨o, ho, rfl | ⟨ms, ms', -, rfl⟩⟩ := he v _ hspace
  · exact ⟨⟨v, tags, hv, ho⟩, honly⟩
  · exact ⟨⟨v, ms', hv, ho⟩, honly⟩

theorem IsBuiltins.extends (hm : h.IsBuiltins members) (he : h.Extends h') : h'.IsBuiltins members := by
  refine ⟨fun f => ?_, hm.2⟩
  obtain ⟨g, hg, hf⟩ := hm.1 f
  obtain ⟨o, ho, rfl | ⟨ms, ms', hms, -⟩⟩ := he g _ hf
  · exact ⟨g, hg, ho⟩
  · cases hms

end Heap

/-- A module text has no wrong line. -/
def ModuleText.Parses (text : String) : Prop :=
  ∀ line ∈ Text.lines text.toList, ∀ p, ¬ Wrong line p

theorem ModuleText.parses_iff {text : String} : Parses text ↔ (read text).2 = none := by
  rcases readLines_cases 1 (Text.lines text.toList) with
    ⟨bindings, hread, hsaid⟩ | ⟨before, line, after, p, he, -, hline, hread⟩
  · exact iff_of_true hsaid.not_wrong (congrArg Prod.snd hread)
  · have hmem : line ∈ Text.lines text.toList := he ▸ List.mem_append_right _ List.mem_cons_self
    refine iff_of_false (fun hp => hp line hmem p hline) fun hnone => ?_
    cases hnone.symm.trans hread

instance (text : String) : Decidable (ModuleText.Parses text) :=
  decidable_of_iff _ ModuleText.parses_iff.symm

namespace Engine

open ModuleText

variable {source : TextSource} {e : Engine} {key : SessionKey} {slots : List ObjectIndex}
  {name x : String} {text : String} {n y : ObjectIndex} {members : Table String ObjectIndex}

theorem findModule_cached (hn : e.interp.modules.get? name = some n) :
    e.findModule source name = (.ok n, e) := by
  simp only [findModule, hn]

theorem findModule_unknown (hnew : e.interp.modules.get? name = none)
    (hnone : source e.interp.resolver name = none) :
    e.findModule source name = (.error (.noModule name), e) := by
  simp only [findModule, hnew, hnone]

theorem perform_global_error {f : Failure} (hk : e.interp.sessions.get? key = some slots)
    (hf : (e.findModule source name).1 = .error f) :
    Engine.perform source key (.global name x) e = (.error f, (e.findModule source name).2) := by
  simp only [Engine.perform, hk]
  generalize e.findModule source name = found at hf
  obtain ⟨result, e'⟩ := found
  cases hf
  rfl

/-- What is asked of a module that is found is one of its members. -/
theorem perform_global_ok (hk : e.interp.sessions.get? key = some slots)
    (hn : (e.findModule source name).1 = .ok n)
    (hspace : (e.findModule source name).2.heap.get n = .space members) :
    (∀ y, members.get? x = some y → Engine.perform source key (.global name x) e =
      (.ok (.ref ⟨key, UInt32.ofNat slots.length⟩),
        ((e.findModule source name).2.handOut key slots y).2)) ∧
    (members.get? x = none → Engine.perform source key (.global name x) e =
      (.error (.noMember x), (e.findModule source name).2)) := by
  simp only [Engine.perform, hk]
  generalize e.findModule source name = found at hn hspace
  obtain ⟨result, e'⟩ := found
  cases hn
  refine ⟨fun y hy => ?_, fun hnone => ?_⟩
  · simp only [Heap.member, hspace, hy]
    rfl
  · simp only [Heap.member, hspace, hnone]
    rfl

theorem offers_handOut {z : Nat} (hk : e.interp.sessions.get? key = some slots)
    (hz : (e.handOut key slots y).2.Offers z) : e.Offers z ∨ z = y := by
  rcases hz with hz | hz
  · rcases Interp.root_insertSession (i := { e.interp with modules := Table.empty }) hz with hz | hz
    · exact .inl (.inl hz)
    · rcases List.mem_append.1 hz with hz | hz
      · exact .inl (.inl (.slot hk hz))
      · exact .inr (List.mem_singleton.1 hz)
  · exact .inl (.inr hz)

/-- A new namespace behind some values is not on offer, if it is no member of itself. -/
theorem not_offers_made (hthere : ∀ z : Nat, e.Offers z → z < e.heap.objects.length)
    (bindings : List (String × Value)) (modules : Table String ObjectIndex)
    (hbelow : ∀ (x : String) (y : Nat), members.get? x = some y →
      y < e.heap.objects.length + bindings.length) :
    ¬ (⟨⟨e.heap.objects ++ bindings.map (fun b => .value b.2) ++ [.space members]⟩,
      { e.interp with modules }⟩ : Engine).Offers (e.heap.objects.length + bindings.length) := by
  -- What is on offer was so before, or it is a member of the new namespace.
  rintro (hb | ⟨z, x, ms, hz, hb⟩)
  · exact Nat.not_lt.2 (Nat.le_add_right ..) (hthere _ (.inl hb))
  · rw [List.append_assoc] at hz
    rcases getElem?_append_cases hz with hz | ⟨-, hz⟩
    · exact Nat.not_lt.2 (Nat.le_add_right ..) (hthere _ (.inr ⟨z, x, ms, hz, hb⟩))
    · obtain rfl := space_mem_concat hz
      exact Nat.lt_irrefl _ (hbelow x _ hb)

/-- A module that is made of a text is not on offer. Its members are new, and come before it. -/
theorem findModule_made (hthere : ∀ z : Nat, e.Offers z → z < e.heap.objects.length)
    (hnew : e.interp.modules.get? name = none) (htext : source e.interp.resolver name = some text)
    (hp : Parses text) :
    ∃ (b : Nat) (members : Table String ObjectIndex), (e.findModule source name).1 = .ok b ∧
      (e.findModule source name).2.interp =
        { e.interp with modules := e.interp.modules.insert name b } ∧
      (e.findModule source name).2.heap.objects[b]? = some (.space members) ∧
      e.heap.objects.length ≤ b ∧ ¬ (e.findModule source name).2.Offers b ∧
      (∀ (x : String) (y : Nat), members.get? x = some y → y < b) ∧
      e.heap.Reads (e.findModule source name).2.heap text members := by
  rcases findModule_of_text hnew htext with ⟨n, hn, -, hholds⟩ | ⟨before, line, after, p, he, -, hwrong, -⟩
  · have hsought := findModule_sought source name e
    generalize e.findModule source name = found at hsought hn hholds
    cases hsought with
    | cached hcached =>
      rw [hnew] at hcached
      cases hcached
    | missing f values => cases hn
    | @made text' members _ htext' _ _ hmembers =>
      obtain rfl := Option.some.inj (htext.symm.trans htext')
      cases hn
      have hobject : (e.heap.objects ++ (ModuleText.read text).1.map (fun b => Object.value b.2) ++
          [.space members])[e.heap.objects.length + (ModuleText.read text).1.length]? =
            some (.space members) := by
        rw [← List.length_map fun b : String × Value => Object.value b.2, ← List.length_append]
        exact List.getElem?_concat_length
      -- What holds of the values of the module is known of its namespace, which is the last object.
      obtain ⟨members', hspace, hbound, honly⟩ := hholds
      obtain rfl : members = members' := by
        rw [Heap.get, hobject] at hspace
        exact Object.space.inj hspace
      exact ⟨_, members, rfl, rfl, hobject, Nat.le_add_right ..,
        not_offers_made hthere _ _ fun x y hy => (hmembers x y hy).2, fun x y hy => (hmembers x y hy).2,
        hbound, fun x o ho => ⟨(hmembers x o ho).1, honly x o ho⟩⟩
  · exact absurd hwrong (hp line (he ▸ List.mem_append_right _ List.mem_cons_self) p)

/-- Whether it has the member or not, a module that is found is there afterwards, and not on offer. -/
theorem perform_global_keeps {b : Nat} (hk : e.interp.sessions.get? key = some slots)
    (hfound : (e.findModule source name).1 = .ok b)
    (hinterp : (e.findModule source name).2.interp =
      { e.interp with modules := e.interp.modules.insert name b })
    (hspace : (e.findModule source name).2.heap.get b = .space members)
    (hno : ¬ (e.findModule source name).2.Offers b)
    (hbelow : ∀ (x : String) (y : Nat), members.get? x = some y → y < b) :
    (Engine.perform source key (.global name x) e).2.heap = (e.findModule source name).2.heap ∧
      (Engine.perform source key (.global name x) e).2.interp.modules.get? name = some b ∧
      ¬ (Engine.perform source key (.global name x) e).2.Offers b := by
  obtain ⟨hfetched, hlacking⟩ := perform_global_ok (x := x) hk hfound hspace
  have hmodule : (e.findModule source name).2.interp.modules.get? name = some b := by
    rw [hinterp, Table.get?_insert_self]
  cases hx : members.get? x with
  | none =>
    rw [hlacking hx]
    exact ⟨rfl, hmodule, hno⟩
  | some y =>
    rw [hfetched y hx]
    refine ⟨rfl, hmodule, fun hb => ?_⟩
    have hslots : (e.findModule source name).2.interp.sessions.get? key = some slots := by
      rw [hinterp, ← hk]
    -- The member that is handed out is on offer from now on, but it lies before the module.
    rcases offers_handOut hslots hb with hb | rfl
    · exact hno hb
    · exact Nat.lt_irrefl _ (hbelow x _ hx)

end Engine

namespace Machine

open ModuleText

variable {S : Nat → Prop} {m m' : Machine} {k : Nat} {i : Interp} {key : SessionKey}
  {slots : List ObjectIndex} {name x : String} {text : String} {members : Table String ObjectIndex}
  {source : TextSource}

/-- An interpreter has a module with these members, and the module is not on offer. -/
def Shelves (m : Machine) (k : Nat) (name : String) (members : Table String ObjectIndex) : Prop :=
  ∃ i b, m.interps[k]? = some i ∧ i.modules.get? name = some b ∧ ¬ m.Offers b ∧
    m.heap.objects[b]? = some (.space members)

/-- An interpreter has the two modules that come with it. -/
structure Furnishes (m : Machine) (k : Nat) : Prop where
  runtime : ∃ members, m.Shelves k "runtime" members ∧ m.heap.IsRuntime members
  builtins : ∃ members, m.Shelves k "builtins" members ∧ m.heap.IsBuiltins members

theorem Shelves.guarded (hs : m.Shelves k name members) (hg : m.Guards m') :
    m'.Shelves k name members := by
  obtain ⟨i, b, hi, hb, hno, hspace⟩ := hs
  obtain ⟨i', hi', hb'⟩ := hg.module k i name b hi hb
  exact ⟨i', b, hi', hb', hg.not_offers hno (List.getElem?_eq_some_iff.1 hspace).1,
    hg.object b _ hno hspace⟩

theorem Furnishes.guarded (hf : m.Furnishes k) (hg : m.Guards m') (he : m.heap.Extends m'.heap) :
    m'.Furnishes k where
  runtime := by
    obtain ⟨members, hs, hm⟩ := hf.runtime
    exact ⟨members, hs.guarded hg, hm.extends he⟩
  builtins := by
    obtain ⟨members, hs, hm⟩ := hf.builtins
    exact ⟨members, hs.guarded hg, hm.extends he⟩

/-- A new interpreter has two modules. -/
theorem create_modules (heap : Heap) (searchPaths : List String) (failFinalize : Bool)
    (observer : Option Observer) (hname : name ≠ "builtins") :
    (Interp.create heap searchPaths failFinalize observer).interp.modules.get? name =
      if name = "runtime" then some (heap.objects.length + 1) else none := by
  simp only [Interp.create, Table.get?_insert_of_ne hname, Table.get?_insert, Heap.alloc,
    List.length_append, List.length_singleton, Table.get?_empty]

/-- A new interpreter has a module of its own, which is not on offer. -/
theorem runtime_create (he : m.Equipped) (searchPaths : List String) (failFinalize : Bool)
    (observer : Option Observer) :
    let m' := (m.create searchPaths failFinalize observer).2
    ∃ members, m'.Shelves m.interps.length "runtime" members ∧ m'.heap.IsRuntime members := by
  intro m'
  obtain ⟨added, hobjects, -, hfirst, -⟩ :=
    Interp.create_objects m.heap searchPaths failFinalize observer
  have hobjects : m'.heap.objects = m.heap.objects ++ added := hobjects
  obtain ⟨more, rfl⟩ : ∃ more, added = [.space Table.empty,
      .space (Table.empty.insert "version" m.heap.objects.length)] ++ more :=
    ⟨added.drop 2, by rw [← hfirst, List.take_append_drop]⟩
  have hnew (j : Nat) (o : Object) (ho : (.space Table.empty :: .space
      (Table.empty.insert "version" m.heap.objects.length) :: more : List Object)[j]? = some o) :
      m'.heap.objects[m.heap.objects.length + j]? = some o := by
    rw [hobjects, List.getElem?_append_right (Nat.le_add_right ..), Nat.add_sub_cancel_left]
    exact ho
  refine ⟨Table.empty.insert "version" m.heap.objects.length,
    ⟨_, m.heap.objects.length + 1, List.getElem?_concat_length,
      (create_modules _ _ _ _ (by decide)).trans (if_pos rfl), fun hb => ?_, hnew 1 _ rfl⟩,
    ⟨m.heap.objects.length, Table.empty, ?_, hnew 0 _ rfl⟩, fun name hname => ?_⟩
  · rcases offers_create hb with hb | hb
    -- The module is the second object that comes with the interpreter.
    · exact Nat.not_lt.2 (Nat.le_succ _) (he.there _ hb)
    · exact hb.2.1 rfl
  · rw [Table.get?_insert_self]
  · rw [Table.get?_insert, Table.get?_empty] at hname
    split at hname
    · assumption
    · exact absurd rfl hname

theorem furnishes_create (he : m.Equipped) (searchPaths : List String) (failFinalize : Bool)
    (observer : Option Observer) :
    (m.create searchPaths failFinalize observer).2.Furnishes m.interps.length := by
  obtain ⟨b, members, hb, hno, hspace, hbuiltins⟩ := builtins_create he searchPaths failFinalize observer
  exact ⟨runtime_create he .., members, ⟨_, b, List.getElem?_concat_length, hb, hno, hspace⟩, hbuiltins⟩

/-- Every interpreter has the two modules that come with it. -/
def Furnished (m : Machine) : Prop := ∀ k < m.interps.length, m.Furnishes k

theorem furnished_empty : Furnished {} := fun _ hk => absurd hk (Nat.not_lt_zero _)

theorem Furnished.step (hf : m.Furnished) (he : m.Equipped) (hs : Step S m m') : m'.Furnished := by
  intro k hk
  by_cases hlt : k < m.interps.length
  · exact (hf k hlt).guarded hs.guards hs.extends
  -- There are more interpreters than before only if one was made.
  · rcases hs.turn with ⟨-, _, _, _, rfl⟩ | ⟨n, i, e, -, -, -, -, hset⟩ | ⟨-, hinterps⟩
    · rw [create, List.length_append, List.length_singleton] at hk
      obtain rfl : k = m.interps.length := by omega
      exact furnishes_create he ..
    · rw [hset, List.length_set] at hk
      exact absurd hk hlt
    · rw [hinterps] at hk
      exact absurd hk hlt

theorem Furnished.steps (hf : m.Furnished) (he : m.Equipped) (hs : Steps S m m') : m'.Furnished := by
  induction hs with
  | refl => exact hf
  | tail hsteps hstep ih => exact ih.step (he.steps hsteps) hstep

/-- Once a session has asked for a module that has a text without a wrong line, the module is there. -/
theorem shelves_perform (he : m.Equipped) (hi : m.interps[k]? = some i)
    (hk : i.sessions.get? key = some slots) (hnew : i.modules.get? name = none)
    (htext : source i.resolver name = some text) (hp : Parses text) (x : String) :
    ∃ b members, (Engine.findModule source name ⟨m.heap, i⟩).1 = .ok b ∧
      (Engine.findModule source name ⟨m.heap, i⟩).2.heap.get b = .space members ∧
      (m.perform source k key (.global name x)).2.Shelves k name members ∧
      m.heap.Reads (m.perform source k key (.global name x)).2.heap text members := by
  have hlt : k < m.interps.length := (List.getElem?_eq_some_iff.1 hi).1
  obtain ⟨b, members, hfound, hinterp, hobject, hle, hno, hbelow, hreads⟩ :=
    Engine.findModule_made (e := ⟨m.heap, i⟩) (fun z hz => he.there z (offers_of_engine hi hz)) hnew htext hp
  have hspace : (Engine.findModule source name ⟨m.heap, i⟩).2.heap.get b = .space members := by
    rw [Heap.get, hobject, Option.getD_some]
  obtain ⟨heap, modules, hno'⟩ :=
    Engine.perform_global_keeps (x := x) (e := ⟨m.heap, i⟩) hk hfound hinterp hspace hno hbelow
  refine ⟨b, members, hfound, hspace, ?_⟩
  rw [perform_eq hi]
  refine ⟨⟨_, b, List.getElem?_set_self hlt, modules, ?_, heap ▸ hobject⟩, heap ▸ hreads⟩
  -- The other interpreters offer what they did, all of which was there before the module.
  rintro (⟨j, i', hi', hb⟩ | hb)
  · rcases getElem?_set_cases hi' with ⟨-, rfl⟩ | ⟨-, hi'⟩
    · exact hno' (.inl hb)
    · exact Nat.not_lt.2 hle (he.there b (.inl ⟨j, i', hi', hb⟩))
  · exact hno' (.inr hb)

end Machine

theorem Host.furnished_afterDeeds {h : Host} {deeds : List Deed} (hd : ∀ d ∈ deeds, d.Told)
    (he : h.machine.Equipped) (hf : h.machine.Furnished) : (h.afterDeeds deeds).machine.Furnished :=
  (machine_afterDeeds (P := fun m => m.Equipped ∧ m.Furnished)
    (fun _ _ _ hm hs => ⟨hm.1.steps hs, hm.2.steps hm.1 hs⟩) hd ⟨he, hf⟩).2

end InstancePool
