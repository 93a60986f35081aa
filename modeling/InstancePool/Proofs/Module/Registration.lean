import Mathlib.Data.List.Induction
import InstancePool.Proofs.Host.RoutineActions

/-!
The texts of a manager. It shares its registry with no other manager, and nothing changes the registry but a
registration: what was registered last for a name is the text for it.
-/

namespace InstancePool

open HostM

namespace Registry

/-- The text that was given last for a name. -/
def latest (texts : List (String × String)) (name : String) : Option String :=
  (texts.reverse.find? fun t => t.1 = name).map Prod.snd

theorem ofList_concat (texts : List (String × String)) (t : String × String) :
    Table.ofList (texts ++ [t]) = (Table.ofList texts).insert t.1 t.2 :=
  List.foldl_append

theorem get?_ofList (texts : List (String × String)) (name : String) :
    (Table.ofList texts).get? name = latest texts name := by
  -- A text at the end is the last one for its name, so the induction goes from the end.
  induction texts using List.reverseRec with
  | nil => rfl
  | append_singleton texts t ih =>
    rw [ofList_concat, Table.get?_insert, ih, latest, latest, List.reverse_concat, List.find?_cons]
    by_cases hn : name = t.1
    · rw [if_pos hn, decide_eq_true hn.symm]
      rfl
    · rw [if_neg hn, decide_eq_false (Ne.symm hn)]

end Registry

/-- The text that an action registers with a manager. -/
def Action.registers? (m : ManagerId) : Action → Option (String × String)
  | register m' name source => if m' = m then some (name, source) else none
  | _ => none

/-- The texts that some actions register with a manager, in order. -/
def registrations (m : ManagerId) (actions : List Action) : List (String × String) :=
  actions.filterMap (Action.registers? m)

theorem registrations_append (m : ManagerId) (earlier later : List Action) :
    registrations m (earlier ++ later) = registrations m earlier ++ registrations m later :=
  List.filterMap_append

/-- The registry of a manager. -/
def Host.registryOf (h : Host) (m : ManagerId) : Option Nat := (h.managers[m]?).map Manager.registry

/-- From a host to a later one: the registries are as they were, and so are those that have them. -/
structure Host.SameTexts (h h' : Host) : Prop where
  registries : h'.registries = h.registries
  registryOf : ∀ m, h'.registryOf m = h.registryOf m

namespace Host

variable {α : Type} {h h' : Host} {m : ManagerId} {r : Nat} {texts : List (String × String)}

theorem sameTexts_of_eq (hr : h'.registries = h.registries) (hm : h'.managers = h.managers) :
    h.SameTexts h' := ⟨hr, fun m => by rw [registryOf, registryOf, hm]⟩

theorem sameTexts_onChannel {c : Nat} {f : ChannelStep α} : Within SameTexts (onChannel c f) := by
  intro h
  unfold onChannel
  rw [runOn_of]
  split <;> exact sameTexts_of_eq rfl rfl

end Host

namespace Link

open Host

theorem sameTexts_openSession (l : Link) : Within SameTexts l.openSession := by
  cases l with
  | direct n => exact fun _ => sameTexts_of_eq rfl rfl
  | channel c => exact sameTexts_onChannel

theorem sameTexts_perform (key : SessionKey) (op : Op) (l : Link) :
    Within SameTexts (l.perform key op) := by
  cases l with
  | direct n => exact fun _ => sameTexts_of_eq rfl rfl
  | channel c => exact sameTexts_onChannel

theorem sameTexts_closeSession (key : SessionKey) (l : Link) :
    Within SameTexts (l.closeSession key) := by
  cases l with
  | direct n => exact fun _ => sameTexts_of_eq rfl rfl
  | channel c => exact sameTexts_onChannel

theorem sameTexts_setResolver (r : Resolver) (l : Link) : Within SameTexts (l.setResolver r) := by
  cases l with
  | direct n => exact fun _ => sameTexts_of_eq rfl rfl
  | channel c => exact sameTexts_onChannel

theorem sameTexts_finalize (l : Link) : Within SameTexts l.finalize := by
  cases l with
  | direct n => exact fun _ => sameTexts_of_eq rfl rfl
  | channel c => exact sameTexts_onChannel

end Link

namespace Host

instance : Frame SameTexts where
  refl _ := sameTexts_of_eq rfl rfl
  trans hs hs' := ⟨hs'.registries.trans hs.registries, fun m => (hs'.registryOf m).trans (hs.registryOf m)⟩

instance : Aside SameTexts where
  supplies _ _ _ _ := sameTexts_of_eq rfl rfl
  record _ _ := sameTexts_of_eq rfl rfl

instance : Routine SameTexts where
  openSession := Link.sameTexts_openSession
  perform l key op _ := l.sameTexts_perform key op
  closeSession l key := l.sameTexts_closeSession key
  books _ _ _ _ _ _ := sameTexts_of_eq rfl rfl
  counts _ _ _ _ hm := ⟨rfl, map_getElem?_set hm rfl⟩

end Host

namespace Instance

open Host

theorem sameTexts_close (i : Instance) : Within SameTexts i.close :=
  within_close fun l _ => l.sameTexts_finalize

theorem sameTexts_newInterp (l : LoaderId) (image : Nat) (searchPaths plugins : List String) :
    Within SameTexts (newInterp l image searchPaths plugins) := by
  refine (within_useEntryPoint l image _ _).bind fun behaviour => Within.bind (R := SameTexts) ?_ fun n => ?_
  · exact fun _ => sameTexts_of_eq rfl rfl
  · split
    · exact Within.map (R := SameTexts) (fun _ => sameTexts_of_eq rfl rfl) _
    · exact within_pure _

theorem sameTexts_load (number : Nat) (spec : ImageSpec) (env : EnvironmentId) :
    Within SameTexts (Instance.load number spec env) :=
  within_load number spec env fun _ _ _ _ _ hcleanup hf =>
    ((sameTexts_newInterp _ _ _ _).onFailure hcleanup).bind fun link => hf link link.sameTexts_finalize

theorem sameTexts_adopt (registry : Nat) (i : Instance) : Within SameTexts (i.adopt registry) := by
  refine Within.bind (routine_withSession fun l key => ?_) fun _ => ?_
  · exact Within.bind ((l.sameTexts_perform key _).bind fun _ => within_settle _) fun version =>
      Within.bind ((l.sameTexts_perform key _).bind fun _ => within_settle _) fun number =>
        (l.sameTexts_perform key _).bind fun _ => within_pure _
  · unfold setResolver
    split
    · exact within_throw _
    · exact Link.sameTexts_setResolver _ _

end Instance

namespace Host

variable {h h' : Host} {m : ManagerId} {r : Nat} {texts : List (String × String)}

theorem sameTexts_closeInstance (n : InstanceId) : Within SameTexts (closeInstance n) :=
  (within_find _).bind fun i => Within.bind (fun _ => sameTexts_of_eq rfl rfl) fun _ => i.sameTexts_close

theorem sameTexts_loadMember (spec : ManagerSpec) (registry number : Nat) :
    Within SameTexts (loadMember spec registry number) :=
  (Instance.sameTexts_load _ _ _).bind fun i =>
    ((i.sameTexts_adopt registry).onFailure i.sameTexts_close.ignoring).bind fun _ _ =>
      sameTexts_of_eq rfl rfl

theorem sameTexts_loadMembers (spec : ManagerSpec) (registry : Nat) (loaded : List InstanceId)
    (number count : Nat) : Within SameTexts (loadMembers spec registry loaded number count) := by
  induction count generalizing loaded number with
  | zero => exact within_pure _
  | succ count ih =>
    exact ((sameTexts_loadMember spec registry number).onFailure
      (within_dropInstances fun n _ => sameTexts_closeInstance n)).bind fun _ => ih _ _

/-- No text comes or goes where none is registered and no manager is started. -/
theorem sameTexts_step {a : Action} (hr : ∀ m name source, a ≠ .register m name source)
    (hb : ∀ spec, a ≠ .buildManager spec) : Within SameTexts a.run := by
  cases a with
  | register m name source => exact absurd rfl (hr m name source)
  | buildManager spec => exact absurd rfl (hb spec)
  | addLoader | addSource | addEnvironment | elsewhere => exact fun _ => sameTexts_of_eq rfl rfl
  | loadInstance number spec env =>
    exact Within.lost ((Instance.sameTexts_load number spec env).bind fun _ _ => sameTexts_of_eq rfl rfl)
  | perform s op =>
    exact Within.lost ((within_find _).bind fun session => session.link.sameTexts_perform _ op)
  | shutdown m =>
    exact (within_find _).bind fun _ => within_closeInstances fun n _ => sameTexts_closeInstance n
  | dropManager m =>
    exact (within_find _).bind fun _ => within_dropInstances fun n _ => sameTexts_closeInstance n
  | closeInstance n => exact sameTexts_closeInstance n
  | dropInstance n => exact (sameTexts_closeInstance n).ignoring
  | _ => exact within_routine trivial (fun _ _ _ he => by cases he) fun _ _ he => by cases he

theorem step_register {manager : Manager} {sources : Table String String} (hm : h.managers[m]? = some manager)
    (hs : h.registries[manager.registry]? = some sources) (name source : String) :
    h.step (.register m name source) =
      { h with registries := h.registries.set manager.registry (sources.insert name source) } := by
  have hmanager : runOn h (getManager m) = (.ok manager, h) := by
    rw [getManager, runOn_find, hm, Option.elim]
  have hsources : runOn h (find fun h => h.registries[manager.registry]?) = (.ok sources, h) := by
    rw [runOn_find, hs, Option.elim]
  simp only [step, Action.run, register, getRegistry]
  rw [runOn_bind_ok hmanager, runOn_bind_ok ((runOn_bind_ok hmanager _).trans hsources)]
  rfl

/-- A registration changes one text in the registry of its manager, if there is such a manager. -/
theorem register_cases (h : Host) (m : ManagerId) (name source : String) :
    h.step (.register m name source) = h ∨ ∃ manager sources, h.managers[m]? = some manager ∧
      h.registries[manager.registry]? = some sources ∧ h.step (.register m name source) =
        { h with registries := h.registries.set manager.registry (sources.insert name source) } := by
  rcases find_cases (fun h => h.managers[m]?) h with ⟨-, hr⟩ | ⟨manager, hm, hr⟩
  · refine .inl ?_
    simp only [step, Action.run, register, getManager]
    rw [runOn_bind_error hr]
  · rcases find_cases (fun h => h.registries[manager.registry]?) h with ⟨-, hr'⟩ | ⟨sources, hs, -⟩
    · refine .inl ?_
      simp only [step, Action.run, register, getRegistry, getManager]
      rw [runOn_bind_ok hr, runOn_bind_error ((runOn_bind_ok hr _).trans hr')]
    · exact .inr ⟨manager, sources, hm, hs, step_register hm hs name source⟩

/-- Every manager has a registry. -/
def Catalogued (h : Host) : Prop := ∀ m r, h.registryOf m = some r → r < h.registries.length

theorem SameTexts.catalogued (hs : h.SameTexts h') (hc : h.Catalogued) : h'.Catalogued := fun m r hr => by
  rw [hs.registries]
  exact hc m r ((hs.registryOf m).symm.trans hr)

theorem catalogued_empty : Catalogued {} := fun _ _ hr => by cases hr

theorem registryOf_concat (h : Host) (managers : List Manager) (manager : Manager)
    (hm : h.managers = managers ++ [manager]) (m : ManagerId) : h.registryOf m =
      if m = managers.length then some manager.registry else (managers[m]?).map Manager.registry := by
  rw [registryOf, hm, getElem?_concat_eq]
  split <;> rfl

/-- A manager that was started has a registry of its own. -/
theorem buildManager_ok {spec : ManagerSpec} (hr : runOn h (buildManager spec) = (.ok m, h')) :
    ∃ h₁ ns balancer fleet,
      runOn { h with registries := h.registries ++ [Registry.create spec.modules] }
        (loadMembers spec h.registries.length [] 0 spec.count) = (.ok ns, h₁) ∧
      m = h₁.managers.length ∧ h' = { h₁ with
        fleet
        managers := h₁.managers ++ [{
          instances := ns
          registry := h.registries.length
          balancer
          environment := spec.environment }] } := by
  unfold buildManager at hr
  split at hr
  · cases hr
  · obtain ⟨registry, h₀, hadd, hr⟩ := bind_ok hr
    cases hadd
    obtain ⟨ns, h₁, hload, hr⟩ := bind_ok hr
    obtain ⟨balancer, h₂, hbalancer, hr⟩ := bind_ok hr
    refine ⟨h₁, ns, balancer, h₂.fleet, hload, ?_⟩
    rw [addBalancer, runOn_of] at hbalancer
    split at hbalancer
    · cases hbalancer
    · cases hbalancer
      cases hr
      exact ⟨rfl, rfl⟩

theorem catalogued_buildManager (spec : ManagerSpec) (hc : h.Catalogued) :
    (runOn h (buildManager spec)).2.Catalogued := by
  let h₀ : Host := { h with registries := h.registries ++ [Registry.create spec.modules] }
  have hlen : h₀.registries.length = h.registries.length + 1 := List.length_append
  have hc₀ : h₀.Catalogued := fun m r hr => hlen ▸ Nat.lt_succ_of_lt (hc m r hr)
  unfold buildManager
  split
  · exact hc
  · refine bind_rel (R := fun h h' => h.Catalogued → h'.Catalogued) (fun _ => hc₀) (fun registry h₁ hr => ?_) hc
    cases hr
    have hload := sameTexts_loadMembers spec h.registries.length [] 0 spec.count h₀
    refine bind_rel (R := fun h h' => h.Catalogued → h'.Catalogued) hload.catalogued fun ns h₁ hr => ?_
    rw [hr] at hload
    -- The registry was added before the instances were loaded, and no registry went since.
    have hlt : h.registries.length < h₁.registries.length := by
      rw [hload.registries, hlen]
      exact Nat.lt_succ_self _
    have hbalancer : h₁.SameTexts (runOn h₁ (addBalancer spec.count)).2 := by
      rw [addBalancer, runOn_of]
      split <;> exact sameTexts_of_eq rfl rfl
    refine bind_rel (R := fun h h' => h.Catalogued → h'.Catalogued) hbalancer.catalogued fun b h₂ hr₂ => ?_
    rw [hr₂] at hbalancer
    intro hc₂ m r hm
    rw [registryOf_concat _ _ _ rfl] at hm
    split at hm
    · cases hm
      exact hbalancer.registries ▸ hlt
    · exact hc₂ m r hm

theorem Catalogued.step (hc : h.Catalogued) (a : Action) : (h.step a).Catalogued := by
  cases a with
  | register m name source =>
    rcases register_cases h m name source with hsame | ⟨manager, sources, -, -, hset⟩
    · rwa [hsame]
    · rw [hset]
      intro m' r hr
      exact (List.length_set ..).symm ▸ hc m' r hr
  | buildManager spec =>
    rw [Host.step, Action.run, runOn_lost]
    exact catalogued_buildManager spec hc
  | _ => exact (sameTexts_step (fun _ _ _ he => by cases he) (fun _ he => by cases he) h).catalogued hc

theorem Catalogued.after (hc : h.Catalogued) (actions : List Action) : (h.after actions).Catalogued := by
  induction actions generalizing h with
  | nil => exact hc
  | cons a actions ih => exact ih (hc.step a)

/-- A manager, and no other, has the registry `r`, which holds these texts. -/
structure Publishes (h : Host) (m : ManagerId) (r : Nat) (texts : List (String × String)) : Prop where
  own : h.registryOf m = some r
  alone : ∀ m', h.registryOf m' = some r → m' = m
  holds : h.registries[r]? = some (Table.ofList texts)

theorem Publishes.of_sameTexts (hp : h.Publishes m r texts) (hs : h.SameTexts h') :
    h'.Publishes m r texts where
  own := (hs.registryOf m).trans hp.own
  alone m' hm' := hp.alone m' ((hs.registryOf m').symm.trans hm')
  holds := by rw [hs.registries, hp.holds]

theorem Publishes.step {a : Action} (hp : h.Publishes m r texts) (hb : ∀ spec, a ≠ .buildManager spec) :
    (h.step a).Publishes m r (texts ++ registrations m [a]) := by
  cases a with
  | buildManager spec => exact absurd rfl (hb spec)
  | register m' name source =>
    obtain ⟨manager, hm, hr⟩ := Option.map_eq_some_iff.1 hp.own
    -- Each manager has a registry that no other has, so what others register does not matter.
    by_cases hmm : m' = m
    · subst hmm
      have hnew : registrations m' [.register m' name source] = [(name, source)] := by
        simp only [registrations, List.filterMap_cons, Action.registers?, if_true, List.filterMap_nil]
      rw [hnew, step_register hm (hr ▸ hp.holds)]
      refine ⟨hp.own, hp.alone, ?_⟩
      rw [Registry.ofList_concat, hr]
      exact List.getElem?_set_self (List.getElem?_eq_some_iff.1 hp.holds).1
    · have hnone : registrations m [.register m' name source] = [] := by
        simp only [registrations, List.filterMap_cons, Action.registers?, if_neg hmm, List.filterMap_nil]
      rw [hnone, List.append_nil]
      rcases register_cases h m' name source with hsame | ⟨manager', sources, hm', -, hset⟩
      · rwa [hsame]
      · rw [hset]
        -- The registry of another manager is another one.
        have hne : manager'.registry ≠ r := fun he =>
          hmm (hp.alone m' (Option.map_eq_some_iff.2 ⟨manager', hm', he⟩))
        exact ⟨hp.own, hp.alone, (List.getElem?_set_ne hne).trans hp.holds⟩
  | _ =>
    rw [show registrations m [_] = [] from rfl, List.append_nil]
    exact hp.of_sameTexts (sameTexts_step (fun _ _ _ he => by cases he) (fun _ he => by cases he) h)

theorem Publishes.after {actions : List Action} (hp : h.Publishes m r texts)
    (hb : ∀ a ∈ actions, ∀ spec, a ≠ .buildManager spec) :
    (h.after actions).Publishes m r (texts ++ registrations m actions) := by
  induction actions generalizing h texts with
  | nil => exact (List.append_nil texts).symm ▸ hp
  | cons a actions ih =>
    have hrest := ih (hp.step (hb a List.mem_cons_self)) fun b hmem => hb b (List.mem_cons_of_mem a hmem)
    rwa [List.append_assoc, ← registrations_append] at hrest

/-- A manager that was started has its own module and those that it was started with. -/
theorem buildManager_publishes {spec : ManagerSpec} (hc : h.Catalogued)
    (hr : runOn h (buildManager spec) = (.ok m, h')) : h'.Publishes m h.registries.length
      ((Registry.argumentModule, Registry.argumentSource) :: spec.modules) := by
  obtain ⟨h₁, ns, balancer, fleet, hload, rfl, rfl⟩ := buildManager_ok hr
  have hs := (sameTexts_loadMembers spec h.registries.length [] 0 spec.count).of_eq hload
  refine ⟨?_, fun m' hm' => ?_, ?_⟩
  · rw [registryOf_concat _ _ _ rfl, if_pos rfl]
  · rw [registryOf_concat _ _ _ rfl] at hm'
    split at hm'
    · assumption
    · -- All other managers had their registries before.
      exact absurd (hc m' _ ((hs.registryOf m').symm.trans hm')) (Nat.lt_irrefl _)
  · change h₁.registries[h.registries.length]? = _
    rw [hs.registries]
    exact List.getElem?_concat_length

end Host

end InstancePool
