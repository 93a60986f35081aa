import InstancePool.Proofs.Module.CachedModules
import InstancePool.Proofs.Instance.LoadOutcome

/-!
The instances of a new manager. Each has an interpreter of its own, with no modules but the two that come with
it, and all look for others in the registry of the manager.
-/

namespace InstancePool

open HostM

/-- An interpreter has no modules but the two that come with it, and looks for others in a registry. -/
structure Interp.Outfitted (i : Interp) (r : Nat) : Prop where
  modules : ∀ name, i.modules.get? name ≠ none → name = "runtime" ∨ name = "builtins"
  resolver : i.resolver = some (.registry r) ∨ i.resolver = some (.remote (.registry r))

theorem Interp.modules_create (heap : Heap) (searchPaths : List String) (failFinalize : Bool)
    (observer : Option Observer) (name : String)
    (hname : (Interp.create heap searchPaths failFinalize observer).interp.modules.get? name ≠ none) :
    name = "runtime" ∨ name = "builtins" := by
  by_cases hbuiltins : name = "builtins"
  · exact .inr hbuiltins
  · rw [Machine.create_modules _ _ _ _ hbuiltins] at hname
    split at hname
    · exact .inl ‹_›
    · exact absurd rfl hname

namespace Host

/-- From a host to a later one: nothing happened to interpreters, channels and instances. -/
structure SameInterps (h h' : Host) : Prop where
  heap : h'.machine.heap = h.machine.heap
  interps : h'.machine.interps = h.machine.interps
  channels : h'.channels = h.channels
  instances : h'.instances = h.instances

instance : Aside SameInterps where
  refl _ := ⟨rfl, rfl, rfl, rfl⟩
  trans hs hs' := ⟨hs'.heap.trans hs.heap, hs'.interps.trans hs.interps, hs'.channels.trans hs.channels,
    hs'.instances.trans hs.instances⟩
  supplies _ _ _ _ := ⟨rfl, rfl, rfl, rfl⟩
  record _ _ := ⟨rfl, rfl, rfl, rfl⟩

variable {h h' : Host} {l : LoaderId} {image k n r : Nat} {searchPaths plugins : List String} {link : Link}
  {spec : ManagerSpec} {number count : Nat} {ns ns' : List InstanceId} {m : ManagerId}

/-- Where an interpreter was made, it is the last one, and nobody has used the link to it. -/
theorem newInterp_made (hr : runOn h (newInterp l image searchPaths plugins) = (.ok link, h')) :
    ∃ failFinalize observer,
      h'.machine.heap = (h.machine.create searchPaths failFinalize observer).2.heap ∧
      h'.machine.interps = (h.machine.create searchPaths failFinalize observer).2.interps ∧
      h'.instances = h.instances ∧ h.channels <+: h'.channels ∧
      ∀ h'' : Host, h''.channels = h'.channels → h''.Unused h.machine.interps.length link := by
  have hr₀ := hr
  obtain ⟨behaviour, h₁, huse, -⟩ := bind_ok hr₀
  obtain ⟨loader, h₂, hl, -⟩ := bind_ok huse
  obtain ⟨hloader, -⟩ := find_ok hl
  rcases newInterp_cases image searchPaths plugins hloader with
    ⟨e, -, hfail⟩ | ⟨-, link', channels, hmade, hprefix, hunused⟩
  · cases hr.symm.trans hfail
  · cases hr.symm.trans hmade
    exact ⟨_, _, rfl, rfl, rfl, hprefix, hunused⟩

/-- An instance has an interpreter that is as its manager made it. -/
def Outfits (h : Host) (n : InstanceId) (r : Nat) : Prop :=
  ∃ k i, h.seat n = some k ∧ h.machine.interps[k]? = some i ∧ i.Outfitted r

/-- What comes after it makes no difference to an instance. -/
theorem Outfits.of_appended (ho : h.Outfits n r) (hinstances : h.instances <+: h'.instances)
    (hchannels : h.channels <+: h'.channels) (hinterps : h.machine.interps <+: h'.machine.interps) :
    h'.Outfits n r := by
  have hget {α : Type} {xs ys : List α} {j : Nat} {x : α} (hp : xs <+: ys) (hx : xs[j]? = some x) :
      ys[j]? = some x := by
    obtain ⟨rest, rfl⟩ := hp
    exact (List.getElem?_append_left (List.getElem?_eq_some_iff.1 hx).1).trans hx
  obtain ⟨k, i, hseat, hi, hfit⟩ := ho
  obtain ⟨link, hlink, hat⟩ := seat_eq.1 hseat
  obtain ⟨instance', hinstance, hl⟩ := Option.bind_eq_some_iff.1 hlink
  refine ⟨k, i, seat_eq.2 ⟨link, ?_, ?_⟩, hget hinterps hi, hfit⟩
  · rw [linkOf, hget hinstances hinstance]
    exact hl
  -- Neither a direct link nor a channel looks at what was added behind it.
  · cases link with
    | direct j => exact hat
    | channel c =>
      obtain ⟨live, e, hc, rfl⟩ := interpAt_channel_iff.1 hat
      exact interpAt_channel (hget hchannels hc)

/-- One more instance is outfitted, and the others are as they were. -/
theorem loadMember_outfits (hr : runOn h (loadMember spec r number) = (.ok n, h')) :
    h'.Outfits n r ∧ h.instances <+: h'.instances ∧ h.channels <+: h'.channels ∧
      h.machine.interps <+: h'.machine.interps := by
  obtain ⟨i, h₃, hload, hr⟩ := bind_ok hr
  obtain ⟨_, h₄, hadopt, hr⟩ := bind_ok hr
  obtain ⟨image, searchPaths, plugins, h₁, link, h₂, hs, hnew, hlink, hs'⟩ :=
    Instance.load_parts (R := SameInterps) hload
  obtain ⟨failFinalize, observer, hheap, hinterps, hinstances, hchannels, hunused⟩ := newInterp_made hnew
  obtain ⟨j, hfresh, -, -, -, hspace, -⟩ := h₁.machine.fresh_create searchPaths failFinalize observer
  have hlast : (h₁.machine.create searchPaths failFinalize observer).2.interps[h₁.machine.interps.length]? =
      some (Interp.create h₁.machine.heap searchPaths failFinalize observer).interp :=
    List.getElem?_concat_length
  obtain rfl := Option.some.inj (hlast.symm.trans hfresh.interp)
  -- The interpreter is as it was made when its manager makes it its own.
  have hheap₃ := hs'.heap.trans hheap
  have hinterps₃ := hs'.interps.trans hinterps
  have hfresh₃ : h₃.machine.Fresh h₁.machine.interps.length _ :=
    ⟨hinterps₃ ▸ hfresh.interp, hfresh.finalized, hfresh.sessions, hheap₃ ▸ hfresh.version⟩
  have hunused₃ := hunused h₃ hs'.channels
  obtain ⟨sessions, resolver, -, hresolver, hok⟩ :=
    Instance.adopt_ok r hlink hunused₃ hfresh₃ (hheap₃ ▸ hspace)
  cases (onFailure_ok hadopt).symm.trans hok
  cases hr
  have hinstances₃ : h₃.instances = h.instances := hs'.instances.trans (hinstances.trans hs.instances)
  have hlt : h₁.machine.interps.length < h₃.machine.interps.length :=
    (List.getElem?_eq_some_iff.1 hfresh₃.interp).1
  refine ⟨⟨h₁.machine.interps.length, _, seat_eq.2 ⟨link, ?_, ?_⟩, List.getElem?_set_self hlt, ?_⟩, ?_, ?_, ?_⟩
  · rw [linkOf, List.getElem?_concat_length]
    exact hlink
  · exact hunused₃.interpAt
  · exact ⟨Interp.modules_create h₁.machine.heap searchPaths failFinalize observer,
      hresolver.imp (congrArg some) (congrArg some)⟩
  · change h.instances <+: h₃.instances ++ [i]
    exact hinstances₃ ▸ List.prefix_append ..
  · change h.channels <+: h₃.channels
    exact hs'.channels ▸ hs.channels ▸ hchannels
  · change h.machine.interps <+: h₃.machine.interps.set h₁.machine.interps.length _
    rw [hinterps₃, Machine.create, List.set_append_right _ _ (Nat.le_refl _), hs.interps]
    exact List.prefix_append ..

theorem loadMembers_outfits (ho : ∀ n ∈ ns, h.Outfits n r)
    (hr : runOn h (loadMembers spec r ns number count) = (.ok ns', h')) : ∀ n ∈ ns', h'.Outfits n r := by
  induction count generalizing ns number h with
  | zero =>
    cases hr
    exact ho
  | succ count ih =>
    obtain ⟨n, h₁, hm, hr⟩ := bind_ok hr
    obtain ⟨hnew, hinstances, hchannels, hinterps⟩ := loadMember_outfits (onFailure_ok hm)
    refine ih (fun n' hn' => ?_) hr
    -- The instances before stay as they were while the next one is loaded.
    rcases List.mem_append.1 hn' with hn' | hn'
    · exact (ho n' hn').of_appended hinstances hchannels hinterps
    · rwa [List.mem_singleton.1 hn']

/-- The instances of a manager that was started are outfitted, and look for modules in the registry of the
manager. -/
theorem buildManager_outfits (hr : runOn h (buildManager spec) = (.ok m, h')) :
    ∃ manager, h'.managers[m]? = some manager ∧ manager.registry = h.registries.length ∧
      ∀ n ∈ manager.instances, h'.Outfits n h.registries.length := by
  obtain ⟨h₁, ns, balancer, fleet, hload, rfl, rfl⟩ := buildManager_ok hr
  refine ⟨_, List.getElem?_concat_length, rfl, fun n hn => ?_⟩
  obtain ⟨k, i, hseat, hi, hfit⟩ := loadMembers_outfits (fun _ hn => by cases hn) hload n hn
  exact ⟨k, i, hseat, hi, hfit⟩

theorem Outfits.consults (ho : h.Outfits n r) : ∃ k, h.Consults n k r ∧
    ∀ name, name ≠ "runtime" → name ≠ "builtins" → h.Lacks k name := by
  obtain ⟨k, i, hseat, hi, hfit⟩ := ho
  refine ⟨k, ⟨hseat, i, hi, hfit.resolver⟩, fun name hruntime hbuiltins => ⟨i, hi, ?_⟩⟩
  exact Decidable.byContradiction fun hname => (hfit.modules name hname).elim hruntime hbuiltins

end Host

end InstancePool
