import InstancePool.Proofs.Host.LinkUse
import InstancePool.Proofs.Instance.LoadSteps

/-!
Loading and tearing down instances. All that it touches is new: the interpreters and the channels that
were there before are spared.
-/

namespace InstancePool

open HostM

/-- The channels from `C` on lead to interpreters from `K` on. -/
structure Host.Above (K C : Nat) (h : Host) : Prop where
  interps : K ≤ h.machine.interps.length
  channels : C ≤ h.channels.length
  leads : ∀ c live e, C ≤ c → h.channels[c]? = some ⟨live, .exported e⟩ → K ≤ e.interp

/-- Interpreters below `K` and channels below `C` are spared by what happens above them. -/
def Host.SparesBelow (K C : Nat) (h h' : Host) : Prop :=
  h.Above K C → h'.Above K C ∧ h.Spares (· < K) (· < C) h'

/-- A link to something new. -/
def Link.From (K C : Nat) : Link → Prop
  | .direct n => K ≤ n
  | .channel c => C ≤ c

namespace Host

variable {α : Type} {K C : Nat} {S T : Nat → Prop} {h h₁ h₂ : Host}

theorem Above.of_spares (ha : h₁.Above K C) (hs : h₁.Spares (· < K) T h₂) : h₂.Above K C where
  interps := Nat.le_trans ha.interps hs.machine.length_le
  channels := Nat.le_trans ha.channels hs.channels_le
  leads c live e hc he := by
    rcases hs.back c live e he with ⟨live', e', he', hi⟩ | ⟨-, hi⟩
    · rw [hi]
      exact ha.leads c live' e' hc he'
    · exact Nat.le_of_not_lt hi

instance : Frame (SparesBelow K C) where
  refl h ha := ⟨ha, .refl h⟩
  trans hs hs' ha := by
    obtain ⟨ha', hs⟩ := hs ha
    obtain ⟨ha'', hs'⟩ := hs' ha'
    exact ⟨ha'', hs.trans hs'⟩

theorem Spares.below (hs : h₁.Spares (· < K) (· < C) h₂) : h₁.SparesBelow K C h₂ :=
  fun ha => ⟨ha.of_spares hs, hs⟩

theorem within_below {x : HostM α} (hx : Within (Spares (· < K) (· < C)) x) :
    Within (SparesBelow K C) x :=
  hx.mono fun _ _ => Spares.below

instance : Aside (Spares S T) where
  supplies _ _ _ _ := SameBooks.spares ⟨rfl, rfl, rfl, rfl, rfl, rfl, rfl⟩ (.refl _) rfl
  record h entry := Spares.ofMachine (h.machine.spares_record entry)

instance : Aside (SparesBelow K C) where
  supplies h _ _ _ := Spares.below (Aside.supplies h _ _ _)
  record h entry := Spares.below (Aside.record h entry)

theorem SparesBelow.bind {β : Type} {x : HostM α} {f : α → HostM β}
    (hx : h.SparesBelow K C (runOn h x).2)
    (hf : ∀ a h', h.Above K C → runOn h x = (.ok a, h') →
      h'.SparesBelow K C (runOn h' (f a)).2) :
    h.SparesBelow K C (runOn h (x >>= f)).2 := by
  intro ha
  rw [runOn_bind]
  rcases hr : runOn h x with ⟨e | a, h'⟩
  · rw [hr] at hx
    exact hx ha
  · rw [hr] at hx
    exact Frame.trans (R := SparesBelow K C) hx (hf a h' ha hr) ha

/-- A channel is added to an interpreter that there is no need to spare. -/
theorem within_exportInterp {n : Nat} (hn : ¬ S n) : Within (Spares S T) (exportInterp n) := by
  intro h
  refine ⟨⟨rfl, rfl, rfl, rfl, rfl, rfl, rfl⟩, .refl _, ?_, ?_, ?_⟩
  · simp only [exportInterp, addChannel, runOn_of, List.length_append]
    omega
  · intro c live e hc
    have hlt : c < h.channels.length := (List.getElem?_eq_some_iff.1 hc).1
    refine ⟨live, e, ?_, rfl, fun _ => rfl⟩
    simp only [exportInterp, addChannel, runOn_of, List.getElem?_append_left hlt, hc]
  · intro c live e hc
    simp only [exportInterp, addChannel, runOn_of] at hc
    rcases getElem?_append_cases hc with hc | ⟨hle, he⟩
    · exact .inl ⟨live, e, hc, rfl⟩
    · cases List.mem_singleton.1 he
      exact .inr ⟨hle, hn⟩

theorem create_interp (m : Machine) (searchPaths : List String) (failFinalize : Bool)
    (observer : Option Observer) :
    ∃ i, (m.create searchPaths failFinalize observer).2.interps[m.interps.length]? = some i ∧
      i.loaded = Table.empty ∧ i.finalized = false :=
  ⟨_, List.getElem?_concat_length .., rfl, rfl⟩

/-- The new interpreter of an image, and the link that leads to it. -/
theorem newInterp_ok {l : LoaderId} {image : Nat} {searchPaths plugins : List String} {link : Link}
    (hr : runOn h₁ (newInterp l image searchPaths plugins) = (.ok link, h₂)) :
    h₂.Serves link h₁.machine.interps.length ∧
      (∃ i, h₂.machine.interps[h₁.machine.interps.length]? = some i ∧ i.loaded = Table.empty) ∧
      link.From h₁.machine.interps.length h₁.channels.length := by
  unfold newInterp at hr
  obtain ⟨behaviour, h', hu, hr⟩ := bind_ok hr
  obtain ⟨loader, h'', hl, hu⟩ := bind_ok hu
  obtain ⟨-, rfl⟩ := find_ok hl
  split at hu
  · cases hu
  · cases hu
    obtain ⟨n, h', hc, hr⟩ := bind_ok hr
    cases hc
    obtain ⟨i, hi, hl, hf⟩ := create_interp (h₁.machine.record (.image l image
      (.created searchPaths plugins))) searchPaths
      (loader.behaviour image).failFinalize (some ⟨l, image⟩)
    split at hr
    · cases hr
      have hlast := List.getElem?_concat_length (l := h₁.channels)
        (a := ⟨true, Peer.exported { interp := h₁.machine.interps.length }⟩)
      refine ⟨⟨?_, ?_, ⟨i, hi, hf⟩⟩, ⟨i, hi, hl⟩, Nat.le_refl _⟩
      · exact interpAt_channel (e := { interp := h₁.machine.interps.length }) hlast
      · rintro c ⟨⟩
        exact ⟨_, hlast⟩
    · cases hr
      exact ⟨⟨rfl, nofun, ⟨i, hi, hf⟩⟩, ⟨i, hi, hl⟩, Nat.le_refl _⟩

theorem below_newInterp (l : LoaderId) (image : Nat) (searchPaths plugins : List String) :
    Within (SparesBelow K C) (newInterp l image searchPaths plugins) := by
  unfold newInterp
  refine (within_useEntryPoint l image _ _).bind fun behaviour h => ?_
  refine SparesBelow.bind (Spares.below (Spares.ofMachine (h.machine.spares_create ..))) ?_
  intro n h' ha hr
  cases hr
  split
  · exact (within_below (within_exportInterp (Nat.not_lt.2 ha.interps))).map Link.channel _
  · exact Frame.refl _

end Host

namespace Link

open Host

variable {K C : Nat}

theorem below_finalize {l : Link} (hl : l.From K C) : Within (Host.SparesBelow K C) l.finalize := by
  intro h ha
  refine Spares.below (spares_finalize ?_ ?_) ha
  · intro k hk
    cases l with
    | direct n =>
      cases hk
      exact Nat.not_lt.2 hl
    | channel c =>
      obtain ⟨live, e, hc, rfl⟩ := interpAt_channel_iff.1 hk
      exact Nat.not_lt.2 (ha.leads c live e hl hc)
  · rintro c rfl
    exact Nat.not_lt.2 hl

end Link

namespace Instance

open Host

variable {K C : Nat}

theorem below_close {i : Instance} (hi : ∀ l, i.link = some l → l.From K C) :
    Within (SparesBelow K C) i.close :=
  within_close fun l hl => Link.below_finalize (hi l hl)

theorem below_load (number : Nat) (spec : ImageSpec) (env : EnvironmentId) :
    Within (SparesBelow K C) (Instance.load number spec env) := by
  refine within_load number spec env fun image searchPaths plugins cleanup f hcleanup hf h => ?_
  refine SparesBelow.bind (((below_newInterp _ _ _ _).onFailure hcleanup) h) ?_
  intro link h' ha hr
  obtain ⟨-, -, hl⟩ := newInterp_ok (onFailure_ok hr)
  refine hf link (Link.below_finalize ?_) h'
  cases link with
  | direct n => exact Nat.le_trans ha.interps hl
  | channel c => exact Nat.le_trans ha.channels hl

/-- Where an instance was loaded, its interpreter was made, and nothing else was done to interpreters. -/
theorem load_parts {R : Host → Host → Prop} [Aside R] {number : Nat} {spec : ImageSpec} {env : EnvironmentId}
    {h h' : Host} {i : Instance} (hr : runOn h (Instance.load number spec env) = (.ok i, h')) :
    ∃ image searchPaths plugins h₁ link h₂, R h h₁ ∧
      runOn h₁ (newInterp spec.loader image searchPaths plugins) = (.ok link, h₂) ∧ i.link = some link ∧
      R h₂ h' := by
  unfold load at hr
  obtain ⟨main, h₁, hmain, hr⟩ := bind_ok hr
  obtain ⟨image, h₂, himage, hr⟩ := bind_ok hr
  have hs₁ := (within_extract (R := R) _ _).of_eq hmain
  have hs₂ := Frame.trans hs₁ ((within_openImage _ _ _).of_eq (onFailure_ok himage))
  simp only [] at hr
  -- Nothing up to here concerns interpreters, whether the image is bound to itself or not.
  obtain ⟨h₃, hs₃, hr⟩ : ∃ h₃, R h h₃ ∧ runOn h₃ _ = (.ok i, h') := by
    split at hr
    · obtain ⟨_, h₃, hb, hr⟩ := bind_ok hr
      exact ⟨h₃, Frame.trans hs₂ ((within_bindSelf _ _).of_eq (onFailure_ok hb)), hr⟩
    · exact ⟨h₂, hs₂, hr⟩
  obtain ⟨⟨plugins, failure⟩, h₄, hp, hr⟩ := bind_ok hr
  have hs₄ := Frame.trans hs₃ ((within_extractEach _ _).of_eq hp)
  cases failure with
  | some e =>
    obtain ⟨_, h₅, -, hr⟩ := bind_ok hr
    cases hr
  | none =>
    obtain ⟨environment, h₅, hf, hr⟩ := bind_ok hr
    obtain ⟨-, rfl⟩ := find_ok hf
    obtain ⟨link, h₅, hlink, hr⟩ := bind_ok hr
    obtain ⟨_, h₆, hconf, hr⟩ := bind_ok hr
    cases hr
    exact ⟨_, _, _, _, link, h₅, hs₄, onFailure_ok hlink, rfl,
      (within_configure _ _).of_eq (onFailure_ok hconf)⟩

/-- A loaded instance has a link to an interpreter that is new, and has nothing loaded. -/
theorem load_ok {number : Nat} {spec : ImageSpec} {env : EnvironmentId} {h h' : Host} {i : Instance}
    (hr : runOn h (Instance.load number spec env) = (.ok i, h')) :
    ∃ link k, i.link = some link ∧ h'.Serves link k ∧ h.machine.interps.length ≤ k ∧
      (∃ j, h'.machine.interps[k]? = some j ∧ j.loaded = Table.empty) ∧
      link.From h.machine.interps.length h.channels.length := by
  obtain ⟨image, searchPaths, plugins, h₁, link, h₂, hs, hlink, hi, hs'⟩ :=
    load_parts (R := Spares (fun _ => True) fun _ => True) hr
  obtain ⟨hserves, ⟨j, hj, hl⟩, hfrom⟩ := newInterp_ok hlink
  obtain ⟨j', hj', halike⟩ := hs'.machine.interp _ j trivial hj
  refine ⟨link, _, hi, hserves.of_spares hs' trivial fun _ _ => trivial, hs.machine.length_le,
    ⟨j', hj', halike.loaded.trans hl⟩, ?_⟩
  cases link with
  | direct n => exact Nat.le_trans hs.machine.length_le hfrom
  | channel c => exact Nat.le_trans hs.channels_le hfrom

end Instance

end InstancePool
