import InstancePool.Proofs.Image.InstanceImages

/-!
The journal tells the life of every image. As long as an instance has the image, it tells of what it took
to load the instance and of nothing else. Once the instance is gone, it tells of the teardown, and that
is the last.
-/

namespace InstancePool

open HostM

/-- All is told of an image that no instance has: if it ever made an interpreter, then what it took to
load an instance, and after that the teardown. -/
def ImageBehaviour.Told (b : ImageBehaviour) (events : List ImageEvent) : Prop :=
  (∀ event ∈ events, event.creates = false) ∨
    ∃ info paths, events = InstanceInfo.past info paths ++ b.fate info.customLoader

namespace Host

/-- An instance has an image of a loader. -/
structure Holds (l : LoaderId) (a : Nat) (n : InstanceId) (i : Instance) (h : Host) : Prop where
  there : h.instances[n]? = some i
  loader : i.loader = l
  image : i.image = some a

/-- Instances are there in the order of their numbers, and none of them twice. -/
structure Rostered (ns : List InstanceId) (h : Host) : Prop where
  nodup : ns.Nodup
  number : ∀ (j : Nat) (n : InstanceId), ns[j]? = some n →
    ∃ i, h.instances[n]? = some i ∧ i.info.number = j

/-- No image is held by two instances, every instance that has one can be torn down, and the journal
tells of every image what there is to tell. -/
structure Chronicled (h : Host) : Prop where
  manned : ∀ l a n i, h.Holds l a n i → ∃ loader k, h.loaders[l]? = some loader ∧
    a < loader.attempts ∧ h.Manned loader.behaviour a k i
  past : ∀ l a n i, h.Holds l a n i →
    ∃ paths, history l a h.machine.journal = i.info.past paths
  gone : ∀ (n : Nat) (i : Instance), h.instances[n]? = some i → i.image = none → i.link = none
  alone : ∀ l a n n' i i', h.Holds l a n i → h.Holds l a n' i' → n = n'
  rosters : ∀ manager ∈ h.managers, h.Rostered manager.instances
  unopened : ∀ l a, ¬ h.HasOpened l a → history l a h.machine.journal = []
  told : ∀ (l a : Nat) (loader : Loader), h.loaders[l]? = some loader →
    (∀ n i, ¬ h.Holds l a n i) → (loader.behaviour a).Told (history l a h.machine.journal)

/-- From a host to a later one: an instance keeps its image, about which nothing is put down, or it is
torn down as the image has it. After that nothing happens to either. -/
structure Advances (h h' : Host) : Prop where
  chronicled : h'.Chronicled
  loaders : ∀ (l : Nat) (loader : Loader), h.loaders[l]? = some loader →
    ∃ loader', h'.loaders[l]? = some loader' ∧ loader'.behaviour = loader.behaviour ∧
      loader.attempts ≤ loader'.attempts
  spent : ∀ (n : Nat) (i : Instance), h.instances[n]? = some i → i.image = none →
    h'.instances[n]? = some i
  held : ∀ l a n i loader, h.Holds l a n i → h.loaders[l]? = some loader →
    h'.instances[n]? = some i ∧
        history l a h'.machine.journal = history l a h.machine.journal ∨
      h'.instances[n]? = some i.spent ∧ (∀ n' i', ¬ h'.Holds l a n' i') ∧
        history l a h'.machine.journal =
          history l a h.machine.journal ++ (loader.behaviour a).fate i.info.customLoader
  buried : ∀ l a, h.HasOpened l a → (∀ n i, ¬ h.Holds l a n i) →
    (∀ n i, ¬ h'.Holds l a n i) ∧ history l a h'.machine.journal = history l a h.machine.journal

/-- The journal tells on what it should. -/
def Chronicles (h h' : Host) : Prop := h.Chronicled → h.Advances h'

variable {α : Type} {A : LoaderId → Nat → Prop} {h h' h₁ h₂ h₃ : Host} {l : LoaderId} {a k : Nat}
  {n : InstanceId} {i : Instance}

theorem Chronicled.advances (hc : h.Chronicled) : h.Advances h where
  chronicled := hc
  loaders _ loader hl := ⟨loader, hl, rfl, Nat.le_refl _⟩
  spent _ _ hi _ := hi
  held _ _ _ _ _ hh _ := .inl ⟨hh.there, rfl⟩
  buried _ _ _ hn := ⟨hn, rfl⟩

theorem Advances.hasOpened (ha : h₁.Advances h₂) (ho : h₁.HasOpened l a) : h₂.HasOpened l a := by
  obtain ⟨loader, hl, hlt⟩ := ho
  obtain ⟨loader', hl', -, hle⟩ := ha.loaders l loader hl
  exact ⟨loader', hl', Nat.lt_of_lt_of_le hlt hle⟩

theorem Chronicled.hasOpened (hc : h.Chronicled) (hh : h.Holds l a n i) : h.HasOpened l a := by
  obtain ⟨loader, _, hl, hlt, -⟩ := hc.manned l a n i hh
  exact ⟨loader, hl, hlt⟩

theorem Advances.trans (hc : h₁.Chronicled) (ha : h₁.Advances h₂) (ha' : h₂.Advances h₃) :
    h₁.Advances h₃ where
  chronicled := ha'.chronicled
  loaders l loader hl := by
    obtain ⟨loader', hl', hb, hle⟩ := ha.loaders l loader hl
    obtain ⟨loader'', hl'', hb', hle'⟩ := ha'.loaders l loader' hl'
    exact ⟨loader'', hl'', hb'.trans hb, Nat.le_trans hle hle'⟩
  spent n i hi hn := ha'.spent n i (ha.spent n i hi hn) hn
  held l a n i loader hh hl := by
    obtain ⟨loader', hl', hb, -⟩ := ha.loaders l loader hl
    rcases ha.held l a n i loader hh hl with ⟨hi, hj⟩ | ⟨hi, hn, hj⟩
    · rw [← hj, ← hb]
      exact ha'.held l a n i loader' ⟨hi, hh.loader, hh.image⟩ hl'
    · obtain ⟨hn', hj'⟩ := ha'.buried l a (ha.hasOpened (hc.hasOpened hh)) hn
      exact .inr ⟨ha'.spent n _ hi rfl, hn', hj'.trans hj⟩
  buried l a ho hn := by
    obtain ⟨hn', hj⟩ := ha.buried l a ho hn
    obtain ⟨hn'', hj'⟩ := ha'.buried l a (ha.hasOpened ho) hn'
    exact ⟨hn'', hj'.trans hj⟩

instance : Frame Chronicles where
  refl _ hc := hc.advances
  trans ha ha' hc := (ha hc).trans hc (ha' (ha hc).chronicled)

/-- Nothing is put down about other images. -/
theorem Tends.history_eq (ht : h.Tends A h') (hA : ¬ A l a) :
    history l a h'.machine.journal = history l a h.machine.journal := by
  obtain ⟨entries, hj, hh⟩ := ht.journal
  rcases hh l a with he | ⟨hA', -⟩
  · rw [hj, history_append, he, List.append_nil]
  · exact absurd hA' hA

/-- An instance with another image can still be torn down. -/
theorem Tends.manned {b : Nat → ImageBehaviour} (ht : h.Tends A h') (hA : ¬ A i.loader a)
    (hm : h.Manned b a k i) : h'.Manned b a k i where
  opened := hm.opened
  link := by
    obtain ⟨link, hl, hc⟩ := hm.link
    refine ⟨link, hl, ?_⟩
    cases link with
    | direct n => exact hc
    | channel c =>
      obtain ⟨e, hce, rfl⟩ := hc
      obtain ⟨live, e', hce', he, hlive⟩ := ht.channel c true e hce
      obtain ⟨j, hj, hobserver, -⟩ := hm.interp
      rw [hlive i.loader a ⟨j, hj, hobserver⟩ hA] at hce'
      exact ⟨e', hce', he⟩
  interp := by
    obtain ⟨j, hj, hobserver, hfail⟩ := hm.interp
    obtain ⟨j', hj', hs⟩ := ht.recalls k j hj
    exact ⟨j', hj', hs.observer.trans hobserver, hs.failFinalize.trans hfail⟩

theorem Tends.history_unopened (ht : h.Tends A h')
    (hu : ∀ l a, ¬ h.HasOpened l a → history l a h.machine.journal = []) (l : LoaderId) (a : Nat)
    (ho : ¬ h'.HasOpened l a) : history l a h'.machine.journal = [] := by
  obtain ⟨entries, hj, hh⟩ := ht.journal
  rcases hh l a with he | ⟨-, ho'⟩
  · rw [hj, history_append, he, List.append_nil]
    exact hu l a fun hopened => ho (ht.hasOpened hopened)
  · exact absurd ho' ho

/-- What is told of another image is told with the same right. -/
theorem Tends.told {loader' : Loader} (ht : h.Tends A h') (hA : ¬ A l a)
    (hu : ∀ l a, ¬ h.HasOpened l a → history l a h.machine.journal = [])
    (hl' : h'.loaders[l]? = some loader')
    (ho : ∀ loader, h.loaders[l]? = some loader →
      (loader.behaviour a).Told (history l a h.machine.journal)) :
    (loader'.behaviour a).Told (history l a h'.machine.journal) := by
  rw [ht.history_eq hA]
  cases hl : h.loaders[l]? with
  | some loader =>
    obtain ⟨loader'', hl'', hb, -⟩ := ht.loaders l loader hl
    obtain rfl := Option.some.inj (hl''.symm.trans hl')
    rw [hb]
    exact ho loader hl
  | none =>
    -- There was no loader, let alone an image.
    have hnot : ¬ h.HasOpened l a := by
      rintro ⟨loader, hl', -⟩
      cases hl.symm.trans hl'
    rw [hu l a hnot]
    exact .inl fun _ he => by cases he

theorem Rostered.mono {ns : List InstanceId} (hr : h.Rostered ns)
    (hi : ∀ (n : Nat) (i : Instance), h.instances[n]? = some i →
      ∃ i', h'.instances[n]? = some i' ∧ i'.info.number = i.info.number) : h'.Rostered ns where
  nodup := hr.nodup
  number j n hj := by
    obtain ⟨i, hn, hnumber⟩ := hr.number j n hj
    obtain ⟨i', hn', he⟩ := hi n i hn
    exact ⟨i', hn', he.trans hnumber⟩

theorem Manned.seat {b : Nat → ImageBehaviour} (hm : h.Manned b a k i) (instances : List Instance)
    (managers : List Manager) : { h with instances, managers }.Manned b a k i :=
  ⟨hm.opened, hm.link, hm.interp⟩

/-- An instance has an image that was not there before, and nothing happened to that but what it takes to
load the instance. -/
structure Newcomer (i : Instance) (a : Nat) (h h' : Host) : Prop where
  unopened : ¬ h.HasOpened i.loader a
  manned : ∃ loader k, h'.loaders[i.loader]? = some loader ∧ a < loader.attempts ∧
    h'.Manned loader.behaviour a k i
  past : ∃ paths, history i.loader a h'.machine.journal = i.info.past paths

/-- Only images that were not there before are tended to. One more instance may have such an image, and
all is told of the others. -/
theorem advances_of_tends (hc : h.Chronicled) (ht : h.Tends (fun l a => ¬ h.HasOpened l a) h')
    {instances : List Instance} {managers : List Manager}
    (hthere : ∀ (n : Nat) (i : Instance), h.instances[n]? = some i → instances[n]? = some i)
    (hcome : ∀ (n : Nat) (i : Instance), instances[n]? = some i → h.instances[n]? = some i ∨
      n = h.instances.length ∧ ∃ a, h.Newcomer i a h')
    (hnew : ∀ (l : LoaderId) (a : Nat) (loader : Loader), ¬ h.HasOpened l a →
      h'.loaders[l]? = some loader → (∀ n i, ¬ { h' with instances, managers }.Holds l a n i) →
      (loader.behaviour a).Told (history l a h'.machine.journal))
    (hmanagers : ∀ manager ∈ managers, manager ∈ h'.managers ∨ h.Rostered manager.instances) :
    h.Advances { h' with instances, managers } := by
  have hsame {l : LoaderId} {a : Nat} (ho : h.HasOpened l a) :=
    ht.history_eq (l := l) (a := a) fun hA => hA ho
  have hkeep {l : LoaderId} {a : Nat} {n : InstanceId} {i : Instance} (hh : h.Holds l a n i) :
      { h' with instances, managers }.Holds l a n i := ⟨hthere n i hh.there, hh.loader, hh.image⟩
  -- Whoever has an image had it before, or it was not there before.
  have hholds {l : LoaderId} {a : Nat} {n : InstanceId} {i : Instance}
      (hh : { h' with instances, managers }.Holds l a n i) : h.Holds l a n i ∨
        n = h.instances.length ∧ l = i.loader ∧ h.Newcomer i a h' := by
    refine (hcome n i hh.there).imp (fun hi => ⟨hi, hh.loader, hh.image⟩) fun hnew => ?_
    obtain ⟨hn, a', hcomer⟩ := hnew
    obtain ⟨_, _, -, -, hm⟩ := hcomer.manned
    obtain rfl := Option.some.inj (hm.opened.symm.trans hh.image)
    exact ⟨hn, hh.loader.symm, hcomer⟩
  refine ⟨⟨?_, ?_, ?_, ?_, ?_, ht.history_unopened hc.unopened, ?_⟩, ht.loaders, ?_, ?_, ?_⟩
  · intro l a n i hh
    rcases hholds hh with hh₁ | ⟨-, rfl, hcomer⟩
    · obtain ⟨loader, k, hl, hlt, hm⟩ := hc.manned l a n i hh₁
      obtain ⟨loader', hl', hb, hle⟩ := ht.loaders l loader hl
      refine ⟨loader', k, hl', Nat.lt_of_lt_of_le hlt hle, ?_⟩
      rw [hb]
      exact (ht.manned (fun hA => hA (hh.loader ▸ hc.hasOpened hh₁)) hm).seat _ _
    · obtain ⟨loader, k, hl, hlt, hm⟩ := hcomer.manned
      exact ⟨loader, k, hl, hlt, hm.seat _ _⟩
  · intro l a n i hh
    rcases hholds hh with hh₁ | ⟨-, rfl, hcomer⟩
    · obtain ⟨paths, hpast⟩ := hc.past l a n i hh₁
      exact ⟨paths, (hsame (hc.hasOpened hh₁)).trans hpast⟩
    · exact hcomer.past
  · intro n i hi hn
    rcases hcome n i hi with hi₁ | ⟨-, a, hcomer⟩
    · exact hc.gone n i hi₁ hn
    · obtain ⟨_, _, -, -, hm⟩ := hcomer.manned
      cases hn.symm.trans hm.opened
  · intro l a n n' i i' hh hh'
    rcases hholds hh with hh₁ | ⟨hn, rfl, hcomer⟩
    · rcases hholds hh' with hh₁' | ⟨-, rfl, hcomer'⟩
      · exact hc.alone l a n n' i i' hh₁ hh₁'
      · exact absurd (hc.hasOpened hh₁) hcomer'.unopened
    · rcases hholds hh' with hh₁' | ⟨hn', -⟩
      · exact absurd (hc.hasOpened hh₁') hcomer.unopened
      · exact hn.trans hn'.symm
  · intro manager hmanager
    have hrostered : h.Rostered manager.instances := by
      rcases hmanagers manager hmanager with hmem | hr
      · obtain ⟨manager', hm', he⟩ := ht.managers manager hmem
        exact he ▸ hc.rosters manager' hm'
      · exact hr
    exact hrostered.mono fun n i hi => ⟨i, hthere n i hi, rfl⟩
  · intro l a loader hl hn
    by_cases ho : h.HasOpened l a
    · exact ht.told (fun hA => hA ho) hc.unopened hl fun loader hl =>
        hc.told l a loader hl fun n i hh => hn n i (hkeep hh)
    · exact hnew l a loader ho hl hn
  · exact fun n i hi _ => hthere n i hi
  · exact fun l a n i loader hh _ => .inl ⟨hthere n i hh.there, hsame (hc.hasOpened hh)⟩
  · intro l a ho hn
    refine ⟨fun n i hh => ?_, hsame ho⟩
    rcases hholds hh with hh₁ | ⟨-, rfl, hcomer⟩
    · exact hn n i hh₁
    · exact hcomer.unopened ho

/-- Nobody has an image that was not there before. -/
theorem advances_of_told (hc : h.Chronicled) (ht : h.Tends (fun l a => ¬ h.HasOpened l a) h')
    (hnew : ∀ (l : LoaderId) (a : Nat) (loader : Loader), ¬ h.HasOpened l a →
      h'.loaders[l]? = some loader → (loader.behaviour a).Told (history l a h'.machine.journal)) :
    h.Advances h' :=
  advances_of_tends hc ht (fun n i hi => by rw [ht.instances]; exact hi)
    (fun n i hi => .inl (by rw [← ht.instances]; exact hi))
    (fun l a loader ho hl _ => hnew l a loader ho hl) fun _ => .inl

/-- Nothing happens to images. -/
theorem chronicles_of_tends (ht : h.Tends (fun _ _ => False) h') : h.Chronicles h' := by
  intro hc
  refine advances_of_told hc (ht.mono fun _ _ hf => hf.elim) fun l a loader ho _ => ?_
  rw [ht.history_eq id, hc.unopened l a ho]
  exact .inl fun _ he => by cases he

/-- From a host to a later one: an instance was loaded. It has an image that was not there before. -/
structure Mounts (i : Instance) (h h' : Host) : Prop where
  tends : h.Tends (fun l a => ¬ h.HasOpened l a) h'
  mounted : ∃ loader k paths, h.loaders[i.loader]? = some loader ∧
    h'.HasOpened i.loader loader.attempts ∧ h'.Manned loader.behaviour loader.attempts k i ∧
    h.Befalls i.loader loader.attempts (i.info.past paths) h'

/-- Nothing happens to the image of an instance before the instance is kept. -/
theorem Mounts.of_tends (hm : h₁.Mounts i h₂) (ht : h₂.Tends (fun _ _ => False) h₃) : h₁.Mounts i h₃ where
  tends := hm.tends.trans (ht.mono fun _ _ hf => hf.elim)
  mounted := by
    obtain ⟨loader, k, paths, hl, ho, hmanned, hb⟩ := hm.mounted
    refine ⟨loader, k, paths, hl, ht.hasOpened ho, ht.manned id hmanned, ?_⟩
    have hnothing : h₂.Befalls i.loader loader.attempts [] h₃ := by
      obtain ⟨entries, hj, hh⟩ := ht.journal
      refine ⟨entries, hj, fun l a => ?_⟩
      rw [ite_self]
      exact (hh l a).resolve_right fun hf => hf.1
    have hboth := hb.trans hnothing
    rw [List.append_nil] at hboth
    exact hboth

/-- The instance is kept. -/
theorem Mounts.advances (hm : h.Mounts i h') (hc : h.Chronicled) :
    h.Advances { h' with instances := h'.instances ++ [i] } := by
  obtain ⟨loader, k, paths, hl, ho, hmanned, hb⟩ := hm.mounted
  have hnot : ¬ h.HasOpened i.loader loader.attempts := not_hasOpened_attempts hl
  have hcomer : h.Newcomer i loader.attempts h' := by
    refine ⟨hnot, ?_, paths, ?_⟩
    · obtain ⟨loader', hl', hlt⟩ := ho
      obtain ⟨loader'', hl'', hbehaviour, -⟩ := hm.tends.loaders _ loader hl
      obtain rfl := Option.some.inj (hl'.symm.trans hl'')
      exact ⟨loader', k, hl', hlt, hbehaviour ▸ hmanned⟩
    · rw [hb.history_eq, hc.unopened _ _ hnot, if_pos ⟨rfl, rfl⟩, List.nil_append]
  refine advances_of_tends hc hm.tends (fun n i' hi => ?_) (fun n i' hi => ?_)
    (fun l a loader' hl' _ hn => ?_) fun _ => .inl
  · rw [← hm.tends.instances] at hi
    exact (List.getElem?_append_left (List.getElem?_eq_some_iff.1 hi).1).trans hi
  · rw [getElem?_concat_eq, hm.tends.instances] at hi
    split at hi
    · rename_i he
      cases hi
      exact .inr ⟨he, _, hcomer⟩
    · exact .inl hi
  · -- It is not the image of the instance, so nothing happened to it.
    have hne : ¬ (i.loader = l ∧ loader.attempts = a) := by
      rintro ⟨rfl, rfl⟩
      exact hn h'.instances.length i ⟨List.getElem?_concat_length, rfl, hmanned.opened⟩
    rw [hb.history_eq, hc.unopened l a hl', if_neg hne]
    exact .inl fun _ he => by cases he

/-- The instance is closed before it is kept. -/
theorem Mounts.close_advances (hm : h.Mounts i h') (hc : h.Chronicled) :
    h.Advances (runOn h' i.close).2 := by
  obtain ⟨loader, k, paths, hl, ho, hmanned, hb⟩ := hm.mounted
  have hnot : ¬ h.HasOpened i.loader loader.attempts := not_hasOpened_attempts hl
  obtain ⟨loader', hl', hbehaviour, -⟩ := hm.tends.loaders i.loader loader hl
  have hgrounded : i.Grounded loader.attempts h' := Instance.grounded_of_manned hmanned ho
  have hclose := Instance.tends_close (A := fun l a => ¬ h.HasOpened l a) hmanned.opened hnot h'
    hgrounded
  have hended := hb.trans (Instance.close_befalls (hbehaviour ▸ hmanned) hl')
  refine advances_of_told hc (hm.tends.trans hclose) fun l a loader'' hnew hl'' => ?_
  rw [hended.history_eq, hc.unopened l a hnew, List.nil_append]
  split
  · rename_i he
    obtain ⟨rfl, rfl⟩ := he
    obtain ⟨loader₃, hl₃, hbehaviour₃, -⟩ := hclose.loaders i.loader loader' hl'
    obtain rfl := Option.some.inj (hl₃.symm.trans hl'')
    rw [hbehaviour₃]
    exact .inr ⟨i.info, paths, rfl⟩
  · exact .inl fun _ he => by cases he

/-- An instance gives its image up, and what the image has left to tell is told. -/
theorem advances_of_spent (hc : h.Chronicled) (hh : h.Holds l a n i)
    (ht : { h with instances := h.instances.set n i.spent }.Tends (fun l' a' => l' = l ∧ a' = a) h')
    {loader : Loader} (hl : h.loaders[l]? = some loader)
    (hb : h.Befalls l a ((loader.behaviour a).fate i.info.customLoader) h') : h.Advances h' := by
  have hself : (h.instances.set n i.spent)[n]? = some i.spent :=
    List.getElem?_set_self (List.getElem?_eq_some_iff.1 hh.there).1
  have hholds {l' : LoaderId} {a' : Nat} {n' : InstanceId} {i' : Instance}
      (hh' : h'.Holds l' a' n' i') : n ≠ n' ∧ h.Holds l' a' n' i' := by
    have hi := hh'.there
    rw [ht.instances] at hi
    rcases getElem?_set_cases hi with ⟨-, rfl⟩ | ⟨hne, hi⟩
    · cases hh'.image
    · exact ⟨hne, hi, hh'.loader, hh'.image⟩
  have hkeep {n' : InstanceId} {i' : Instance} (hne : n ≠ n') (hi : h.instances[n']? = some i') :
      h'.instances[n']? = some i' := by
    rw [ht.instances]
    exact (List.getElem?_set_ne hne).trans hi
  -- The image of another instance is another image.
  have hother {l' : LoaderId} {a' : Nat} {n' : InstanceId} {i' : Instance} (hne : n ≠ n')
      (hh' : h.Holds l' a' n' i') : ¬ (l' = l ∧ a' = a) := by
    rintro ⟨rfl, rfl⟩
    exact hne (hc.alone l' a' n n' i i' hh hh')
  have hbury (n' : InstanceId) (i' : Instance) (hh' : h'.Holds l a n' i') : False :=
    hother (hholds hh').1 (hholds hh').2 ⟨rfl, rfl⟩
  have hend : history l a h'.machine.journal =
      history l a h.machine.journal ++ (loader.behaviour a).fate i.info.customLoader := by
    rw [hb.history_eq, if_pos ⟨rfl, rfl⟩]
  refine ⟨⟨?_, ?_, ?_, ?_, ?_, ht.history_unopened hc.unopened, ?_⟩, ht.loaders, ?_, ?_, ?_⟩
  · intro l' a' n' i' hh'
    obtain ⟨hne, hh₁⟩ := hholds hh'
    obtain ⟨loader₁, k, hl₁, hlt, hm⟩ := hc.manned l' a' n' i' hh₁
    obtain ⟨loader', hl', hbehaviour, hle⟩ := ht.loaders l' loader₁ hl₁
    refine ⟨loader', k, hl', Nat.lt_of_lt_of_le hlt hle, ?_⟩
    rw [hbehaviour]
    refine ht.manned ?_ (hm.seat _ _)
    rw [hh₁.loader]
    exact hother hne hh₁
  · intro l' a' n' i' hh'
    obtain ⟨hne, hh₁⟩ := hholds hh'
    obtain ⟨paths, hpast⟩ := hc.past l' a' n' i' hh₁
    exact ⟨paths, (ht.history_eq (hother hne hh₁)).trans hpast⟩
  · intro n' i' hi hn
    rw [ht.instances] at hi
    rcases getElem?_set_cases hi with ⟨-, rfl⟩ | ⟨-, hi⟩
    · rfl
    · exact hc.gone n' i' hi hn
  · exact fun l' a' n₁ n₂ i₁ i₂ hh₁ hh₂ =>
      hc.alone l' a' n₁ n₂ i₁ i₂ (hholds hh₁).2 (hholds hh₂).2
  · intro manager hmanager
    obtain ⟨manager', hm', he⟩ := ht.managers manager hmanager
    rw [← he]
    refine (hc.rosters manager' hm').mono fun n' i' hi => ?_
    by_cases he' : n = n'
    · subst he'
      cases hi.symm.trans hh.there
      exact ⟨i.spent, by rw [ht.instances]; exact hself, rfl⟩
    · exact ⟨i', hkeep he' hi, rfl⟩
  · intro l' a' loader' hl' hn
    by_cases he : l' = l ∧ a' = a
    · obtain ⟨rfl, rfl⟩ := he
      obtain ⟨loader'', hl'', hbehaviour, -⟩ := ht.loaders _ loader hl
      obtain rfl := Option.some.inj (hl'.symm.trans hl'')
      obtain ⟨paths, hpast⟩ := hc.past _ _ n i hh
      rw [hend, hpast, hbehaviour]
      exact .inr ⟨i.info, paths, rfl⟩
    · refine ht.told he hc.unopened hl' fun loader₁ hl₁ => hc.told l' a' loader₁ hl₁ fun n' i' hh' => ?_
      refine hn n' i' ⟨hkeep ?_ hh'.there, hh'.loader, hh'.image⟩
      rintro rfl
      obtain rfl := Option.some.inj (hh.there.symm.trans hh'.there)
      exact he ⟨hh'.loader.symm.trans hh.loader, Option.some.inj (hh'.image.symm.trans hh.image)⟩
  · intro n' i' hi hn
    refine hkeep ?_ hi
    rintro rfl
    obtain rfl := Option.some.inj (hh.there.symm.trans hi)
    cases hn.symm.trans hh.image
  · intro l' a' n' i' loader' hh' hl'
    by_cases he : n = n'
    · subst he
      obtain rfl := Option.some.inj (hh.there.symm.trans hh'.there)
      obtain rfl := hh.loader.symm.trans hh'.loader
      obtain rfl := Option.some.inj (hh.image.symm.trans hh'.image)
      obtain rfl := Option.some.inj (hl.symm.trans hl')
      exact .inr ⟨by rw [ht.instances]; exact hself, hbury, hend⟩
    · exact .inl ⟨hkeep he hh'.there, ht.history_eq (hother he hh')⟩
  · intro l' a' ho hn
    refine ⟨fun n' i' hh' => hn n' i' (hholds hh').2, ht.history_eq ?_⟩
    rintro ⟨rfl, rfl⟩
    exact hn n i hh

theorem chronicles_closeInstance (n : InstanceId) : Within Chronicles (closeInstance n) := by
  intro h hc
  rcases find_cases (fun h => h.instances[n]?) h with ⟨-, hr⟩ | ⟨i, hi, hr⟩
  · rw [closeInstance, getInstance, runOn_bind_error hr]
    exact hc.advances
  rw [closeInstance, getInstance, runOn_bind_ok hr]
  let h₀ : Host := { h with instances := h.instances.set n i.spent }
  cases hn : i.image with
  | none =>
    -- There is no image any more, only files.
    have hspent : i.spent = i := by
      have hlink := hc.gone n i hi hn
      obtain ⟨info, l, image, link⟩ := i
      obtain rfl : image = none := hn
      obtain rfl : link = none := hlink
      rfl
    have hset : h₀ = h := by
      show { h with instances := h.instances.set n i.spent } = h
      rw [hspent, set_of_getElem? hi]
    have ht := Instance.tends_close_spent (A := fun _ _ => False) hn h₀
    rw [hset] at ht
    show h.Advances (runOn h₀ i.close).2
    rw [hset]
    exact chronicles_of_tends ht hc
  | some a =>
    have hh : h.Holds i.loader a n i := ⟨hi, rfl, hn⟩
    obtain ⟨loader, k, hl, hlt, hm⟩ := hc.manned _ a n i hh
    have hgrounded : i.Grounded a h₀ := Instance.grounded_of_manned (hm.seat _ _) ⟨loader, hl, hlt⟩
    have ht := Instance.tends_close (A := fun l' a' => l' = i.loader ∧ a' = a) hn ⟨rfl, rfl⟩ h₀ hgrounded
    exact advances_of_spent hc hh ht hl (Instance.close_befalls (h := h₀) (hm.seat _ _) hl)

theorem load_mounts {number : Nat} {c : ImageSpec} {env : EnvironmentId}
    (hr : runOn h (Instance.load number c env) = (.ok i, h')) : h.Mounts i h' := by
  have ht := Instance.tends_load number c env h
  rw [hr] at ht
  obtain ⟨loader, k, paths, hl, hloader, -, hm, ho, hj⟩ := Instance.load_manned hr
  rw [← hloader] at hl ho hj
  exact ⟨ht, loader, k, paths, hl, ho, hm, befalls_of_journal hj⟩

/-- An instance that cannot be loaded leaves nothing to be told. -/
theorem load_advances {number : Nat} {c : ImageSpec} {env : EnvironmentId} {e : Error}
    (hr : runOn h (Instance.load number c env) = (.error e, h')) : h.Chronicles h' := by
  intro hc
  have ht := Instance.tends_load number c env h
  rw [hr] at ht
  refine advances_of_told hc ht fun l a loader hnew hl => ?_
  rcases Instance.load_refused hr with ⟨entries, hj, hbarren⟩ | ⟨loader', info, paths, hl', hb⟩
  · rw [hj, history_append, hc.unopened l a hnew, List.nil_append]
    exact .inl (hbarren l a)
  · rw [hb.history_eq, hc.unopened l a hnew, List.nil_append]
    split
    · rename_i he
      obtain ⟨rfl, rfl⟩ := he
      obtain ⟨loader'', hl'', hbehaviour, -⟩ := ht.loaders _ loader' hl'
      obtain rfl := Option.some.inj (hl.symm.trans hl'')
      rw [hbehaviour]
      exact .inr ⟨info, paths, rfl⟩
    · exact .inl fun _ he => by cases he

theorem chronicles_loadInstance (number : Nat) (c : ImageSpec) (env : EnvironmentId) :
    Within Chronicles (loadInstance number c env) := by
  intro h
  rcases hx : runOn h (Instance.load number c env) with ⟨e | i, h₁⟩
  · rw [loadInstance, runOn_bind_error hx]
    exact load_advances hx
  · rw [loadInstance, runOn_bind_ok hx]
    exact (load_mounts hx).advances

theorem chronicles_loadMember (spec : ManagerSpec) (registry number : Nat) :
    Within Chronicles (loadMember spec registry number) := by
  intro h
  rcases hx : runOn h (Instance.load number spec.image spec.environment) with ⟨e | i, h₁⟩
  · rw [loadMember, runOn_bind_error hx]
    exact load_advances hx
  · rw [loadMember, runOn_bind_ok hx]
    have hadopt := i.daily_adopt (R := Tends fun _ _ => False) registry h₁
    rcases hy : runOn h₁ (i.adopt registry) with ⟨e | u, h₂⟩
    · rw [hy] at hadopt
      obtain ⟨e', hrun⟩ := onFailure_of_error hy (ignoring i.close)
      rw [runOn_bind_error hrun]
      exact ((load_mounts hx).of_tends hadopt).close_advances
    · rw [hy] at hadopt
      rw [runOn_bind_ok (onFailure_of_ok hy _)]
      exact ((load_mounts hx).of_tends hadopt).advances

/-- A member is there with its number. -/
theorem loadMember_number {spec : ManagerSpec} {registry number : Nat}
    (hr : runOn h (loadMember spec registry number) = (.ok n, h')) :
    ∃ i, h'.instances[n]? = some i ∧ i.info.number = number := by
  obtain ⟨i, h₁, hload, hr⟩ := bind_ok hr
  obtain ⟨_, h₂, -, hr⟩ := bind_ok hr
  obtain ⟨_, _, _, -, -, hnumber, -⟩ := Instance.load_manned hload
  cases hr
  exact ⟨i, List.getElem?_concat_length, hnumber⟩

/-- Instances stay under their numbers. -/
theorem Advances.rostered {ns : List InstanceId} (ha : h.Advances h') (hc : h.Chronicled)
    (hr : h.Rostered ns) : h'.Rostered ns := by
  refine hr.mono fun n i hi => ?_
  cases hn : i.image with
  | none => exact ⟨i, ha.spent n i hi hn, rfl⟩
  | some a =>
    have hh : h.Holds i.loader a n i := ⟨hi, rfl, hn⟩
    obtain ⟨loader, _, hl, -⟩ := hc.manned _ _ _ _ hh
    rcases ha.held _ _ n i loader hh hl with ⟨hi', -⟩ | ⟨hi', -⟩
    · exact ⟨i, hi', rfl⟩
    · exact ⟨i.spent, hi', rfl⟩

theorem Rostered.snoc {ns : List InstanceId} (hr : h.Rostered ns) (hn : n ∉ ns)
    (hi : ∃ i, h.instances[n]? = some i ∧ i.info.number = ns.length) : h.Rostered (ns ++ [n]) where
  nodup := by
    refine List.nodup_append.2 ⟨hr.nodup, List.pairwise_singleton _ n, ?_⟩
    rintro n' hn' _ hmem rfl
    rw [List.mem_singleton.1 hmem] at hn'
    exact hn hn'
  number := of_getElem?_concat hr.number hi

/-- The members are there in the order of their numbers. -/
theorem loadMembers_advances (spec : ManagerSpec) (registry : Nat) (loaded : List InstanceId)
    (number count : Nat) (h : Host) (hc : h.Chronicled) (hr : h.Rostered loaded)
    (hn : loaded.length = number) :
    let x := runOn h (loadMembers spec registry loaded number count)
    h.Advances x.2 ∧ ∀ ns, x.1 = .ok ns → x.2.Rostered ns := by
  -- The induction is on the members that are left; those that were loaded are numbered from 0.
  induction count generalizing loaded number h with
  | zero =>
    refine ⟨hc.advances, fun ns hns => ?_⟩
    cases hns
    exact hr
  | succ count ih =>
    have hmember : Within Chronicles (onFailure (loadMember spec registry number)
        (dropInstances loaded)) :=
      (chronicles_loadMember spec registry number).onFailure
        (within_dropInstances fun n _ => chronicles_closeInstance n)
    have ha := hmember h hc
    rcases hx : runOn h (onFailure (loadMember spec registry number) (dropInstances loaded)) with
      ⟨e | n, h₁⟩
    · rw [loadMembers, runOn_bind_error hx]
      rw [hx] at ha
      exact ⟨ha, fun ns hns => by cases hns⟩
    · rw [loadMembers, runOn_bind_ok hx]
      rw [hx] at ha
      have hnew : n ∉ loaded := by
        obtain ⟨rfl, -⟩ := loadMember_ok (onFailure_ok hx)
        intro hmem
        obtain ⟨j, hj⟩ := List.mem_iff_getElem?.1 hmem
        obtain ⟨i, hi, -⟩ := hr.number j _ hj
        exact Nat.lt_irrefl _ (List.getElem?_eq_some_iff.1 hi).1
      have hr₁ := (ha.rostered hc hr).snoc hnew (hn ▸ loadMember_number (onFailure_ok hx))
      obtain ⟨ha', hns⟩ := ih (loaded ++ [n]) (number + 1) h₁ ha.chronicled hr₁ (by
        rw [List.length_append, hn]
        rfl)
      exact ⟨ha.trans hc ha', hns⟩

/-- A manager is added. -/
theorem chronicles_addManager (manager : Manager) (hr : h.Rostered manager.instances) :
    h.Chronicles { h with managers := h.managers ++ [manager] } := by
  intro hc
  refine advances_of_tends hc (.refl h) (fun _ _ => id) (fun _ _ => .inl)
    (fun l a loader ho _ _ => ?_) fun manager' hm => ?_
  · rw [hc.unopened l a ho]
    exact .inl fun _ he => by cases he
  · rcases List.mem_append.1 hm with hm | hm
    · exact .inl hm
    · rw [List.mem_singleton.1 hm]
      exact .inr hr

theorem chronicles_buildManager (spec : ManagerSpec) : Within Chronicles (buildManager spec) := by
  intro h hc
  unfold buildManager
  by_cases hcount : spec.count = 0
  · rw [if_pos hcount]
    exact hc.advances
  rw [if_neg hcount]
  have hbooks (h : Host) (registries : List Sources) (fleet : Fleet) :
      h.Chronicles { h with registries, fleet } :=
    chronicles_of_tends (tends_of_quiet (.refl _) rfl rfl rfl rfl)
  refine bind_rel (R := Chronicles) (hbooks h _ h.fleet) (fun registry h₁ hr => ?_) hc
  intro hc₁
  obtain ⟨ha, hroster⟩ := loadMembers_advances spec registry [] 0 spec.count h₁ hc₁
    ⟨List.nodup_nil, fun _ _ hj => by cases hj⟩ rfl
  rcases hx : runOn h₁ (loadMembers spec registry [] 0 spec.count) with ⟨e | ns, h₂⟩
  · rw [hx] at ha
    rw [runOn_bind_error hx]
    exact ha
  · rw [hx] at ha hroster
    obtain ⟨b, -, -, hbalancer⟩ := addBalancer_ok hcount h₂
    rw [runOn_bind_ok hx, runOn_bind_ok hbalancer]
    have ha' := hbooks h₂ h₂.registries
      { h₂.fleet with balancers := h₂.fleet.balancers ++ [b] } ha.chronicled
    have hadd := chronicles_addManager
      { instances := ns, registry, balancer := h₂.fleet.balancers.length,
        environment := spec.environment }
      (ha'.rostered ha.chronicled (hroster ns rfl)) ha'.chronicled
    exact (ha.trans hc₁ ha').trans hc₁ hadd

end Host

end InstancePool
