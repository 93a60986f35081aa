import InstancePool.Proofs.Image.JournalFrame
import InstancePool.Proofs.Instance.LoadRehearsal
import InstancePool.Proofs.Host.InterpretersUsed

/-!
How images end. An interpreter is finalized once, and its image is closed after that, unless the
finalization or the unloading of the extensions failed; such an image stays open for good.
-/

namespace InstancePool

open HostM

namespace ImageEvent

def opens : ImageEvent → Bool
  | opened .. => true
  | _ => false

/-- The image was opened in isolation. -/
def isolates : ImageEvent → Bool
  | opened _ flags => flags.isolated
  | _ => false

def creates : ImageEvent → Bool
  | created .. => true
  | _ => false

/-- Whether an event is part of a teardown. -/
def ends : ImageEvent → Bool
  | finalized | flushed | closed | abandoned => true
  | _ => false

end ImageEvent

/-- What a journal tells of an image, in order. -/
def history (l : LoaderId) (image : Nat) (journal : List JournalEntry) : List ImageEvent :=
  journal.filterMap fun
    | .image l' image' event => if l' = l ∧ image' = image then some event else none
    | .released _ => none

@[simp] theorem history_append (l : LoaderId) (image : Nat) (entries entries' : List JournalEntry) :
    history l image (entries ++ entries') = history l image entries ++ history l image entries' :=
  List.filterMap_append

@[simp] theorem history_images (l l' : LoaderId) (image image' : Nat) (events : List ImageEvent) :
    history l image (events.map (.image l' image')) =
      if l' = l ∧ image' = image then events else [] := by
  unfold history
  rw [List.filterMap_map]
  split
  · rename_i he
    simp only [Function.comp_def, if_pos he, List.filterMap_some]
  · rename_i he
    exact List.filterMap_eq_nil_iff.2 fun _ _ => if_neg he

@[simp] theorem history_released (l : LoaderId) (image : Nat) (paths : List String) :
    history l image (paths.map .released) = [] := by
  unfold history
  rw [List.filterMap_map]
  exact List.filterMap_eq_nil_iff.2 fun _ _ => rfl

theorem of_getElem?_concat {α : Type} {P : Nat → α → Prop} {xs : List α} {x : α}
    (hxs : ∀ j a, xs[j]? = some a → P j a) (hx : P xs.length x) :
    ∀ j a, (xs ++ [x])[j]? = some a → P j a := by
  intro j a hj
  rw [Host.getElem?_concat_eq] at hj
  split at hj
  · rename_i he
    obtain rfl := Option.some.inj hj
    exact he ▸ hx
  · exact hxs j a hj

/-- Of the images from `first` on, one for each of some infos, entries of a journal tell what `P` says,
and of other images they tell nothing. -/
structure Recounts (P : Nat → InstanceInfo → List ImageEvent → Prop) (l : LoaderId) (first : Nat)
    (infos : List InstanceInfo) (entries : List JournalEntry) : Prop where
  each : ∀ j info, infos[j]? = some info → P (first + j) info (history l (first + j) entries)
  other : ∀ l' a, ¬ (l = l' ∧ first ≤ a ∧ a < first + infos.length) → history l' a entries = []

namespace Recounts

variable {P : Nat → InstanceInfo → List ImageEvent → Prop} {l : LoaderId} {first : Nat}
  {info : InstanceInfo} {infos : List InstanceInfo} {entries entries' : List JournalEntry}
  {events : List ImageEvent}

theorem nil : Recounts P l first [] [] := ⟨nofun, fun _ _ _ => rfl⟩

/-- An image that comes before all others. -/
theorem cons (hr : Recounts P l (first + 1) infos entries') (hp : P first info events)
    (hentries : ∀ l' a, history l' a entries = if l = l' ∧ first = a then events else []) :
    Recounts P l first (info :: infos) (entries ++ entries') where
  each j info' hj := by
    rw [history_append, hentries]
    cases j with
    | zero =>
      cases hj
      rw [Nat.add_zero, if_pos ⟨rfl, rfl⟩, hr.other l first (by omega), List.append_nil]
      exact hp
    | succ j =>
      have hadd : first + (j + 1) = first + 1 + j := by omega
      rw [if_neg (by omega), List.nil_append, hadd]
      exact hr.each j info' hj
  other l' a hn := by
    rw [List.length_cons] at hn
    have hfirst : ¬ (l = l' ∧ first = a) := fun ⟨he, ha⟩ => hn ⟨he, by omega⟩
    have hrest : ¬ (l = l' ∧ first + 1 ≤ a ∧ a < first + 1 + infos.length) :=
      fun ⟨he, ha⟩ => hn ⟨he, by omega⟩
    rw [history_append, hentries, if_neg hfirst, hr.other l' a hrest, List.append_nil]

/-- An image that comes after all others. -/
theorem snoc (hr : Recounts P l first infos entries) (hp : P (first + infos.length) info events) :
    Recounts P l first (infos ++ [info])
      (entries ++ events.map (.image l (first + infos.length))) where
  each := by
    apply of_getElem?_concat
    · intro j info' hj
      have hlt : j < infos.length := (List.getElem?_eq_some_iff.1 hj).1
      rw [history_append, history_images, if_neg (by omega), List.append_nil]
      exact hr.each j info' hj
    · rw [history_append, history_images, hr.other l _ (by omega), if_pos ⟨rfl, rfl⟩,
        List.nil_append]
      exact hp
  other l' a hn := by
    rw [List.length_append, List.length_singleton] at hn
    have hfirst : ¬ (l = l' ∧ first ≤ a ∧ a < first + infos.length) :=
      fun ⟨he, ha, ha'⟩ => hn ⟨he, ha, by omega⟩
    have hlast : ¬ (l = l' ∧ first + infos.length = a) :=
      fun ⟨he, ha⟩ => hn ⟨he, by omega, by omega⟩
    rw [history_append, history_images, hr.other l' a hfirst, if_neg hlast, List.append_nil]

end Recounts

/-- What happens to the image of an instance until the instance is there. -/
def InstanceInfo.past (info : InstanceInfo) (searchPaths : List String) : List ImageEvent :=
  [.opened info.path info.flags] ++ (if info.customLoader then [.bound] else []) ++
    [.created searchPaths ((info.images.drop 1).map (·.path))]

/-- How a finalizer that fails is reported through a link. -/
def Link.finalizeError : Link → Error
  | .direct _ => .runtime ⟨.runtime, "finalizer raised during shutdown"⟩
  | .channel _ => .teardown ("runtime finalizer returned " ++ Status.failed.display)

namespace ImageBehaviour

/-- An interpreter that the image made cannot be finalized, or the extensions of the image, if it is
isolated, cannot be unloaded. -/
def fails (b : ImageBehaviour) (isolated : Bool) : Bool :=
  b.failFinalize || isolated && ((b.trouble .flush).isSome || b.flushFailure.isSome)

/-- What happens to an image in the teardown of its instance. -/
def fate (b : ImageBehaviour) (isolated : Bool) : List ImageEvent :=
  [.finalized] ++
    (if isolated && !b.failFinalize && (b.trouble .flush).isNone then [.flushed] else []) ++
    [if b.fails isolated then .abandoned else .closed]

/-- What the teardown of an instance comes to, the interpreter of which is reached through a link. The
first step that fails is reported. -/
def verdict (b : ImageBehaviour) (isolated : Bool) (l : Link) : Except Error Unit :=
  if b.failFinalize then .error (.teardown ("finalizing runtime: " ++ l.finalizeError.message))
  else match if isolated then (b.trouble .flush).or b.flushFailure else none with
    | some e => .error (.teardown ("flushing native libraries: " ++ e.message))
    | none => .ok ()

/-- The teardown of an image that made an interpreter fails. -/
def Stuck (b : ImageBehaviour) (events : List ImageEvent) : Prop :=
  events.any ImageEvent.creates ∧ b.fails (events.any ImageEvent.isolates)

/-- All that there is to tell of an image is told: an interpreter that it made was finalized exactly
once, and after that the image was closed, exactly once and at the very end. It is never closed if it is
stuck. -/
structure Ended (b : ImageBehaviour) (events : List ImageEvent) : Prop where
  created : events.countP ImageEvent.creates ≤ 1
  finalized : events.count ImageEvent.finalized = events.countP ImageEvent.creates
  closed : events.any ImageEvent.opens → ¬ b.Stuck events →
    events.count ImageEvent.closed = 1 ∧ events.getLast? = some ImageEvent.closed
  stuck : b.Stuck events → ImageEvent.closed ∉ events

theorem ended_nil (b : ImageBehaviour) : b.Ended [] where
  created := Nat.zero_le 1
  finalized := rfl
  closed := nofun
  stuck _ := List.not_mem_nil

/-- An image without an interpreter is closed. -/
theorem ended_closed (b : ImageBehaviour) {events : List ImageEvent}
    (hc : ∀ e ∈ events, e.creates = false) (he : ∀ e ∈ events, e.ends = false) :
    b.Ended (events ++ [ImageEvent.closed]) := by
  have hcreates : (events ++ [ImageEvent.closed]).countP ImageEvent.creates = 0 := by
    rw [List.countP_eq_zero]
    intro e hmem
    rcases List.mem_append.1 hmem with hmem | hmem
    · rw [hc e hmem]
      exact Bool.false_ne_true
    · rw [List.mem_singleton.1 hmem]
      exact Bool.false_ne_true
  have hcount (e : ImageEvent) (h : e.ends = true) : events.count e = 0 :=
    List.count_eq_zero.2 fun hmem => Bool.false_ne_true ((he e hmem).symm.trans h)
  have hstuck : ¬ b.Stuck (events ++ [ImageEvent.closed]) := by
    rintro ⟨hany, -⟩
    obtain ⟨e, hmem, h⟩ := List.any_eq_true.1 hany
    exact List.countP_eq_zero.1 hcreates e hmem h
  refine ⟨by omega, ?_, fun _ _ => ⟨?_, List.getLast?_concat⟩, fun h => absurd h hstuck⟩
  · rw [hcreates, List.count_append, hcount .finalized rfl]
    rfl
  · rw [List.count_append, hcount .closed rfl]
    rfl

theorem fate_ends (b : ImageBehaviour) (isolated : Bool) :
    ∀ e ∈ b.fate isolated, e.ends = true := by
  intro e he
  simp only [fate, List.mem_append, List.mem_singleton] at he
  rcases he with (rfl | he) | rfl
  · rfl
  · split at he
    · rw [List.mem_singleton.1 he]
      rfl
    · cases he
  · split <;> rfl

/-- An image is closed unless a step fails. -/
theorem closed_mem_fate (b : ImageBehaviour) (isolated : Bool) :
    ImageEvent.closed ∈ b.fate isolated ↔ b.fails isolated = false := by
  have hflushed : ImageEvent.closed ∉ [ImageEvent.finalized] ++
      if isolated && !b.failFinalize && (b.trouble .flush).isNone then [.flushed] else [] := by
    split <;> decide
  rw [fate, List.mem_append, or_iff_right hflushed, List.mem_singleton]
  cases b.fails isolated with
  | false => exact iff_of_true rfl rfl
  | true => exact iff_of_false (fun h => by cases h) (fun h => by cases h)

/-- Whether the image is isolated makes no difference when its interpreter cannot be finalized. -/
theorem fate_of_failFinalize {b : ImageBehaviour} {isolated : Bool} (hf : b.failFinalize = true) :
    b.fate isolated = [.finalized, .abandoned] := by
  simp only [fate, fails, hf, Bool.not_true, Bool.and_false, Bool.false_and, Bool.true_or]
  rfl

theorem fate_shared {b : ImageBehaviour} (hf : b.failFinalize = false) :
    b.fate false = [.finalized, .closed] := by
  simp only [fate, fails, hf, Bool.false_and, Bool.or_false]
  rfl

theorem fate_isolated {b : ImageBehaviour} (hf : b.failFinalize = false) :
    b.fate true = [.finalized] ++ (if (b.trouble .flush).isNone then [.flushed] else []) ++
      [if b.fails true then .abandoned else .closed] := by
  simp only [fate, hf, Bool.not_false, Bool.and_true, Bool.true_and]

theorem fails_isolated {b : ImageBehaviour} (hf : b.failFinalize = false) :
    b.fails true = ((b.trouble .flush).or b.flushFailure).isSome := by
  rw [fails, hf, Bool.false_or, Bool.true_and, Option.isSome_or]

theorem verdict_of_failFinalize {b : ImageBehaviour} {isolated : Bool} (l : Link)
    (hf : b.failFinalize = true) : b.verdict isolated l =
      .error (.teardown ("finalizing runtime: " ++ l.finalizeError.message)) := by
  rw [verdict, if_pos hf]

theorem verdict_shared {b : ImageBehaviour} (l : Link) (hf : b.failFinalize = false) :
    b.verdict false l = .ok () := by
  simp only [verdict, hf, Bool.false_eq_true, if_false]

theorem verdict_isolated {b : ImageBehaviour} (l : Link) (hf : b.failFinalize = false) :
    b.verdict true l = match (b.trouble .flush).or b.flushFailure with
      | some e => .error (.teardown ("flushing native libraries: " ++ e.message))
      | none => .ok () := by
  simp only [verdict, hf, Bool.false_eq_true, if_false, if_true]

/-- The teardown reports a failure just when it leaves the image open. -/
theorem verdict_ok {b : ImageBehaviour} {isolated : Bool} {l : Link} :
    b.verdict isolated l = .ok () ↔ b.fails isolated = false := by
  cases hf : b.failFinalize with
  | true =>
    rw [verdict_of_failFinalize l hf, fails, hf]
    exact iff_of_false (fun h => by cases h) (fun h => by cases h)
  | false =>
    cases isolated with
    | false =>
      rw [verdict_shared l hf, fails, hf]
      exact iff_of_true rfl rfl
    | true =>
      rw [verdict_isolated l hf, fails_isolated hf]
      cases (b.trouble .flush).or b.flushFailure with
      | some e => exact iff_of_false (fun h => by cases h) (fun h => by cases h)
      | none => exact iff_of_true rfl rfl

/-- An image whose instance is torn down is finalized, and closed unless it is stuck. -/
theorem ended_fate (b : ImageBehaviour) (info : InstanceInfo) (searchPaths : List String) :
    b.Ended (info.past searchPaths ++ b.fate info.customLoader) := by
  obtain ⟨number, path, isolated, images⟩ := info
  simp only [InstanceInfo.past, InstanceInfo.flags, fate]
  generalize (isolated && !b.failFinalize && (b.trouble .flush).isNone) = flushed
  -- Whether the image was bound and flushed makes no difference, only whether it is stuck does.
  cases hf : b.fails isolated with
  | true =>
    cases isolated <;> cases flushed <;>
      exact ⟨Nat.le_refl 1, rfl, fun _ hs => absurd ⟨rfl, hf⟩ hs, fun _ => by simp⟩
  | false =>
    cases isolated <;> cases flushed <;>
      exact ⟨Nat.le_refl 1, rfl, fun _ _ => ⟨rfl, rfl⟩, fun hs => absurd (hf.symm.trans hs.2) nofun⟩

end ImageBehaviour

section

variable {b : Nat → ImageBehaviour} {l : LoaderId} {first : Nat} {infos : List InstanceInfo}
  {course between entries : List JournalEntry}

/-- Instances were loaded and torn down in the end, and what happened in between concerns other images
that ended as well. -/
theorem Recounts.ended
    (hc : Recounts (fun _ info events => ∃ paths, events = info.past paths) l first infos course)
    (he : Recounts (fun a info events => events = (b a).fate info.customLoader) l first infos entries)
    (hother : ∀ l' a, ¬ (l = l' ∧ first + infos.length ≤ a) → history l' a between = [])
    (hended : ∀ a, (b a).Ended (history l a between)) (a : Nat) :
    (b a).Ended (history l a (course ++ between ++ entries)) := by
  rw [history_append, history_append]
  by_cases ha : first ≤ a ∧ a < first + infos.length
  · -- The image of one of the instances: there is nothing between its past and its fate.
    obtain ⟨k, rfl⟩ := Nat.exists_eq_add_of_le ha.1
    have hk : k < infos.length := Nat.lt_of_add_lt_add_left ha.2
    have hinfo : infos[k]? = some infos[k] := List.getElem?_eq_getElem hk
    obtain ⟨paths, hpast⟩ := hc.each k _ hinfo
    rw [hpast, he.each k _ hinfo, hother l _ (by omega), List.append_nil]
    exact ImageBehaviour.ended_fate _ _ paths
  · have hne : ¬ (l = l ∧ first ≤ a ∧ a < first + infos.length) := fun h => ha h.2
    rw [hc.other l a hne, he.other l a hne, List.nil_append, List.append_nil]
    exact hended a

theorem Recounts.ends
    (he : Recounts (fun a info events => events = (b a).fate info.customLoader) l first infos entries)
    (l' : LoaderId) (a : Nat) : ∀ e ∈ history l' a entries, e.ends = true := by
  intro e hmem
  by_cases ha : l = l' ∧ first ≤ a ∧ a < first + infos.length
  · obtain ⟨rfl, hle, hlt⟩ := ha
    obtain ⟨k, rfl⟩ := Nat.exists_eq_add_of_le hle
    have hk : k < infos.length := Nat.lt_of_add_lt_add_left hlt
    rw [he.each k _ (List.getElem?_eq_getElem hk)] at hmem
    exact ImageBehaviour.fate_ends _ _ e hmem
  · rw [he.other l' a ha] at hmem
    cases hmem

end

/-- From a host to a later one: images may have ended, as the new entries of the journal tell, but
none was opened. -/
structure Host.Unwinds (entries : List JournalEntry) (h h' : Host) : Prop where
  loaders : h'.loaders = h.loaders
  journal : h'.machine.journal = h.machine.journal ++ entries

/-- A link leads to the interpreter `k`, and no session is open through it. -/
def Host.Unused (h : Host) (k : Nat) : Link → Prop
  | .direct n => n = k
  | .channel c => h.channels[c]? = some ⟨true, .exported { interp := k }⟩

/-- An instance is there with an interpreter of its own, `k`, that its image made. -/
structure Host.Ready (b : Nat → ImageBehaviour) (image k : Nat) (i : Instance) (h : Host) :
    Prop where
  opened : i.image = some image
  link : ∃ l, i.link = some l ∧ h.Unused k l
  interp : ∃ j, h.machine.interps[k]? = some j ∧ j.observer = some ⟨i.loader, image⟩ ∧
    j.failFinalize = (b image).failFinalize

/-- A link leads to the interpreter `k`, and through a channel that is not closed. -/
def Host.Connected (h : Host) (k : Nat) : Link → Prop
  | .direct n => n = k
  | .channel c => ∃ e, h.channels[c]? = some ⟨true, .exported e⟩ ∧ e.interp = k

/-- An instance has an image and through its link the interpreter `k`, which its image made. -/
structure Host.Manned (b : Nat → ImageBehaviour) (image k : Nat) (i : Instance) (h : Host) :
    Prop where
  opened : i.image = some image
  link : ∃ l, i.link = some l ∧ h.Connected k l
  interp : ∃ j, h.machine.interps[k]? = some j ∧ j.observer = some ⟨i.loader, image⟩ ∧
    j.failFinalize = (b image).failFinalize

namespace Host

variable {entries entries' : List JournalEntry} {h h₁ h₂ h₃ : Host} {b : Nat → ImageBehaviour}
  {image k : Nat} {i : Instance}

theorem Unwinds.refl (h : Host) : h.Unwinds [] h := ⟨rfl, (List.append_nil _).symm⟩

theorem Unwinds.trans (hu : h₁.Unwinds entries h₂) (hu' : h₂.Unwinds entries' h₃) :
    h₁.Unwinds (entries ++ entries') h₃ where
  loaders := hu'.loaders.trans hu.loaders
  journal := by rw [hu'.journal, hu.journal, List.append_assoc]

theorem runOn_record (entry : JournalEntry) (h : Host) :
    runOn h (record entry) = (.ok (), { h with machine := h.machine.record entry }) := rfl

/-- Files that go away are put down in the journal. -/
theorem release_unwinds (images : List ExtractedImage) (h : Host) :
    ∃ h', runOn h (release images) = (.ok (), h') ∧
      h.Unwinds (((images.filter (·.guarded)).map (·.path)).map .released) h' ∧
      h'.machine.interps = h.machine.interps := by
  induction images generalizing h with
  | nil => exact ⟨h, rfl, .refl h, rfl⟩
  | cons image images ih =>
    unfold release
    cases hg : image.guarded with
    | false =>
      obtain ⟨h', hr, hu, hi⟩ := ih h
      refine ⟨h', hr, ?_, hi⟩
      rw [List.filter_cons_of_neg (by rw [hg]; exact Bool.false_ne_true)]
      exact hu
    | true =>
      let h₁ : Host := { h with
        sources := h.sources.map (Source.forget image.path)
        machine := h.machine.record (.released image.path) }
      have hu₁ : h.Unwinds [.released image.path] h₁ := ⟨rfl, rfl⟩
      obtain ⟨h', hr, hu, hi⟩ := ih h₁
      refine ⟨h', hr, ?_, hi⟩
      rw [List.filter_cons_of_pos hg]
      exact hu₁.trans hu

end Host

namespace Link

open Host

variable {h : Host} {k : Nat} {i : Interp} {l : Link}

/-- An interpreter is finalized through a link, whatever sessions are open, and its observer is told. -/
theorem finalize_connected {o : Observer} (hl : h.Connected k l) (hi : h.machine.interps[k]? = some i)
    (ho : i.observer = some o) :
    ∃ h', runOn h l.finalize = (if i.failFinalize then .error l.finalizeError else .ok (), h') ∧
      h.Unwinds [.image o.loader o.image .finalized] h' ∧
      ∃ j, h'.machine.interps[k]? = some j ∧ j.finalized = true := by
  cases l with
  | direct n =>
    obtain rfl : n = k := hl
    obtain ⟨hr, hinterps, hjournal⟩ := Machine.finalize_some hi
    rw [ho] at hjournal
    refine ⟨{ h with machine := (h.machine.finalize n).2 }, congrArg (·, _) hr, ⟨rfl, hjournal⟩,
      { i with finalized := true }, ?_, rfl⟩
    rw [hinterps]
    exact List.getElem?_set_self (List.getElem?_eq_some_iff.1 hi).1
  | channel c =>
    obtain ⟨e, hc, rfl⟩ := hl
    -- The sessions that are served are closed first.
    let m := e.served.foldl (fun m key => m.closeSession e.interp key) h.machine
    have hq : h.machine.Quiet m := Machine.quiet_closeSessions e.interp e.served h.machine
    obtain ⟨i', hi', hmake⟩ := hq.recalls e.interp i hi
    obtain ⟨hr, hinterps, hjournal⟩ := Machine.finalize_some hi'
    rw [hmake.observer, ho] at hjournal
    rw [hmake.failFinalize] at hr
    have hstep : Channel.finalize (Endpoint.image h.texts) ⟨true, (h.machine, e)⟩ =
        (if i.failFinalize then .error (finalizeError (.channel c)) else .ok (),
          ⟨false, ((m.finalize e.interp).2, { e with served := [] })⟩) := by
      simp only [Channel.finalize, Endpoint.image, Endpoint.finalize, if_true]
      rw [show (m.finalize e.interp).1 = _ from hr]
      cases i.failFinalize <;> rfl
    refine ⟨{ h with
        machine := (m.finalize e.interp).2
        channels := h.channels.set c ⟨false, .exported { e with served := [] }⟩ }, ?_,
      ⟨rfl, hjournal.trans (congrArg (· ++ _) hq.journal)⟩, { i' with finalized := true }, ?_, rfl⟩
    · simp only [finalize, onChannel, runOn_of, hc, hstep]
    · rw [show (m.finalize e.interp).2.interps = _ from hinterps]
      exact List.getElem?_set_self (List.getElem?_eq_some_iff.1 hi').1

end Link

namespace Instance

open Host

variable {h : Host} {b : Nat → ImageBehaviour} {image k : Nat} {i : Instance}

theorem teardownStep_ok {l : LoaderId} {what : String} {x : HostM Unit} {h' : Host}
    (hx : runOn h x = (.ok (), h')) : runOn h (teardownStep l image what x) = (.ok (), h') := by
  simp only [teardownStep, runOn_bind, runOn_outcome, hx, runOn_pure]

/-- A step that fails leaves the image open. -/
theorem teardownStep_error {l : LoaderId} {what : String} {x : HostM Unit} {h' : Host} {e : Error}
    (hx : runOn h x = (.error e, h')) :
    runOn h (teardownStep l image what x) = (.error (.teardown (what ++ ": " ++ e.message)),
      { h' with machine := h'.machine.record (.image l image .abandoned) }) := by
  simp only [teardownStep, runOn_bind, runOn_outcome, hx, runOn_record, runOn_throw]

/-- An instance without an interpreter: the image is closed. -/
theorem teardown_opened (hi : i.image = some image) (hl : i.link = none) :
    runOn h i.teardown =
      (.ok (), { h with machine := h.machine.record (.image i.loader image .closed) }) := by
  rcases i with ⟨info, l, _, _⟩
  obtain rfl : _ = some image := hi
  obtain rfl : _ = none := hl
  rfl

/-- The unloading of extensions is put down in the journal once it begins. -/
theorem flush_unwinds {l : LoaderId} {loader : Loader} (image : Nat)
    (hloader : h.loaders[l]? = some loader) :
    ∃ r h', runOn h (flush l image) = (r, h') ∧
      h.Unwinds ((if ((loader.behaviour image).trouble .flush).isNone then [.flushed] else []).map
        (.image l image)) h' ∧ h'.machine.interps = h.machine.interps ∧
      r = match ((loader.behaviour image).trouble .flush).or (loader.behaviour image).flushFailure with
        | some e => .error e
        | none => .ok () := by
  rcases useEntryPoint_cases image .flush .flushed hloader with ⟨e, ht, huse⟩ | ⟨ht, huse⟩
  · rw [ht]
    exact ⟨.error e, h, runOn_bind_error huse _, .refl h, rfl, rfl⟩
  · rw [ht, flush, runOn_bind_ok huse]
    let h' : Host := { h with machine := h.machine.record (.image l image .flushed) }
    have hu : h.Unwinds [.image l image .flushed] h' := ⟨rfl, rfl⟩
    cases (loader.behaviour image).flushFailure with
    | some e => exact ⟨.error e, h', rfl, hu, rfl, rfl⟩
    | none => exact ⟨.ok (), h', rfl, hu, rfl, rfl⟩

/-- The interpreter of an instance is finalized, whatever comes of it. -/
theorem finalize_manned {loader : Loader} (hi : h.Manned loader.behaviour image k i) :
    ∃ link h', i.link = some link ∧ runOn h link.finalize =
        (if (loader.behaviour image).failFinalize then .error link.finalizeError else .ok (), h') ∧
      h.Unwinds [.image i.loader image .finalized] h' ∧
      ∃ j, h'.machine.interps[k]? = some j ∧ j.finalized = true := by
  obtain ⟨link, hlink, hconnected⟩ := hi.link
  obtain ⟨j, hj, hobserver, hfail⟩ := hi.interp
  rw [← hfail]
  exact ⟨link, (Link.finalize_connected hconnected hj hobserver).imp fun _ hr => ⟨hlink, hr⟩⟩

/-- An instance with an interpreter is torn down as its image has it. -/
theorem teardown_manned {loader : Loader} (hi : h.Manned loader.behaviour image k i)
    (hloader : h.loaders[i.loader]? = some loader) :
    ∃ link h', i.link = some link ∧
      runOn h i.teardown = ((loader.behaviour image).verdict i.info.customLoader link, h') ∧
      h.Unwinds (((loader.behaviour image).fate i.info.customLoader).map
        (.image i.loader image)) h' ∧
      ∃ j, h'.machine.interps[k]? = some j ∧ j.finalized = true := by
  obtain ⟨link, h₁, hlink, hrun, hu₁, hdone⟩ := finalize_manned hi
  refine ⟨link, ?_⟩
  obtain ⟨⟨number, path, isolated, images⟩, l, opened, linked⟩ := i
  obtain rfl : opened = some image := hi.opened
  obtain rfl : linked = some link := hlink
  simp only [teardown]
  -- What comes last is put down by a step of its own.
  have hlast {h₂ : Host} {entries : List JournalEntry} (hu : h₁.Unwinds entries h₂)
      (event : ImageEvent) : h.Unwinds ([.image l image .finalized] ++ entries ++
        [.image l image event])
        { h₂ with machine := h₂.machine.record (.image l image event) } :=
    (hu₁.trans hu).trans ⟨rfl, rfl⟩
  cases hf : (loader.behaviour image).failFinalize with
  | true =>
    rw [hf] at hrun
    rw [ImageBehaviour.fate_of_failFinalize hf, ImageBehaviour.verdict_of_failFinalize link hf]
    exact ⟨_, trivial, runOn_bind_error (teardownStep_error hrun) _, hlast (.refl h₁) .abandoned, hdone⟩
  | false =>
    rw [hf] at hrun
    rw [runOn_bind_ok (teardownStep_ok hrun)]
    cases isolated with
    | false =>
      rw [ImageBehaviour.fate_shared hf, ImageBehaviour.verdict_shared link hf]
      exact ⟨_, trivial, rfl, hlast (.refl h₁) .closed, hdone⟩
    | true =>
      obtain ⟨r, h₂, hflush, hu₂, hinterps, rfl⟩ :=
        flush_unwinds (h := h₁) image (hu₁.loaders ▸ hloader)
      rw [← hinterps] at hdone
      rw [ImageBehaviour.fate_isolated hf, List.map_append, List.map_append,
        ImageBehaviour.fails_isolated hf, ImageBehaviour.verdict_isolated link hf]
      cases hor : ((loader.behaviour image).trouble .flush).or
          (loader.behaviour image).flushFailure with
      | some e =>
        rw [hor] at hflush
        exact ⟨_, trivial, runOn_bind_error (teardownStep_error hflush) _, hlast hu₂ .abandoned, hdone⟩
      | none =>
        rw [hor] at hflush
        exact ⟨_, trivial, runOn_bind_ok (teardownStep_ok hflush) _, hlast hu₂ .closed, hdone⟩

/-- What is put down when an instance goes away that reaches an interpreter through a link: the end of
its image, and then the files. -/
def farewell (i : Instance) (b : Nat → ImageBehaviour) (image : Nat) : List JournalEntry :=
  ((b image).fate i.info.customLoader).map (.image i.loader image) ++
    ((i.info.images.filter (·.guarded)).map (·.path)).map .released

theorem history_farewell (i : Instance) (image : Nat) (b : Nat → ImageBehaviour) (l : LoaderId)
    (a : Nat) : history l a (i.farewell b image) =
      if i.loader = l ∧ image = a then (b image).fate i.info.customLoader else [] := by
  rw [farewell, history_append, history_images, history_released, List.append_nil]

/-- An instance is torn down, and its files go away after that. -/
theorem close_manned {loader : Loader} (hi : h.Manned loader.behaviour image k i)
    (hloader : h.loaders[i.loader]? = some loader) :
    ∃ link h', i.link = some link ∧
      runOn h i.close = ((loader.behaviour image).verdict i.info.customLoader link, h') ∧
      h.Unwinds (i.farewell loader.behaviour image) h' ∧
      ∃ j, h'.machine.interps[k]? = some j ∧ j.finalized = true := by
  obtain ⟨link, h₁, hlink, hrun, hu, j, hj, hf⟩ := teardown_manned hi hloader
  obtain ⟨h₂, hrelease, hu₂, hinterps⟩ := release_unwinds i.info.images h₁
  refine ⟨link, h₂, hlink, ?_, hu.trans hu₂, j, hinterps ▸ hj, hf⟩
  simp only [close, ensuring, runOn_bind, runOn_outcome, hrun, hrelease, runOn_settle]

end Instance

/-- Instances of a loader are there under the numbers from `n` on, and their images and interpreters are
numbered in the same order. -/
def Host.Lineup (b : Nat → ImageBehaviour) (l : LoaderId) (n image k : Nat)
    (infos : List InstanceInfo) (h : Host) : Prop :=
  ∀ j info, infos[j]? = some info → ∃ i, h.instances[n + j]? = some i ∧ i.info = info ∧
    i.loader = l ∧ h.Ready b (image + j) (k + j) i

namespace Host

variable {S : Nat → Prop} {h h' : Host} {b : Nat → ImageBehaviour} {image k n : Nat} {i : Instance}
  {l : LoaderId} {info : InstanceInfo} {infos : List InstanceInfo}

theorem Unused.of_works {l : Link} (hl : h.Unused k l) (hw : h.Works S h') (hk : ¬ S k) :
    h'.Unused k l := by
  cases l with
  | direct n => exact hl
  | channel c =>
    obtain ⟨live, e, hc, -, hsame⟩ := hw.channel c true { interp := k } hl
    obtain ⟨rfl, rfl⟩ := hsame hk
    exact hc

theorem Ready.of_works (hi : h.Ready b image k i) (hw : h.Works S h') (hk : ¬ S k) :
    h'.Ready b image k i where
  opened := hi.opened
  link := by
    obtain ⟨l, hl, hunused⟩ := hi.link
    exact ⟨l, hl, hunused.of_works hw hk⟩
  interp := by
    rw [hw.machine.interp hk]
    exact hi.interp

theorem Lineup.of_works (hl : h.Lineup b l n image k infos) (hw : h.Works S h')
    (hk : ∀ j < infos.length, ¬ S (k + j))
    (hn : ∀ j < infos.length, h'.instances[n + j]? = h.instances[n + j]?) :
    h'.Lineup b l n image k infos := by
  intro j info hj
  have hlt : j < infos.length := (List.getElem?_eq_some_iff.1 hj).1
  obtain ⟨i, hi, hinfo, hloader, hready⟩ := hl j info hj
  exact ⟨i, (hn j hlt).trans hi, hinfo, hloader, hready.of_works hw (hk j hlt)⟩

theorem Lineup.tail (hl : h.Lineup b l n image k (info :: infos)) :
    h.Lineup b l (n + 1) (image + 1) (k + 1) infos := by
  intro j info hj
  obtain ⟨i, hi⟩ := hl (j + 1) info hj
  have hadd (m : Nat) : m + 1 + j = m + (j + 1) := by omega
  rw [hadd, hadd, hadd]
  exact ⟨i, hi⟩

/-- One more instance at the end of a lineup. -/
theorem Lineup.snoc (hl : h.Lineup b l n image k infos)
    (hi : h.instances[n + infos.length]? = some i) (hloader : i.loader = l)
    (hready : h.Ready b (image + infos.length) (k + infos.length) i) :
    h.Lineup b l n image k (infos ++ [i.info]) :=
  of_getElem?_concat hl ⟨i, hi, rfl, hloader, hready⟩

theorem Unused.connected {l : Link} (hl : h.Unused k l) : h.Connected k l := by
  cases l with
  | direct n => exact hl
  | channel c => exact ⟨_, hl, rfl⟩

theorem Ready.manned (hi : h.Ready b image k i) : h.Manned b image k i where
  opened := hi.opened
  link := hi.link.imp fun _ hl => ⟨hl.1, hl.2.connected⟩
  interp := hi.interp

theorem Connected.interpAt {l : Link} (hl : h.Connected k l) : h.interpAt l = some k := by
  cases l with
  | direct n => exact congrArg some hl
  | channel c =>
    obtain ⟨e, hc, rfl⟩ := hl
    exact interpAt_channel hc

theorem Unused.interpAt {l : Link} (hl : h.Unused k l) : h.interpAt l = some k :=
  hl.connected.interpAt

/-- Dropping one instance of a lineup, the first. -/
theorem closeInstance_unwinds {loader : Loader}
    (hl : h.Lineup loader.behaviour l n image k (info :: infos))
    (hloader : h.loaders[l]? = some loader) :
    ∃ r entries h', runOn h (closeInstance n) = (r, h') ∧ h.Unwinds entries h' ∧
      (∀ l' a, history l' a entries = if l = l' ∧ image = a then
        (loader.behaviour image).fate info.customLoader else []) ∧
      (∃ j, h'.machine.interps[k]? = some j ∧ j.finalized = true) ∧
      h.Works (· = k) h' ∧ h'.Lineup loader.behaviour l (n + 1) (image + 1) (k + 1) infos := by
  obtain ⟨i, hi, rfl, rfl, hready⟩ := hl 0 info rfl
  simp only [Nat.add_zero] at hi hready
  obtain ⟨link, hlink, hunused⟩ := hready.link
  -- The instance is marked as torn down, and then it is.
  let h₀ : Host := { h with instances := h.instances.set n i.spent }
  have hready₀ : h₀.Ready loader.behaviour image k i :=
    ⟨hready.opened, hready.link, hready.interp⟩
  obtain ⟨link', h₁, -, hclose, hu, hfinal⟩ := Instance.close_manned hready₀.manned hloader
  have hrun : runOn h (closeInstance n) =
      ((loader.behaviour image).verdict i.info.customLoader link', h₁) := by
    have hget : runOn h (getInstance n) = (.ok i, h) := by
      simp only [getInstance, runOn_find, hi, Option.elim]
    rw [closeInstance, runOn_bind_ok hget]
    exact hclose
  have hworks : h.Works (· = k) h₁ := by
    have hhomes : h.Homes (· = k) (· = n) := by
      rintro n' l' rfl hl' k' hk'
      rw [linkOf, hi, Option.bind_some] at hl'
      obtain rfl := Option.some.inj (hlink.symm.trans hl')
      exact (Option.some.inj (hunused.interpAt.symm.trans hk')).symm
    have hw := works_closeInstance n h hhomes
    rw [hrun] at hw
    exact hw
  have hinstances : h₁.instances = h.instances.set n i.spent := by
    have hb : h₀.SameBooks h₁ := i.sameBooks_close.of_eq hclose
    exact hb.instances
  refine ⟨_, _, h₁, hrun, ⟨hu.loaders, hu.journal⟩,
    i.history_farewell image loader.behaviour, hfinal, hworks, ?_⟩
  refine hl.tail.of_works hworks (fun j _ => by omega) fun j _ => ?_
  rw [hinstances, List.getElem?_set_ne (by omega)]

/-- Dropping all instances of a lineup. -/
theorem dropInstances_unwinds {loader : Loader}
    (hl : h.Lineup loader.behaviour l n image k infos) (hloader : h.loaders[l]? = some loader) :
    ∃ entries h', runOn h (dropInstances (List.range' n infos.length)) = (.ok (), h') ∧
      h.Unwinds entries h' ∧
      Recounts (fun a info events => events = (loader.behaviour a).fate info.customLoader) l image
        infos entries ∧
      (∀ j < infos.length, ∃ i, h'.machine.interps[k + j]? = some i ∧ i.finalized = true) ∧
      h.Works (fun x => k ≤ x ∧ x < k + infos.length) h' := by
  induction infos generalizing n image k h with
  | nil => exact ⟨[], h, rfl, .refl h, .nil, nofun, .refl h⟩
  -- The first of them goes, which leaves a lineup of the others.
  | cons info infos ih =>
    obtain ⟨r, entries, h₁, hclose, hu, hhistory, hfinal, hw, hl₁⟩ :=
      closeInstance_unwinds hl hloader
    obtain ⟨entries', h₂, hdrop, hu', hrecounts, hfinals, hw'⟩ :=
      ih hl₁ ((congrArg (·[l]?) hu.loaders).trans hloader)
    refine ⟨entries ++ entries', h₂, ?_, hu.trans hu', hrecounts.cons rfl hhistory, ?_, ?_⟩
    · rw [List.length_cons, List.range'_succ, dropInstances, dropInstance, runOn_bind,
        runOn_ignoring, hclose]
      exact hdrop
    · intro j hj
      cases j with
      | zero =>
        have hk : h₂.machine.interps[k]? = h₁.machine.interps[k]? :=
          hw'.machine.interp (by omega)
        rw [Nat.add_zero, hk]
        exact hfinal
      | succ j =>
        have hadd : k + (j + 1) = k + 1 + j := by omega
        rw [hadd]
        exact hfinals j (Nat.lt_of_succ_lt_succ hj)
    · rw [List.length_cons]
      exact (hw.mono fun x hx => by omega).trans (hw'.mono fun x hx => by omega)

end Host

end InstancePool
