import InstancePool.Proofs.Host.ActionSteps

/-!
Loading and tearing down an instance, as seen by a relation that does not care for files and images.
Interpreters come into it in two places only: where the image makes one, and where it is finalized.
-/

namespace InstancePool

open HostM

/-- A relation across which sources, loaders and environments change as they like, and across which the
journal grows. -/
class Aside (R : Host → Host → Prop) : Prop extends Frame R where
  supplies : ∀ h sources loaders environments, R h { h with sources, loaders, environments }
  record : ∀ h entry, R h { h with machine := h.machine.record entry }

namespace Host

variable {R : Host → Host → Prop} [Aside R]

theorem within_record (entry : JournalEntry) : Within R (record entry) :=
  fun h => Aside.record h entry

theorem within_extract (source : SourceId) (p : Payload) : Within R (extract source p) := by
  intro h
  unfold extract
  rw [runOn_of]
  split
  · exact Frame.refl h
  · exact Aside.supplies h _ h.loaders h.environments

theorem within_extractEach (source : SourceId) (ps : List Payload) :
    Within R (extractEach source ps) := by
  induction ps with
  | nil => exact within_pure _
  | cons p ps ih =>
    refine (within_extract source p).outcome.bind fun r => ?_
    cases r with
    | error e => exact within_pure _
    | ok image => exact ih.bind fun _ => within_pure _

theorem within_release (images : List ExtractedImage) : Within R (release images) := by
  induction images with
  | nil => exact within_pure _
  | cons image images ih =>
    unfold release
    split
    · refine Within.bind ?_ fun _ => (within_record _).bind fun _ => ih
      exact fun h => Aside.supplies h _ h.loaders h.environments
    · exact ih

theorem within_openImage (l : LoaderId) (path : String) (flags : LoadFlags) :
    Within R (openImage l path flags) := by
  refine (within_find _).bind fun loader => Within.bind ?_ fun _ => ?_
  · exact fun h => Aside.supplies h h.sources _ h.environments
  · split
    · exact within_throw _
    · exact (within_record _).bind fun _ => within_pure _

theorem within_useEntryPoint (l : LoaderId) (image : Nat) (point : EntryPoint)
    (event : ImageEvent) : Within R (useEntryPoint l image point event) := by
  refine (within_find _).bind fun loader => ?_
  split
  · exact within_throw _
  · exact (within_record _).bind fun _ => within_pure _

theorem within_bindSelf (l : LoaderId) (image : Nat) : Within R (bindSelf l image) :=
  (within_useEntryPoint l image _ _).bind fun _ => within_pure _

theorem within_flush (l : LoaderId) (image : Nat) : Within R (flush l image) := by
  refine (within_useEntryPoint l image _ _).bind fun behaviour => ?_
  split
  · exact within_throw _
  · exact within_pure _

theorem within_configure (env : EnvironmentId) (info : InstanceInfo) :
    Within R (configure env info) := by
  refine (within_find _).bind fun e => Within.bind ?_ fun _ => ?_
  · exact fun h => Aside.supplies h h.sources h.loaders _
  · split
    · exact within_throw _
    · exact within_pure _

end Host

namespace Instance

open Host

variable {R : Host → Host → Prop} [Aside R]

theorem within_teardownStep {l : LoaderId} {image : Nat} {what : String} {x : HostM Unit}
    (hx : Within R x) : Within R (teardownStep l image what x) := by
  refine hx.outcome.bind fun r => ?_
  cases r with
  | ok _ => exact within_pure _
  | error e => exact (within_record _).bind fun _ => within_throw _

theorem within_teardown {i : Instance} (hi : ∀ l, i.link = some l → Within R l.finalize) :
    Within R i.teardown := by
  unfold teardown
  split
  · exact within_pure _
  · split
    · exact within_record _
    · rename_i link hl
      refine (within_teardownStep (hi link hl)).bind fun _ => ?_
      split
      · exact (within_teardownStep (within_flush _ _)).bind fun _ => within_record _
      · exact within_record _

theorem within_close {i : Instance} (hi : ∀ l, i.link = some l → Within R l.finalize) :
    Within R i.close :=
  (within_teardown hi).ensuring (within_release _)

/-- Loading, where the making of an interpreter can be followed by all that can be followed by its
finalization. -/
theorem within_load (number : Nat) (spec : ImageSpec) (env : EnvironmentId)
    (hnew : ∀ (image : Nat) (searchPaths plugins : List String) (cleanup : HostM Unit)
      (f : Link → HostM Instance), Within R cleanup →
      (∀ link : Link, Within R link.finalize → Within R (f link)) →
      Within R (onFailure (newInterp spec.loader image searchPaths plugins) cleanup >>= f)) :
    Within R (Instance.load number spec env) := by
  unfold load
  refine (within_extract _ _).bind fun main => ?_
  refine ((within_openImage _ _ _).onFailure (within_release _)).bind fun image => ?_
  -- As long as there is no interpreter, giving up touches none.
  have hgiveUp (images : List ExtractedImage) (info : InstanceInfo) : Within R (do
      release images
      ignoring (Instance.teardown ⟨info, spec.loader, some image, none⟩)) :=
    (within_release _).bind fun _ => (within_teardown fun _ hl => by cases hl).ignoring
  -- What follows is the same whether the image was told its handle or not.
  suffices htail : _ by
    simp only []
    split
    · exact ((within_bindSelf spec.loader image).onFailure (hgiveUp _ _)).bind fun _ => htail
    · exact htail
  refine (within_extractEach _ _).bind fun r => ?_
  rcases r with ⟨plugins, failure⟩
  cases failure with
  | some e => exact (hgiveUp _ _).bind fun _ => within_throw e
  | none =>
    refine (within_find _).bind fun environment => ?_
    refine hnew _ _ _ _ _ (hgiveUp _ _) fun link hl => ?_
    refine ((within_configure _ _).onFailure ?_).bind fun _ => within_pure _
    refine (within_close fun l h => ?_).ignoring
    cases h
    exact hl

end Instance

end InstancePool
