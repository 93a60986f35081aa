import InstancePool.Proofs.Channel.Transparency
import InstancePool.Proofs.Interp.Operations

/-!
What is done in the sessions of interpreters is not put down in the journal, and changes nothing about
which images made the interpreters and how they are finalized.
-/

namespace InstancePool

/-- The image that made an interpreter, and whether the interpreter can be finalized. Both last. -/
structure Interp.SameMake (i i' : Interp) : Prop where
  observer : i'.observer = i.observer
  failFinalize : i'.failFinalize = i.failFinalize

theorem Interp.SameMake.refl (i : Interp) : i.SameMake i := ⟨rfl, rfl⟩

theorem Interp.SameMake.trans {i i' i'' : Interp} (hs : i.SameMake i') (hs' : i'.SameMake i'') :
    i.SameMake i'' :=
  ⟨hs'.observer.trans hs.observer, hs'.failFinalize.trans hs.failFinalize⟩

/-- From a machine to a later one: the interpreters are there, and of the same make. -/
def Machine.Recalls (m m' : Machine) : Prop :=
  ∀ (k : Nat) (i : Interp), m.interps[k]? = some i → ∃ i', m'.interps[k]? = some i' ∧ i.SameMake i'

/-- From a machine to a later one: nothing is put down in the journal. -/
structure Machine.Quiet (m m' : Machine) : Prop where
  recalls : m.Recalls m'
  journal : m'.journal = m.journal

theorem Engine.perform_sameMake (source : TextSource) (key : SessionKey) (op : Op) (e : Engine) :
    e.interp.SameMake (Engine.perform source key op e).2.interp := by
  have hfind (name : String) : e.interp.SameMake (e.findModule source name).2.interp := by
    obtain ⟨heap, modules, he, -⟩ := findModule_cases source name e
    rw [he]
    exact ⟨rfl, rfl⟩
  have hp := perform_performed source key op e
  generalize Engine.perform source key op e = x at hp
  cases hp with
  | unknown | failed => exact .refl _
  | missed => exact hfind _
  | found => exact ⟨(hfind _).observer, (hfind _).failFinalize⟩
  | done hk hd =>
    cases hd with
    | seen | bound => exact .refl _
    | handed | made | restored | unloaded => exact ⟨rfl, rfl⟩

namespace Machine

variable {m m' m'' : Machine} {n : Nat} {i i' : Interp}

theorem Recalls.refl (m : Machine) : m.Recalls m := fun _ i hi => ⟨i, hi, .refl i⟩

theorem Recalls.trans (hr : m.Recalls m') (hr' : m'.Recalls m'') : m.Recalls m'' := by
  intro k i hi
  obtain ⟨i', hi', hs⟩ := hr k i hi
  obtain ⟨i'', hi'', hs'⟩ := hr' k i' hi'
  exact ⟨i'', hi'', hs.trans hs'⟩

theorem recalls_set (hi : m.interps[n]? = some i) (hm : m'.interps = m.interps.set n i')
    (hs : i.SameMake i') : m.Recalls m' :=
  interps_set (P := fun _ => Interp.SameMake) hi hm hs fun _ => .refl

theorem recalls_create (searchPaths : List String) (failFinalize : Bool)
    (observer : Option Observer) (m : Machine) :
    m.Recalls (m.create searchPaths failFinalize observer).2 := by
  intro k i hi
  refine ⟨i, ?_, .refl i⟩
  exact (List.getElem?_append_left (List.getElem?_eq_some_iff.1 hi).1).trans hi

/-- Finalization marks the interpreter and tells its observer, if it has one. -/
theorem finalize_some (hi : m.interps[n]? = some i) :
    (m.finalize n).1 = (if i.failFinalize then
        .error (.runtime ⟨.runtime, "finalizer raised during shutdown"⟩) else .ok ()) ∧
      (m.finalize n).2.interps = m.interps.set n { i with finalized := true } ∧
      (m.finalize n).2.journal =
        m.journal ++ (i.observer.map fun o => .image o.loader o.image .finalized).toList := by
  simp only [finalize, hi]
  cases i.observer with
  | none => exact ⟨trivial, rfl, (List.append_nil _).symm⟩
  | some o => exact ⟨trivial, rfl, rfl⟩

theorem recalls_finalize (n : Nat) (m : Machine) : m.Recalls (m.finalize n).2 := by
  cases hi : m.interps[n]? with
  | none =>
    simp only [finalize, hi]
    exact .refl m
  | some i => exact recalls_set hi (finalize_some hi).2.1 ⟨rfl, rfl⟩

theorem Quiet.refl (m : Machine) : m.Quiet m := ⟨.refl m, rfl⟩

theorem Quiet.trans (hq : m.Quiet m') (hq' : m'.Quiet m'') : m.Quiet m'' :=
  ⟨hq.recalls.trans hq'.recalls, hq'.journal.trans hq.journal⟩

theorem quiet_create (searchPaths : List String) (failFinalize : Bool)
    (observer : Option Observer) (m : Machine) :
    m.Quiet (m.create searchPaths failFinalize observer).2 :=
  ⟨recalls_create searchPaths failFinalize observer m, rfl⟩

theorem quiet_openSession (n : Nat) (m : Machine) : m.Quiet (m.openSession n).2 := by
  unfold openSession
  cases hi : m.interps[n]? with
  | none => exact .refl m
  | some i =>
    simp only []
    split
    · exact .refl m
    · exact ⟨recalls_set hi rfl ⟨rfl, rfl⟩, rfl⟩

theorem quiet_perform (source : TextSource) (n : Nat) (key : SessionKey) (op : Op) (m : Machine) :
    m.Quiet (m.perform source n key op).2 := by
  unfold perform
  cases hi : m.interps[n]? with
  | none => exact .refl m
  | some i =>
    exact ⟨recalls_set hi rfl (Engine.perform_sameMake source key op ⟨m.heap, i⟩), rfl⟩

theorem quiet_closeSession (n : Nat) (key : SessionKey) (m : Machine) :
    m.Quiet (m.closeSession n key) := by
  unfold closeSession
  cases hi : m.interps[n]? with
  | none => exact .refl m
  | some i => exact ⟨recalls_set hi rfl ⟨rfl, rfl⟩, rfl⟩

theorem quiet_closeSessions (n : Nat) (keys : List SessionKey) (m : Machine) :
    m.Quiet (keys.foldl (fun m key => m.closeSession n key) m) := by
  induction keys generalizing m with
  | nil => exact .refl m
  | cons key keys ih => exact (quiet_closeSession n key m).trans (ih _)

theorem length_closeSessions (n : Nat) (keys : List SessionKey) (m : Machine) :
    (keys.foldl (fun m key => m.closeSession n key) m).interps.length = m.interps.length := by
  induction keys generalizing m with
  | nil => rfl
  | cons key keys ih =>
    refine (ih (m.closeSession n key)).trans ?_
    unfold closeSession
    cases m.interps[n]? with
    | none => rfl
    | some i => exact List.length_set

theorem quiet_setResolver (n : Nat) (r : Resolver) (m : Machine) :
    m.Quiet (m.setResolver n r) := by
  unfold setResolver
  cases hi : m.interps[n]? with
  | none => exact .refl m
  | some i => exact ⟨recalls_set hi rfl ⟨rfl, rfl⟩, rfl⟩

end Machine

/-- From a channel of an endpoint to a later state of it, in which nothing was put down in the
journal. -/
structure Channel.Quiet (c c' : Channel (Machine × Endpoint)) : Prop where
  machine : c.peer.1.Quiet c'.peer.1
  interp : c'.peer.2.interp = c.peer.2.interp
  live : c'.live = c.live

namespace Channel

variable {m : Machine} {e : Endpoint}

theorem Quiet.refl (c : Channel (Machine × Endpoint)) : c.Quiet c := ⟨.refl _, rfl, rfl⟩

theorem quiet_serve (source : TextSource) (r : Request) (live : Bool) (m : Machine) (e : Endpoint) :
    Quiet ⟨live, (m, e)⟩ ⟨live, (Endpoint.serve source r (m, e)).2⟩ := by
  cases r with
  | openSession =>
    have hm := Machine.quiet_openSession e.interp m
    simp only [Endpoint.serve]
    rcases h : m.openSession e.interp with ⟨cause | key, m'⟩
    · rw [h] at hm
      exact ⟨hm, rfl, rfl⟩
    · rw [h] at hm
      exact ⟨hm, rfl, rfl⟩
  | closeSession key =>
    simp only [Endpoint.serve]
    split
    · exact ⟨Machine.quiet_closeSession _ key m, rfl, rfl⟩
    · exact .refl _
  | act key op =>
    simp only [Endpoint.serve]
    split
    · exact ⟨Machine.quiet_perform source _ key op m, rfl, rfl⟩
    · exact .refl _

/-- Whatever bytes come in, they have nothing to do with images. -/
theorem quiet_dispatch (source : TextSource) (bytes : List UInt8) (live : Bool) (m : Machine)
    (e : Endpoint) : Quiet ⟨live, (m, e)⟩ ⟨live, (Endpoint.dispatch source bytes (m, e)).2⟩ := by
  unfold Endpoint.dispatch
  cases Wire.decodeRequest bytes with
  | error cause =>
    simp only []
    split <;> exact .refl _
  | ok r =>
    have hq := quiet_serve source r live m e
    simp only []
    split <;> exact hq

theorem quiet_call (source : TextSource) (r : Request) (c : Channel (Machine × Endpoint)) :
    c.Quiet (c.call (Endpoint.image source) r).2 := by
  unfold call
  split
  · split
    · exact .refl c
    · exact quiet_dispatch source _ c.live c.peer.1 c.peer.2
  · exact .refl c

theorem quiet_setResolver (source : TextSource) (r : Resolver)
    (c : Channel (Machine × Endpoint)) : c.Quiet (c.setResolver (Endpoint.image source) r) := by
  unfold setResolver
  split
  · exact ⟨Machine.quiet_setResolver _ _ _, rfl, rfl⟩
  · exact .refl c

end Channel

end InstancePool
