import InstancePool.Proofs.Replica.UnloadFrom
import InstancePool.Proofs.Instance.Teardown

/-!
How a value is unloaded from all instances of its manager when some of them fail. Each of them has its turn,
whatever became of those before, and is rid of the value if it does not fail itself. The value is done with
only if none fails; as long as one does, all can be tried again.
-/

namespace InstancePool

open HostM

section FirstFailure

variable {outcomes : List (Except Error Unit)}

theorem firstFailure_eq_ok (ho : ∀ o ∈ outcomes, o = .ok ()) : firstFailure outcomes = .ok () := by
  have hnone : (outcomes.find? fun o => !o.isOk) = none := by
    refine List.find?_eq_none.2 fun o hmem => ?_
    rw [ho o hmem]
    decide
  rw [firstFailure, hnone]
  rfl

/-- The first failure is the one with the lowest index. -/
theorem firstFailure_cases (outcomes : List (Except Error Unit)) :
    (∀ o ∈ outcomes, o = .ok ()) ∨ ∃ (i : Nat) (e : Error), outcomes[i]? = some (.error e) ∧
      (∀ j < i, outcomes[j]? = some (.ok ())) ∧ firstFailure outcomes = .error e := by
  have hok {o : Except Error Unit} (ho : ¬ (!o.isOk) = true) : o = .ok () := by
    cases o with
    | ok u => rfl
    | error e => exact absurd rfl ho
  cases hf : outcomes.find? fun o => !o.isOk with
  | none => exact .inl fun o hmem => hok (List.find?_eq_none.1 hf o hmem)
  | some o =>
    obtain ⟨hfail, i, hi, ho, hbefore⟩ := List.find?_eq_some_iff_getElem.1 hf
    cases o with
    | ok u => cases hfail
    | error e =>
      refine .inr ⟨i, e, by rw [List.getElem?_eq_getElem hi, ho], fun j hj => ?_, ?_⟩
      · have hlt : j < outcomes.length := Nat.lt_trans hj hi
        have hsucceeds : ¬ (!outcomes[j].isOk) = true := by simpa using hbefore j hj
        rw [List.getElem?_eq_getElem hlt, hok hsucceeds]
      · rw [firstFailure, hf]
        rfl

end FirstFailure

namespace Host

/-- The host after attempts to unload a value from instances, one after another. -/
def attempting (h : Host) (r : Replica) (ns : List InstanceId) : Host :=
  ns.foldl (fun h n => (runOn h (unloadFrom r n)).2) h

/-- What each of the attempts comes to. -/
def attempts (h : Host) (r : Replica) : List InstanceId → List (Except Error Unit)
  | [] => []
  | n :: ns => (runOn h (unloadFrom r n)).1 :: (runOn h (unloadFrom r n)).2.attempts r ns

variable {h h' : Host} {k : ReplicaId} {r : Replica} {manager : Manager} {n : InstanceId}
  {ns : List InstanceId} {i : Nat}

theorem rel_attempting {R : Host → Host → Prop} [Frame R] (hR : ∀ n, Within R (unloadFrom r n))
    (h : Host) (ns : List InstanceId) : R h (h.attempting r ns) := by
  induction ns generalizing h with
  | nil => exact Frame.refl h
  | cons n ns ih => exact Frame.trans (hR n h) (ih _)

theorem attempting_take_succ (hi : ns[i]? = some n) : h.attempting r (ns.take (i + 1)) =
    (runOn (h.attempting r (ns.take i)) (unloadFrom r n)).2 := by
  rw [List.take_add_one, hi, Option.toList_some, attempting, List.foldl_append]
  rfl

/-- The attempts that come before do not count, but for the host that they leave. -/
theorem attempting_drop (h : Host) (r : Replica) (ns : List InstanceId) (i : Nat) :
    (h.attempting r (ns.take i)).attempting r (ns.drop i) = h.attempting r ns := by
  rw [attempting, attempting, ← List.foldl_append, List.take_append_drop]
  rfl

theorem attempts_getElem? (h : Host) (r : Replica) (ns : List InstanceId) (i : Nat) :
    (h.attempts r ns)[i]? =
      ns[i]?.map fun n => (runOn (h.attempting r (ns.take i)) (unloadFrom r n)).1 := by
  induction ns generalizing h i with
  | nil => rfl
  | cons n ns ih =>
    cases i with
    | zero => rfl
    | succ i => exact ih _ i

/-- All instances are tried, and the first failure is reported. -/
theorem runOn_unloadFromEach (h : Host) (r : Replica) (ns : List InstanceId) :
    runOn h (unloadFromEach r ns) = (firstFailure (h.attempts r ns), h.attempting r ns) := by
  induction ns generalizing h with
  | nil => rfl
  | cons n ns ih =>
    simp only [unloadFromEach, runOn_bind, runOn_outcome, ih, runOn_settle, attempts]
    cases (runOn h (unloadFrom r n)).1 with
    | error e => rfl
    | ok u => rfl

/-- An instance that did not fail is rid of the value for good. -/
theorem attempting_gone (hm : h.managers[r.manager]? = some manager) (hi : ns[i]? = some n)
    (hn : n ∈ manager.instances) (ho : (h.attempts r ns)[i]? = some (.ok ())) :
    (h.attempting r ns).holds n r.id = false := by
  have hbefore : h.SameBooks (h.attempting r (ns.take i)) := rel_attempting (sameBooks_unloadFrom r) h _
  have hattempt := attempt_unloadFrom (hbefore.managers ▸ hm) hn
  rw [attempts_getElem?, hi, Option.map_some, Option.some.injEq] at ho
  rw [ho] at hattempt
  have hgone := hattempt.holds_eq_false
  rw [← attempting_take_succ hi] at hgone
  have hafter : Drains r.id (h.attempting r (ns.take (i + 1))) (h.attempting r ns) := by
    rw [← attempting_drop h r ns (i + 1)]
    exact rel_attempting (drains_unloadFrom r) _ _
  rw [← Bool.not_eq_true]
  intro hheld
  cases hgone.symm.trans (hafter.holds_before hheld)

/-- A value that is unloaded from all instances is marked only if none of them fails. -/
theorem runOn_unloadAll (hr : h.replicas.get? k = some r)
    (hm : h.managers[r.manager]? = some manager) :
    runOn h (unloadAll k) =
      match firstFailure (h.attempts r manager.instances) with
      | .ok () => (.ok (), { h.attempting r manager.instances with
          replicas := (h.attempting r manager.instances).replicas.insert k { r with unloaded := true } })
      | .error e => (.error e, h.attempting r manager.instances) := by
  rw [unloadAll, runOn_bind_ok (getReplica_ok hr), runOn_bind_ok (getManager_ok hm), runOn_bind,
    runOn_unloadFromEach]
  cases firstFailure (h.attempts r manager.instances) with
  | error e => rfl
  | ok u => rfl

/-- Where none fails, all instances are rid of the value, and it is marked. -/
theorem unloadAll_complete (hr : h.replicas.get? k = some r)
    (hm : h.managers[r.manager]? = some manager)
    (ho : ∀ o ∈ h.attempts r manager.instances, o = .ok ()) :
    ∃ h', runOn h (unloadAll k) = (.ok (), h') ∧
      h'.replicas.get? k = some { r with unloaded := true } ∧
      ∀ n ∈ manager.instances, h'.holds n r.id = false := by
  have hrun := runOn_unloadAll hr hm
  rw [firstFailure_eq_ok ho] at hrun
  refine ⟨_, hrun, ?_, fun n hn => ?_⟩
  · rw [Table.get?_insert_self]
  · obtain ⟨i, hi⟩ := List.getElem?_of_mem hn
    have hsome : ∃ o, (h.attempts r manager.instances)[i]? = some o := by
      rw [attempts_getElem?, hi]
      exact ⟨_, rfl⟩
    obtain ⟨o, hget⟩ := hsome
    rw [ho o (List.mem_of_getElem? hget)] at hget
    exact attempting_gone hm hi hn hget

/-- A handle is given up without fail. Only with the last one something is unloaded. -/
theorem runOn_dropReplica (hr : h.replicas.get? k = some r) :
    runOn h (dropReplica k) = (.ok (),
      if 1 < r.handles then
        { h with replicas := h.replicas.insert k { r with handles := r.handles - 1 } }
      else
        let h₀ := if r.unloaded then h else (runOn h (unloadAll k)).2
        { h₀ with replicas := h₀.replicas.erase k }) := by
  rw [dropReplica, runOn_bind_ok (getReplica_ok hr)]
  by_cases hmany : 1 < r.handles
  · rw [if_pos hmany, if_pos hmany]
    rfl
  · rw [if_neg hmany, if_neg hmany]
    cases hu : r.unloaded with
    | true => rfl
    | false => rfl

/-- Whatever became of a host and its instances before, and however they fail:
* A value is unloaded from the instances of its manager one after another, in their order, each attempt
  starting from what the one before left, whether that failed or not. An attempt fails if no session can be
  opened on the instance or the answer in the session is a fault, and only then. If it does not fail, the
  instance holds nothing for the value in the end. What is held for other values is not touched.
* If no instance fails, all of this succeeds, and the value is marked as unloaded. Otherwise it comes to the
  failure of the first instance that failed, and the value is no more marked than it was.
* As long as the value is there, so after a failure, it can be unloaded again, from whatever is left: if no
  instance fails then, it is marked, and no instance holds anything for it.
* Of several handles one is given up without further ado. With the last one the value is unloaded from all
  instances, once, unless it is marked, and then forgotten. However that ends, it is no failure. -/
theorem unloadAll_despite_failures (h : Host) (k : ReplicaId) (r : Replica) (manager : Manager)
    (hr : h.replicas.get? k = some r) (hm : h.managers[r.manager]? = some manager) :
    let ns := manager.instances
    let outcomes := h.attempts r ns
    let h' := h.attempting r ns
    (∀ (i : Nat) (n : InstanceId), ns[i]? = some n →
      let hᵢ := h.attempting r (ns.take i)
      ∃ o, outcomes[i]? = some o ∧
        runOn hᵢ (unloadFrom r n) = (o, h.attempting r (ns.take (i + 1))) ∧
        (∀ e, o = .error e ↔ (runOn hᵢ (visit n)).1 = .error e ∨
          ∃ link key h₁, runOn hᵢ (visit n) = (.ok (link, key), h₁) ∧
            (runOn h₁ (link.perform key (.unload r.id))).1 = .error e) ∧
        (o = .ok () → h'.holds n r.id = false)) ∧
    (∀ (n : InstanceId) (id : ObjectId), id ≠ r.id → h'.holds n id = h.holds n id) ∧
    ((∀ o ∈ outcomes, o = .ok ()) ∧ runOn h (unload k none) =
        (.ok (), { h' with replicas := h.replicas.insert k { r with unloaded := true } }) ∨
      ∃ (i : Nat) (e : Error), outcomes[i]? = some (.error e) ∧
        (∀ j < i, outcomes[j]? = some (.ok ())) ∧ runOn h (unload k none) = (.error e, h')) ∧
    h'.replicas = h.replicas ∧ h'.managers = h.managers ∧
    (∀ (h₁ : Host) (manager₁ : Manager), h₁.replicas.get? k = some r →
      h₁.managers[r.manager]? = some manager₁ → manager₁.instances = ns →
      (∀ o ∈ h₁.attempts r ns, o = .ok ()) →
      ∃ h₂, runOn h₁ (unload k none) = (.ok (), h₂) ∧
        h₂.replicas.get? k = some { r with unloaded := true } ∧ ∀ n ∈ ns, h₂.holds n r.id = false) ∧
    (1 < r.handles → runOn h (dropReplica k) =
      (.ok (), { h with replicas := h.replicas.insert k { r with handles := r.handles - 1 } })) ∧
    (r.handles ≤ 1 →
      let h₀ := if r.unloaded then h else (runOn h (unload k none)).2
      runOn h (dropReplica k) = (.ok (), { h₀ with replicas := h₀.replicas.erase k })) := by
  intro ns outcomes h'
  have hbooks (ns : List InstanceId) : h.SameBooks (h.attempting r ns) :=
    rel_attempting (sameBooks_unloadFrom r) h ns
  have hdrop := runOn_dropReplica hr
  refine ⟨fun i n hi => ?_, fun n id hne => ?_, ?_, (hbooks ns).replicas, (hbooks ns).managers,
    fun h₁ manager₁ hr₁ hm₁ hns ho => ?_, fun hmany => ?_, fun hlast => ?_⟩
  · have hn : n ∈ manager.instances := List.mem_of_getElem? hi
    have hattempt := attempt_unloadFrom ((hbooks (ns.take i)).managers ▸ hm) hn
    have ho : outcomes[i]? = some (runOn (h.attempting r (ns.take i)) (unloadFrom r n)).1 := by
      rw [attempts_getElem?, hi, Option.map_some]
    refine ⟨_, ho, ?_, hattempt.error_iff, fun hok => attempting_gone hm hi hn (hok ▸ ho)⟩
    rw [attempting_take_succ hi]
  · have hdrains : h.Drains r.id h' := rel_attempting (drains_unloadFrom r) h ns
    exact hdrains.holds_of_ne hne n
  -- All instances have had their attempt before the first failure is reported.
  · have hrun : runOn h (unload k none) = _ := runOn_unloadAll hr hm
    rcases firstFailure_cases outcomes with ho | ⟨i, e, hi, hbefore, hfirst⟩
    · rw [firstFailure_eq_ok ho, (hbooks manager.instances).replicas] at hrun
      exact .inl ⟨ho, hrun⟩
    · rw [hfirst] at hrun
      exact .inr ⟨i, e, hi, hbefore, hrun⟩
  · rw [← hns] at ho ⊢
    exact unloadAll_complete hr₁ hm₁ ho
  · rw [if_pos hmany] at hdrop
    exact hdrop
  · rw [if_neg (Nat.not_lt.2 hlast)] at hdrop
    exact hdrop

end Host

/-- A manager with three instances behind boundaries, each of which holds an object for the one value of
the manager. -/
def Deed.spread : List Deed :=
  [.act (.addSource (.stock { rule := (Stock.simulated 0 none).rule })),
    .act (.addLoader (.simulated { throughChannel := true })), .act (.addEnvironment {}),
    .act (.buildManager { count := 3, image := { source := 0, loader := 0 }, environment := 0 }),
    .act (.openPinned 0 0), .act (.perform 0 (.eval "[1]")), .act (.createReplica 0 ⟨⟨4⟩, 0⟩),
    .act (.openReplica 0 (some 0) none), .act (.openReplica 0 (some 1) none),
    .act (.openReplica 0 (some 2) none)]

/-- The host after a channel was cut or mended. -/
def Host.rewire (h : Host) (c : Nat) (live : Bool) : Host :=
  { h with channels := h.channels.modify c fun channel => { channel with live } }

/-- While the channel to the second instance is cut, the value is unloaded from the first and the third one
and this is a failure. Once the channel is mended, the rest is done. Giving up the handle while it is cut is
no failure. -/
theorem Host.unloadAll_despite_failures_cut :
    let h := (Host.afterDeeds {} Deed.spread).rewire 1 false
    let r : Replica := { id := ⟨0⟩, data := [5, 1, 2, 2], manager := 0 }
    let h' := h.attempting r [0, 1, 2]
    runOn h (unload 0 none) = (.error .closed, h') ∧
      h'.holds 0 ⟨0⟩ = false ∧ h'.holds 1 ⟨0⟩ = true ∧ h'.holds 2 ⟨0⟩ = false ∧
      (∃ h₂, runOn (h'.rewire 1 true) (unload 0 none) = (.ok (), h₂) ∧
        ∀ n ∈ [0, 1, 2], h₂.holds n ⟨0⟩ = false) ∧
      (runOn h (dropReplica 0)).1 = .ok () := by
  intro h r h'
  have hr : h.replicas.get? 0 = some r := by decide +kernel
  have hm : h.managers[0]? = some ⟨[0, 1, 2], 0, 0, 0, 1⟩ := by decide +kernel
  have houtcomes : h.attempts r [0, 1, 2] = [.ok (), .error .closed, .ok ()] := by decide +kernel
  have hrecords (g : Host) : (g.rewire 1 true).replicas = g.replicas := rfl
  have hteams (g : Host) : (g.rewire 1 true).managers = g.managers := rfl
  have hmended : (h'.rewire 1 true).attempts r [0, 1, 2] = [.ok (), .ok (), .ok ()] := by decide +kernel
  obtain ⟨heach, -, hend, hreplicas, hmanagers, hagain, -, hdrop⟩ :=
    Host.unloadAll_despite_failures h 0 r ⟨[0, 1, 2], 0, 0, 0, 1⟩ hr hm
  refine ⟨?_, ?_, by decide +kernel, ?_, ?_, ?_⟩
  · rcases hend with ⟨hok, -⟩ | ⟨i, e, hi, hbefore, hrun⟩
    · rw [houtcomes] at hok
      cases hok (.error .closed) (by decide)
    · rw [houtcomes] at hi hbefore
      -- The first instance did not fail, and the second one did.
      obtain rfl : i = 1 := by
        match i with
        | 0 => cases hi
        | 1 => rfl
        | i + 2 => cases hbefore 1 (by omega)
      cases hi
      exact hrun
  · obtain ⟨o, ho, -, -, hgone⟩ := heach 0 0 rfl
    rw [houtcomes] at ho
    cases ho
    exact hgone rfl
  · obtain ⟨o, ho, -, -, hgone⟩ := heach 2 2 rfl
    rw [houtcomes] at ho
    cases ho
    exact hgone rfl
  · have hrecord : (h'.rewire 1 true).replicas.get? 0 = some r := by
      rw [hrecords, hreplicas, hr]
    have hmanager : (h'.rewire 1 true).managers[0]? = some ⟨[0, 1, 2], 0, 0, 0, 1⟩ := by
      rw [hteams, hmanagers, hm]
    obtain ⟨h₂, hrun, -, hgone⟩ := hagain (h'.rewire 1 true) ⟨[0, 1, 2], 0, 0, 0, 1⟩ hrecord hmanager rfl
      fun o ho => by
        rw [hmended] at ho
        simpa using ho
    exact ⟨h₂, hrun, hgone⟩
  · rw [hdrop (Nat.le_refl 1)]

end InstancePool
