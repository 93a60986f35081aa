import InstancePool.Host.Inventory

/-!
How an action of a host is made of smaller ones: what it comes to, and what it leaves alone. A relation
that holds across every small step holds across the whole action.
-/

namespace InstancePool

/-- A relation between the host before and after something, closed under doing nothing and under
doing one thing after another. -/
class Frame (R : Host → Host → Prop) : Prop where
  refl : ∀ h, R h h
  trans : ∀ {h₁ h₂ h₃}, R h₁ h₂ → R h₂ h₃ → R h₁ h₃

namespace HostM

variable {α β : Type} {R : Host → Host → Prop}

@[simp] theorem runOn_pure (h : Host) (a : α) : runOn h (pure a) = (.ok a, h) := rfl

@[simp] theorem runOn_throw (h : Host) (e : Error) :
    runOn h (throw e : HostM α) = (.error e, h) := rfl

@[simp] theorem runOn_of (h : Host) (f : Host → Except Error α × Host) : runOn h (of f) = f h := rfl

@[simp] theorem runOn_settle (h : Host) (r : Except Error α) : runOn h (settle r) = (r, h) := rfl

@[simp] theorem runOn_modify (h : Host) (f : Host → Host) :
    runOn h (modify f) = (.ok (), f h) := rfl

@[simp] theorem runOn_find (h : Host) (get : Host → Option α) :
    runOn h (find get) = ((get h).elim (.error .unknownHandle) .ok, h) := rfl

@[simp] theorem runOn_outcome (h : Host) (x : HostM α) :
    runOn h (outcome x) = (.ok (runOn h x).1, (runOn h x).2) := rfl

@[simp] theorem runOn_ignoring (h : Host) (x : HostM Unit) :
    runOn h (ignoring x) = (.ok (), (runOn h x).2) := rfl

theorem runOn_bind (h : Host) (x : HostM α) (f : α → HostM β) :
    runOn h (x >>= f) =
      match runOn h x with
      | (.ok a, h') => runOn h' (f a)
      | (.error e, h') => (.error e, h') := by
  change (ExceptT.bindCont f (x h).1) (x h).2 = _
  unfold runOn
  generalize x h = r
  rcases r with ⟨a | e, h'⟩ <;> rfl

theorem runOn_bind_ok {h h' : Host} {x : HostM α} {a : α} (hx : runOn h x = (.ok a, h'))
    (f : α → HostM β) : runOn h (x >>= f) = runOn h' (f a) := by
  rw [runOn_bind, hx]

theorem runOn_bind_error {h h' : Host} {x : HostM α} {e : Error} (hx : runOn h x = (.error e, h'))
    (f : α → HostM β) : runOn h (x >>= f) = (.error e, h') := by
  rw [runOn_bind, hx]

/-- An action whose result is lost does what it does with its result. -/
theorem runOn_lost (h : Host) (x : HostM α) : (runOn h (do let _ ← x)).2 = (runOn h x).2 := by
  rw [runOn_bind]
  rcases runOn h x with ⟨e | a, h'⟩ <;> rfl

theorem runOn_onFailure (h : Host) (x : HostM α) (cleanup : HostM Unit) :
    runOn h (onFailure x cleanup) =
      match runOn h x with
      | (.ok a, h') => (.ok a, h')
      | (.error e, h') =>
        match runOn h' cleanup with
        | (.ok (), h'') => (.error e, h'')
        | (.error e', h'') => (.error e', h'') := by
  unfold onFailure
  rw [runOn_bind, runOn_outcome]
  rcases runOn h x with ⟨e | a, h'⟩
  · simp only [runOn_bind]
    rcases runOn h' cleanup with ⟨e' | u, h''⟩ <;> rfl
  · rfl

theorem runOn_of_toOption {h : Host} {x : HostM α} {a : α} (ha : (runOn h x).1.toOption = some a) :
    runOn h x = (.ok a, (runOn h x).2) := by
  rcases hx : runOn h x with ⟨e | b, h'⟩
  · rw [hx] at ha
    cases ha
  · rw [hx] at ha
    cases ha
    rfl

/-- What an action did when it succeeded, step by step. -/
theorem bind_ok {h h' : Host} {x : HostM α} {f : α → HostM β} {b : β}
    (hb : runOn h (x >>= f) = (.ok b, h')) :
    ∃ a h₁, runOn h x = (.ok a, h₁) ∧ runOn h₁ (f a) = (.ok b, h') := by
  rw [runOn_bind] at hb
  rcases hx : runOn h x with ⟨e | a, h₁⟩
  · rw [hx] at hb
    cases hb
  · rw [hx] at hb
    exact ⟨a, h₁, rfl, hb⟩

/-- Where an action failed. -/
theorem bind_error {h h' : Host} {x : HostM α} {f : α → HostM β} {e : Error}
    (hb : runOn h (x >>= f) = (.error e, h')) :
    runOn h x = (.error e, h') ∨
      ∃ a h₁, runOn h x = (.ok a, h₁) ∧ runOn h₁ (f a) = (.error e, h') := by
  rw [runOn_bind] at hb
  rcases hx : runOn h x with ⟨e' | a, h₁⟩
  · rw [hx] at hb
    cases hb
    exact .inl rfl
  · rw [hx] at hb
    exact .inr ⟨a, h₁, rfl, hb⟩

theorem find_ok {h h' : Host} {get : Host → Option α} {a : α}
    (ha : runOn h (find get) = (.ok a, h')) : get h = some a ∧ h = h' := by
  rw [runOn_find] at ha
  cases hg : get h with
  | none => rw [hg] at ha; cases ha
  | some b =>
    rw [hg] at ha
    cases ha
    exact ⟨rfl, rfl⟩

theorem find_cases (get : Host → Option α) (h : Host) :
    (get h = none ∧ runOn h (find get) = (.error .unknownHandle, h)) ∨
      ∃ a, get h = some a ∧ runOn h (find get) = (.ok a, h) := by
  rw [runOn_find]
  cases get h with
  | none => exact .inl ⟨rfl, rfl⟩
  | some a => exact .inr ⟨a, rfl, rfl⟩

theorem onFailure_ok {h h' : Host} {x : HostM α} {cleanup : HostM Unit} {a : α}
    (ha : runOn h (onFailure x cleanup) = (.ok a, h')) : runOn h x = (.ok a, h') := by
  rw [runOn_onFailure] at ha
  rcases hx : runOn h x with ⟨e | b, h₁⟩
  · rw [hx] at ha
    simp only [] at ha
    split at ha <;> cases ha
  · rw [hx] at ha
    exact ha

/-- The cleanup ran where an action failed. -/
theorem onFailure_failed {h h' : Host} {x : HostM α} {cleanup : HostM Unit} {e : Error}
    (he : runOn h (onFailure x cleanup) = (.error e, h')) :
    ∃ e₁ h₁, runOn h x = (.error e₁, h₁) ∧ h' = (runOn h₁ cleanup).2 := by
  rw [runOn_onFailure] at he
  rcases hx : runOn h x with ⟨e₁ | b, h₁⟩
  · refine ⟨e₁, h₁, rfl, ?_⟩
    rw [hx] at he
    simp only [] at he
    split at he <;>
    · rename_i hc
      cases he
      rw [hc]
  · rw [hx] at he
    cases he

theorem onFailure_of_ok {h h' : Host} {x : HostM α} {a : α} (hx : runOn h x = (.ok a, h'))
    (cleanup : HostM Unit) : runOn h (onFailure x cleanup) = (.ok a, h') := by
  rw [runOn_onFailure, hx]

theorem onFailure_of_error {h h' : Host} {x : HostM α} {e : Error}
    (hx : runOn h x = (.error e, h')) (cleanup : HostM Unit) :
    ∃ e', runOn h (onFailure x cleanup) = (.error e', (runOn h' cleanup).2) := by
  rw [runOn_onFailure, hx]
  simp only []
  generalize runOn h' cleanup = r
  rcases r with ⟨e' | u, h''⟩
  · exact ⟨e', rfl⟩
  · exact ⟨e, rfl⟩

/-- Wherever an action starts, it ends at a host that stands in a relation to the first one. -/
def Within (R : Host → Host → Prop) (x : HostM α) : Prop := ∀ h, R h (runOn h x).2

theorem Within.of_eq {x : HostM α} {h h' : Host} {r : Except Error α} (hx : Within R x)
    (hr : runOn h x = (r, h')) : R h h' := by
  have hh := hx h
  rw [hr] at hh
  exact hh

theorem Within.mono {S : Host → Host → Prop} {x : HostM α} (hx : Within R x)
    (hs : ∀ h h', R h h' → S h h') : Within S x :=
  fun h => hs _ _ (hx h)

theorem Within.outcome {x : HostM α} (hx : Within R x) : Within R (outcome x) := hx

theorem Within.ignoring {x : HostM Unit} (hx : Within R x) : Within R (ignoring x) := hx

theorem Within.lost {x : HostM α} (hx : Within R x) : Within R (do let _ ← x) := by
  intro h
  rw [runOn_lost]
  exact hx h

section Frame

variable [Frame R]

theorem within_settle (r : Except Error α) : Within R (settle r) := fun h => Frame.refl h

theorem within_pure (a : α) : Within R (pure a : HostM α) := fun h => Frame.refl h

theorem within_throw (e : Error) : Within R (throw e : HostM α) := fun h => Frame.refl h

theorem within_find (get : Host → Option α) : Within R (find get) := fun h => Frame.refl h

/-- One action after another, when what the second one does depends on what came before. -/
theorem bind_rel {h : Host} {x : HostM α} {f : α → HostM β} (hx : R h (runOn h x).2)
    (hf : ∀ a h', runOn h x = (.ok a, h') → R h' (runOn h' (f a)).2) :
    R h (runOn h (x >>= f)).2 := by
  rw [runOn_bind]
  rcases hr : runOn h x with ⟨e | a, h'⟩
  · rw [hr] at hx
    exact hx
  · rw [hr] at hx
    exact Frame.trans hx (hf a h' hr)

theorem Within.bind {x : HostM α} {f : α → HostM β} (hx : Within R x)
    (hf : ∀ a, Within R (f a)) : Within R (x >>= f) :=
  fun h => bind_rel (hx h) fun a h' _ => hf a h'

theorem Within.map {x : HostM α} (hx : Within R x) (f : α → β) : Within R (f <$> x) := by
  rw [map_eq_pure_bind]
  exact hx.bind fun a => within_pure (f a)

theorem Within.onFailure {x : HostM α} {cleanup : HostM Unit} (hx : Within R x)
    (hc : Within R cleanup) : Within R (onFailure x cleanup) :=
  hx.outcome.bind fun r => match r with
    | .ok a => within_pure a
    | .error e => hc.bind fun _ => within_throw e

theorem Within.ensuring {x : HostM α} {cleanup : HostM Unit} (hx : Within R x)
    (hc : Within R cleanup) : Within R (ensuring x cleanup) :=
  hx.outcome.bind fun r => hc.bind fun _ => within_settle r

end Frame

end HostM

open HostM in
theorem Host.acquireSlot_cases (balancer : Nat) (t : Thread) (h : Host) :
    (h.fleet.acquire balancer t = none ∧
        runOn h (acquireSlot balancer t) = (.error .unknownHandle, h)) ∨
      ∃ slot fleet, h.fleet.acquire balancer t = some (slot, fleet) ∧
        runOn h (acquireSlot balancer t) = (.ok slot, { h with fleet }) := by
  rw [acquireSlot, runOn_of]
  cases h.fleet.acquire balancer t with
  | none => exact .inl ⟨rfl, rfl⟩
  | some taken => exact .inr ⟨taken.1, taken.2, rfl, rfl⟩

/-- Keeping a property is a relation of this kind. -/
instance Frame.keeping (P : Host → Prop) : Frame fun h h' => P h → P h' where
  refl _ := id
  trans h₁ h₂ := h₂ ∘ h₁

end InstancePool
