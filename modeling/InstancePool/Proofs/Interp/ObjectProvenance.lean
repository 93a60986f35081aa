import InstancePool.Proofs.Interp.FailedOperations

/-!
Where the objects come from that operations hand out. Either an operation hands out an object that there
is, and that is told from what it is given; or the object is new.
-/

namespace InstancePool

/-- What an operation hands out: an object that there is, or a new one. -/
inductive Provenance where
  | existing (n : ObjectIndex)
  | fresh
  deriving Repr, DecidableEq

namespace Engine

variable {source : TextSource} {e : Engine} {key : SessionKey} {slots : List ObjectIndex} {op : Op}

/-- What an operation hands out if it succeeds, told from what it is given. -/
def provenance (e : Engine) (key : SessionKey) (slots : List ObjectIndex) : Op → Option Provenance
  | .global module name =>
    match e.interp.modules.get? module with
    | some n => (e.heap.member n name).toOption.map .existing
    | none => some .fresh
  | .eval _ | .ofValue _ => some .fresh
  | .attr target name => do
    let n ← (resolveRef key slots target).toOption
    (e.heap.member n name).toOption.map .existing
  | .call callee args => do
    let n ← (resolveRef key slots callee).toOption
    match e.heap.get n, args with
    | .builtin .echo, [arg] => (resolveRef key slots arg).toOption.map .existing
    | .builtin .echo, _ => none
    | .builtin _, _ => some .fresh
    | _, _ => none
  | .restore id _ =>
    match e.interp.loaded.get? id with
    | some n => some (.existing n)
    | none => some .fresh
  | _ => none

/-- An operation has handed out an object, one that there was or a new one. -/
structure Hands (e : Engine) (key : SessionKey) (slots : List ObjectIndex) (op : Op) (e' : Engine)
    (n : Nat) : Prop where
  last : e'.interp.sessions.get? key = some (slots ++ [n])
  provenance : e.provenance key slots op = some (.existing n) ∧ e'.heap = e.heap ∨
    e.provenance key slots op = some .fresh ∧ e.heap.objects.length ≤ n ∧ n < e'.heap.objects.length

theorem slots_handOut (e : Engine) (key : SessionKey) (slots : List ObjectIndex) (n : ObjectIndex) :
    (e.handOut key slots n).2.interp.sessions.get? key = some (slots ++ [n]) := by
  simp only [handOut, Table.get?_insert_self]

theorem hands_old {n : ObjectIndex} (hr : e.provenance key slots op = some (.existing n)) :
    e.Hands key slots op (e.handOut key slots n).2 n :=
  ⟨slots_handOut e key slots n, .inl ⟨hr, rfl⟩⟩

theorem hands_new {e' : Engine} {n : Nat} (hr : e.provenance key slots op = some .fresh)
    (hn : e.heap.objects.length ≤ n ∧ n < e'.heap.objects.length) :
    e.Hands key slots op (e'.handOut key slots n).2 n :=
  ⟨slots_handOut e' key slots n, .inr ⟨hr, hn⟩⟩

/-- What was added last is new. -/
theorem new_alloc (h : Heap) (o : Object) :
    h.objects.length ≤ h.objects.length ∧ h.objects.length < (h.alloc o).2.objects.length := by
  refine ⟨Nat.le_refl _, ?_⟩
  rw [Heap.alloc, List.length_append]
  exact Nat.lt_succ_self _

theorem resolveRefs_singleton {rs : List Ref} {n : ObjectIndex}
    (h : rs.mapM (resolveRef key slots) = .ok [n]) :
    ∃ r, rs = [r] ∧ resolveRef key slots r = .ok n := by
  cases rs with
  | nil => cases h
  | cons r rs =>
    rw [List.mapM_cons] at h
    obtain ⟨m, hm, h⟩ := Except.bind_ok h
    obtain ⟨ms, hms, h⟩ := Except.bind_ok h
    cases h
    cases rs with
    | nil => exact ⟨r, rfl, hm⟩
    | cons r' rs =>
      rw [List.mapM_cons] at hms
      obtain ⟨m', -, hms⟩ := Except.bind_ok hms
      obtain ⟨ms', -, hms⟩ := Except.bind_ok hms
      cases hms

/-- What `echo` returns is never new. -/
theorem ne_echo_of_apply {h : Heap} {b : Builtin} {args : List ObjectIndex} {v : Value}
    (hb : b.apply h args = .ok (.fresh v)) : b ≠ .echo := by
  rintro rfl
  match args, hb with
  | [_], hb => cases hb
  | [], hb | _ :: _ :: _, hb => cases hb

theorem hands_of_attempt {x : Response × Engine} {r : Ref} (h : e.attempt key slots op = .ok x)
    (hr : x.1 = .ref r) : ∃ n, e.Hands key slots op x.2 n := by
  cases op with
  | global module name => cases h
  | eval text =>
    simp only [attempt] at h
    split at h
    · cases h
      exact ⟨_, hands_new rfl (new_alloc _ _)⟩
    · cases h
  | ofValue v =>
    cases h
    exact ⟨_, hands_new rfl (new_alloc _ _)⟩
  | attr target name =>
    obtain ⟨n, hn, h⟩ := Except.bind_ok h
    obtain ⟨m, hm, h⟩ := Except.bind_ok h
    cases h
    refine ⟨m, hands_old ?_⟩
    simp only [provenance, hn, hm, Except.toOption, Option.bind_eq_bind, Option.bind_some, Option.map_some]
  | call callee args =>
    obtain ⟨n, hn, h⟩ := Except.bind_ok h
    split at h
    · rename_i b hb
      obtain ⟨ns, hns, h⟩ := Except.bind_ok h
      obtain ⟨result, hresult, h⟩ := Except.bind_ok h
      cases result with
      | existing m =>
        -- This can only be `echo`, which returns its argument.
        cases h
        obtain ⟨rfl, rfl⟩ := apply_existing hresult
        obtain ⟨arg, rfl, harg⟩ := resolveRefs_singleton hns
        refine ⟨m, hands_old ?_⟩
        simp only [provenance, hn, hb, harg, Except.toOption, Option.bind_eq_bind, Option.bind_some,
          Option.map_some]
      | fresh v =>
        cases h
        refine ⟨_, hands_new ?_ (new_alloc _ _)⟩
        have hne := ne_echo_of_apply hresult
        cases b with
        | echo => exact absurd rfl hne
        | _ => simp only [provenance, hn, hb, Except.toOption, Option.bind_eq_bind, Option.bind_some]
    · cases h
  | restore id data =>
    simp only [attempt] at h
    split at h
    · rename_i n hn
      cases h
      exact ⟨n, hands_old (by simp only [provenance, hn])⟩
    · rename_i hn
      split at h
      · cases h
      · cases h
        exact ⟨_, hands_new (by simp only [provenance, hn]) (new_alloc _ _)⟩
  | toValue target =>
    obtain ⟨n, -, h⟩ := Except.bind_ok h
    obtain ⟨v, -, h⟩ := Except.bind_ok h
    cases h
    cases hr
  | setAttr target name value =>
    obtain ⟨n, -, h⟩ := Except.bind_ok h
    obtain ⟨m, -, h⟩ := Except.bind_ok h
    split at h
    · cases h
      cases hr
    · cases h
  | serialize receiver target =>
    obtain ⟨n, -, h⟩ := Except.bind_ok h
    split at h
    · split at h
      · cases h
        cases hr
      · cases h
    · cases h
  | isOwner | unload =>
    cases h
    cases hr

/-- All members of a module that was not cached are new. -/
theorem new_findModule {module name : String} {n m : Nat}
    (hnew : e.interp.modules.get? module = none) (hn : (e.findModule source module).1 = .ok n)
    (hm : (e.findModule source module).2.heap.member n name = .ok m) :
    e.heap.objects.length ≤ m ∧ m < (e.findModule source module).2.heap.objects.length := by
  have hsought := findModule_sought source module e
  generalize e.findModule source module = found at hn hm hsought
  cases hsought with
  | cached hn' =>
    rw [hnew] at hn'
    cases hn'
  | missing => cases hn
  | @made text members _ _ _ _ hmembers =>
    cases hn
    rw [Heap.member_concat (by rw [List.length_append, List.length_map])] at hm
    split at hm
    · rename_i m' hget
      cases hm
      have hnew := hmembers name m hget
      simp only [List.length_append, List.length_map, List.length_singleton]
      omega
    · cases hm

theorem hands_of_perform {r : Ref} (hk : e.interp.sessions.get? key = some slots)
    (hr : (Engine.perform source key op e).1 = .ok (.ref r)) :
    ∃ n, e.Hands key slots op (Engine.perform source key op e).2 n := by
  have hattempt (hr : (e.settle (e.attempt key slots op)).1 = .ok (.ref r)) :
      ∃ n, e.Hands key slots op (e.settle (e.attempt key slots op)).2 n := by
    cases ha : e.attempt key slots op with
    | error f =>
      rw [ha] at hr
      cases hr
    | ok x =>
      rw [ha] at hr
      exact hands_of_attempt ha (Except.ok.inj hr)
  cases op with
  | global module name =>
    rw [perform_global_eq source module name hk] at hr ⊢
    -- A member of a module that is cached is there; if the module is not, all its members are new.
    have hfound (n m : ObjectIndex) (hn : (e.findModule source module).1 = .ok n)
        (hm : (e.findModule source module).2.heap.member n name = .ok m) :
        e.Hands key slots (.global module name)
          ((e.findModule source module).2.handOut key slots m).2 m := by
      cases hcached : e.interp.modules.get? module with
      | some n' =>
        have he : e.findModule source module = (.ok n', e) := by simp only [findModule, hcached]
        rw [he] at hn hm ⊢
        cases hn
        refine hands_old ?_
        simp only [provenance, hcached, hm, Except.toOption, Option.map_some]
      | none =>
        refine hands_new ?_ (new_findModule hcached hn hm)
        simp only [provenance, hcached]
    generalize e.findModule source module = found at hr hfound ⊢
    cases hm : found.1 >>= fun n => found.2.heap.member n name with
    | error f =>
      simp only [hm] at hr
      cases hr
    | ok m =>
      obtain ⟨n, hn, hmember⟩ := Except.bind_ok hm
      simp only [hm]
      exact ⟨m, hfound n m hn hmember⟩
  | _ =>
    simp only [Engine.perform, hk] at hr ⊢
    exact hattempt hr

end Engine

end InstancePool
