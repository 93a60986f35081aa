import InstancePool.Machine
import InstancePool.Proofs.Except
import InstancePool.Proofs.Interp.HeapGrowth

/-!
What an operation of an interpreter comes to. There are few ways to succeed, and they are all there is
to know about what an operation does to the heap, to the interpreter and to its sessions.
-/

namespace InstancePool

namespace Engine

/-- What an operation other than `global` in the session `key` comes to when it succeeds: the
response and the state after it. -/
inductive Done (e : Engine) (key : SessionKey) (slots : List ObjectIndex) :
    Op → Response × Engine → Prop
  /-- Something was looked at. -/
  | seen {op : Op} {r : Response} (hk : r.kind = op.answers) (hr : r.kind ≠ .ref) :
    Done e key slots op (r, e)
  /-- An object that there is was handed out. -/
  | handed {op : Op} (n : ObjectIndex) (hk : op.answers = .ref)
    (hl : ∀ id data, op = .restore id data → e.interp.loaded.get? id = some n) :
    Done e key slots op (e.handOut key slots n)
  /-- A new object was handed out. -/
  | made {op : Op} (v : Value) (hk : op.answers = .ref) (hl : ∀ id data, op ≠ .restore id data) :
    Done e key slots op (e.handOutNew key slots v)
  /-- A member of a namespace was set. -/
  | bound {target value : Ref} {name : String} (n m : ObjectIndex)
    (members : Table String ObjectIndex) (hspace : e.heap.get n = .space members)
    (hn : resolveRef key slots target = .ok n) (hm : resolveRef key slots value = .ok m) :
    Done e key slots (.setAttr target name value)
      (.unit, { e with heap := e.heap.set n (.space (members.insert name m)) })
  /-- An object was made of its serialized form, kept for its identifier and handed out. -/
  | restored {id : ObjectId} {data : List UInt8} (v : Value)
    (hn : e.interp.loaded.get? id = none) (hv : Wire.decodeValue data = .ok v) :
    Done e key slots (.restore id data)
      ((⟨(e.heap.alloc (.value v)).2, { e.interp with
          loaded := e.interp.loaded.insert id e.heap.objects.length
          restores := e.interp.restores + 1 }⟩ : Engine).handOut key slots e.heap.objects.length)
  /-- The object for an identifier was dropped. -/
  | unloaded {id : ObjectId} :
    Done e key slots (.unload id) (.bool (e.interp.loaded.contains id),
      { e with interp := { e.interp with loaded := e.interp.loaded.erase id } })

theorem done_of_attempt {e : Engine} {key : SessionKey} {slots : List ObjectIndex} {op : Op}
    {x : Response × Engine} (h : e.attempt key slots op = .ok x) : Done e key slots op x := by
  cases op with
  | global module name => cases h
  | eval source =>
    simp only [attempt] at h
    split at h
    · obtain rfl := Except.ok.inj h
      exact .made _ rfl (fun _ _ => Op.noConfusion)
    · cases h
  | ofValue v =>
    obtain rfl := Except.ok.inj h
    exact .made v rfl (fun _ _ => Op.noConfusion)
  | toValue target =>
    obtain ⟨n, hn, h⟩ := Except.bind_ok h
    obtain ⟨v, hv, h⟩ := Except.bind_ok h
    obtain rfl := Except.ok.inj h
    exact .seen rfl nofun
  | attr target name =>
    obtain ⟨n, hn, h⟩ := Except.bind_ok h
    obtain ⟨m, hm, h⟩ := Except.bind_ok h
    obtain rfl := Except.ok.inj h
    exact .handed m rfl (fun _ _ => Op.noConfusion)
  | setAttr target name value =>
    obtain ⟨n, hn, h⟩ := Except.bind_ok h
    obtain ⟨m, hm, h⟩ := Except.bind_ok h
    split at h
    · rename_i members hs
      obtain rfl := Except.ok.inj h
      exact .bound n m members hs hn hm
    · cases h
  | call callee args =>
    obtain ⟨n, hn, h⟩ := Except.bind_ok h
    split at h
    · obtain ⟨args, ha, h⟩ := Except.bind_ok h
      obtain ⟨result, hr, h⟩ := Except.bind_ok h
      cases result with
      | existing m =>
        obtain rfl := Except.ok.inj h
        exact .handed m rfl (fun _ _ => Op.noConfusion)
      | fresh v =>
        obtain rfl := Except.ok.inj h
        exact .made v rfl (fun _ _ => Op.noConfusion)
    · cases h
  | isOwner target =>
    obtain rfl := Except.ok.inj h
    exact .seen rfl nofun
  | serialize receiver target =>
    obtain ⟨n, hn, h⟩ := Except.bind_ok h
    split at h
    · split at h
      · obtain rfl := Except.ok.inj h
        exact .seen rfl nofun
      · cases h
    · cases h
  -- The one operation that asks for what is loaded.
  | restore id data =>
    simp only [attempt] at h
    split at h
    · rename_i n hn
      obtain rfl := Except.ok.inj h
      refine .handed n rfl fun id' data' he => ?_
      obtain ⟨rfl, rfl⟩ := Op.restore.inj he
      exact hn
    · rename_i hn
      split at h
      · cases h
      · rename_i v hv
        obtain rfl := Except.ok.inj h
        exact .restored v hn hv
  | unload id =>
    obtain rfl := Except.ok.inj h
    exact .unloaded

/-- What the look-up of a module comes to. -/
theorem findModule_cases (source : TextSource) (name : String) (e : Engine) :
    ∃ heap modules, (e.findModule source name).2 = ⟨heap, { e.interp with modules }⟩ ∧
      e.heap.Extends heap := by
  unfold findModule
  cases e.interp.modules.get? name with
  | some n => exact ⟨e.heap, e.interp.modules, rfl, .refl _⟩
  | none =>
    cases source e.interp.resolver name with
    | none => exact ⟨e.heap, e.interp.modules, rfl, .refl _⟩
    | some text =>
      have hb := Heap.extends_allocBindings e.heap (ModuleText.read text).1
      simp only []
      cases (ModuleText.read text).2 with
      | some problem => exact ⟨_, e.interp.modules, rfl, hb⟩
      | none => exact ⟨_, _, rfl, hb.trans (Heap.extends_alloc _ _)⟩

/-- What an operation in the session `key` comes to. -/
inductive Performed (source : TextSource) (key : SessionKey) (e : Engine) :
    Op → Except Failure Response × Engine → Prop
  | unknown {op : Op} (hk : e.interp.sessions.get? key = none) :
    Performed source key e op (.error (.unknownSession key), e)
  /-- The module was not found, or it lacks the name. -/
  | missed {module name : String} (f : Failure) :
    Performed source key e (.global module name) (.error f, (e.findModule source module).2)
  | found {module name : String} {slots : List ObjectIndex} {n : ObjectIndex}
    (hk : e.interp.sessions.get? key = some slots) :
    Performed source key e (.global module name)
      (.ok ((e.findModule source module).2.handOut key slots n).1,
        ((e.findModule source module).2.handOut key slots n).2)
  | failed {op : Op} (f : Failure) : Performed source key e op (.error f, e)
  | done {op : Op} {slots : List ObjectIndex} {x : Response × Engine}
    (hk : e.interp.sessions.get? key = some slots) (hd : Done e key slots op x) :
    Performed source key e op (.ok x.1, x.2)

theorem perform_performed (source : TextSource) (key : SessionKey) (op : Op) (e : Engine) :
    Performed source key e op (Engine.perform source key op e) := by
  unfold Engine.perform
  cases hk : e.interp.sessions.get? key with
  | none => exact .unknown hk
  | some slots =>
    have hattempt : Performed source key e op (e.settle (e.attempt key slots op)) := by
      cases ha : e.attempt key slots op with
      | error f => exact .failed f
      | ok x => exact .done hk (done_of_attempt ha)
    cases op with
    | global module name =>
      simp only []
      cases hm : e.findModule source module with
      | mk result e' =>
        have he : e' = (e.findModule source module).2 := by rw [hm]
        subst he
        cases result with
        | error f => exact .missed f
        | ok n =>
          simp only []
          cases (e.findModule source module).2.heap.member n name with
          | error f => exact .missed f
          | ok m => exact .found hk
    | _ => exact hattempt

theorem perform_answers {source : TextSource} {key : SessionKey} {op : Op} {e : Engine}
    {r : Response} (h : (Engine.perform source key op e).1 = .ok r) : r.kind = op.answers := by
  have hp := perform_performed source key op e
  generalize Engine.perform source key op e = x at h hp
  cases hp with
  | found hk => rw [← Except.ok.inj h]; rfl
  | done hk hd =>
    rw [← Except.ok.inj h]
    cases hd with
    | seen hk hr => exact hk
    | handed n hk hl => exact hk.symm
    | made v hk hl => exact hk.symm
    | bound n m members hn => rfl
    | restored v hn hv => rfl
    | unloaded => rfl
  | _ => cases h

/-- An operation touches nothing of an interpreter but its modules, its loaded objects and their
count, and its sessions. -/
theorem perform_interp (source : TextSource) (key : SessionKey) (op : Op) (e : Engine) :
    ∃ modules loaded restores sessions, (Engine.perform source key op e).2.interp =
      { e.interp with modules, loaded, restores, sessions } := by
  have hp := perform_performed source key op e
  generalize Engine.perform source key op e = x at hp
  cases hp with
  | unknown hk => exact ⟨_, _, _, _, rfl⟩
  | missed f =>
    obtain ⟨heap, modules, he, -⟩ := findModule_cases source _ e
    rw [he]
    exact ⟨_, _, _, _, rfl⟩
  | found hk =>
    obtain ⟨heap, modules, he, -⟩ := findModule_cases source _ e
    rw [he]
    exact ⟨_, _, _, _, rfl⟩
  | failed f => exact ⟨_, _, _, _, rfl⟩
  | done hk hd => cases hd <;> exact ⟨_, _, _, _, rfl⟩

theorem perform_extends (source : TextSource) (key : SessionKey) (op : Op) (e : Engine) :
    e.heap.Extends (Engine.perform source key op e).2.heap := by
  have hp := perform_performed source key op e
  generalize Engine.perform source key op e = x at hp
  cases hp with
  | unknown hk => exact .refl _
  | missed f =>
    obtain ⟨heap, modules, he, hh⟩ := findModule_cases source _ e
    rw [he]
    exact hh
  | found hk =>
    obtain ⟨heap, modules, he, hh⟩ := findModule_cases source _ e
    rw [he]
    exact hh
  | failed f => exact .refl _
  | done hk hd =>
    cases hd with
    | seen hk hr => exact .refl _
    | handed n hk hl => exact .refl _
    | made v hk hl => exact Heap.extends_alloc _ _
    | bound n m members hn => exact Heap.extends_set hn _
    | restored v hn hv => exact Heap.extends_alloc _ _
    | unloaded => exact .refl _

/-- The same engine with another resolver, and finalized or not. -/
def withSettings (e : Engine) (r : Option Resolver) (finalized : Bool) : Engine :=
  { e with interp := { e.interp with resolver := r, finalized } }

theorem attempt_withSettings (e : Engine) (r : Option Resolver) (b : Bool) (key : SessionKey)
    (slots : List ObjectIndex) (op : Op) :
    (e.withSettings r b).attempt key slots op =
      (e.attempt key slots op).map fun x => (x.1, x.2.withSettings r b) := by
  have hheap : (e.withSettings r b).heap = e.heap := rfl
  -- No operation but `global` looks at the settings.
  cases op with
  | global module name => rfl
  | eval source =>
    simp only [attempt]
    split <;> rfl
  | ofValue v => rfl
  | toValue target => exact Except.bind_map fun n => Except.bind_map fun v => rfl
  | attr target name => exact Except.bind_map fun n => Except.bind_map fun m => rfl
  | setAttr target name value =>
    refine Except.bind_map fun n => Except.bind_map fun m => ?_
    rw [hheap]
    split <;> rfl
  | call callee args =>
    refine Except.bind_map fun n => ?_
    rw [hheap]
    cases e.heap.get n with
    | builtin b =>
      refine Except.bind_map fun ns => Except.bind_map fun result => ?_
      cases result <;> rfl
    | value | space => rfl
  | isOwner target => rfl
  | serialize receiver target =>
    refine Except.bind_map fun n => ?_
    rw [hheap]
    cases e.heap.get n with
    | value v => cases hv : Wire.encodeValue v <;> simp only [hv] <;> rfl
    | builtin | space => rfl
  | restore id data =>
    have hl : (e.withSettings r b).interp.loaded = e.interp.loaded := rfl
    simp only [attempt, hl, hheap]
    cases hn : e.interp.loaded.get? id with
    | some n => rfl
    | none => cases Wire.decodeValue data <;> rfl
  | unload id => rfl

theorem settle_withSettings (e : Engine) (r : Option Resolver) (b : Bool)
    (x : Except Failure (Response × Engine)) :
    (e.withSettings r b).settle (x.map fun x => (x.1, x.2.withSettings r b)) =
      ((e.settle x).1, (e.settle x).2.withSettings r b) := by
  cases x <;> rfl

theorem findModule_withSettings (e : Engine) (r : Option Resolver) (b : Bool)
    {source source' : Option Resolver → String → Option String}
    (hs : ∀ name, source' r name = source e.interp.resolver name) (module : String) :
    (e.withSettings r b).findModule source' module =
      ((e.findModule source module).1, (e.findModule source module).2.withSettings r b) := by
  have hm : (e.withSettings r b).interp.modules = e.interp.modules := rfl
  have hr : (e.withSettings r b).interp.resolver = r := rfl
  have hh : (e.withSettings r b).heap = e.heap := rfl
  simp only [findModule, hm, hr, hh, hs]
  cases e.interp.modules.get? module with
  | some n => rfl
  | none =>
    cases source e.interp.resolver module with
    | none => rfl
    | some text =>
      simp only []
      cases (ModuleText.read text).2 <;> rfl

/-- The resolver of an interpreter shows only in the texts that it finds, and its finalization not at all. -/
theorem perform_withSettings (e : Engine) (r : Option Resolver) (b : Bool)
    {source source' : Option Resolver → String → Option String}
    (hs : ∀ name, source' r name = source e.interp.resolver name) (key : SessionKey) (op : Op) :
    Engine.perform source' key op (e.withSettings r b) =
      ((Engine.perform source key op e).1, (Engine.perform source key op e).2.withSettings r b) := by
  have hsess : (e.withSettings r b).interp.sessions = e.interp.sessions := rfl
  simp only [perform, hsess]
  cases hk : e.interp.sessions.get? key with
  | none => rfl
  | some slots =>
    cases op with
    | global module name =>
      simp only [findModule_withSettings e r b hs module]
      rcases e.findModule source module with ⟨result, e'⟩
      cases result with
      | error f => rfl
      | ok n =>
        simp only []
        have hh : (e'.withSettings r b).heap = e'.heap := rfl
        rw [hh]
        cases e'.heap.member n name <;> rfl
    | _ => simp only [attempt_withSettings, settle_withSettings]

/-- The same engine with another resolver. -/
def withResolver (e : Engine) (r : Option Resolver) : Engine :=
  { e with interp := { e.interp with resolver := r } }

/-- Which resolver an interpreter has shows only in the texts that it finds. -/
theorem perform_withResolver (e : Engine) (r : Option Resolver)
    {source source' : Option Resolver → String → Option String}
    (hs : ∀ name, source' r name = source e.interp.resolver name) (key : SessionKey) (op : Op) :
    Engine.perform source' key op (e.withResolver r) =
      ((Engine.perform source key op e).1, (Engine.perform source key op e).2.withResolver r) := by
  obtain ⟨_, _, _, _, hinterp⟩ := perform_interp source key op e
  have hsame : (Engine.perform source key op e).2.withResolver r =
      (Engine.perform source key op e).2.withSettings r e.interp.finalized := by
    simp only [withResolver, withSettings, hinterp]
  rw [hsame]
  exact perform_withSettings e r e.interp.finalized hs key op

/-- The same engine once it was finalized. -/
def ended (e : Engine) : Engine := { e with interp := { e.interp with finalized := true } }

/-- An operation in a session that is open comes to the same once its interpreter was finalized. -/
theorem perform_ended (source : Option Resolver → String → Option String) (e : Engine) (key : SessionKey)
    (op : Op) : Engine.perform source key op e.ended =
      ((Engine.perform source key op e).1, (Engine.perform source key op e).2.ended) := by
  obtain ⟨_, _, _, _, hinterp⟩ := perform_interp source key op e
  have hsame : (Engine.perform source key op e).2.ended =
      (Engine.perform source key op e).2.withSettings e.interp.resolver true := by
    simp only [ended, withSettings, hinterp]
  rw [hsame]
  exact perform_withSettings e e.interp.resolver true (fun _ => rfl) key op

end Engine

end InstancePool
