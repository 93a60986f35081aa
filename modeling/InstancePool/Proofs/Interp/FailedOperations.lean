import InstancePool.Proofs.Interp.Isolation
import InstancePool.Proofs.Interp.ObjectContent

/-!
Operations that fail leave no trace. Whatever an operation stumbles over, inside the interpreter or at
the boundary, it has changed nothing before; only a module whose text has been read stays cached,
though it lacks the name that was sought in it.
-/

namespace InstancePool

open HostM

namespace Engine

/-- What an operation leaves behind that failed. -/
inductive Aftermath (source : TextSource) (e : Engine) : Op → Engine → Prop
  /-- Nothing, or values that nothing leads to. -/
  | waste {op : Op} (values : List Value) :
    Aftermath source e op ⟨⟨e.heap.objects ++ values.map .value⟩, e.interp⟩
  /-- A module that was not cached and had a text that could be read, but lacks the name. -/
  | cached {module name text : String} {members : Table String ObjectIndex}
    (hnew : e.interp.modules.get? module = none)
    (htext : source e.interp.resolver module = some text) (hread : (ModuleText.read text).2 = none)
    (hnames : ∀ x, members.get? x = none ↔ x ∉ (ModuleText.read text).1.map Prod.fst)
    (hlacks : members.get? name = none) :
    Aftermath source e (.global module name)
      ⟨⟨e.heap.objects ++ (ModuleText.read text).1.map (fun b => .value b.2) ++ [.space members]⟩,
        { e.interp with
          modules := e.interp.modules.insert module
            (e.heap.objects.length + (ModuleText.read text).1.length) }⟩

variable {source : TextSource} {e : Engine} {key : SessionKey} {op : Op}

theorem Aftermath.untouched (source : TextSource) (e : Engine) (op : Op) : Aftermath source e op e := by
  have h : Aftermath source e op ⟨⟨e.heap.objects ++ List.map .value []⟩, e.interp⟩ := .waste []
  rwa [List.map_nil, List.append_nil] at h

/-- What the search for a module leaves behind if the name that is sought in it is not there. -/
theorem findModule_aftermath {module name : String}
    (hlacks : ∀ n, (e.findModule source module).1 = .ok n →
      ∃ f, (e.findModule source module).2.heap.member n name = .error f) :
    Aftermath source e (.global module name) (e.findModule source module).2 := by
  have hsought := findModule_sought source module e
  generalize e.findModule source module = found at hlacks hsought
  cases hsought with
  | cached => exact .untouched source e _
  | missing f values => exact .waste values
  | @made text members hnew htext hread hnames =>
    refine .cached hnew htext hread hnames ?_
    obtain ⟨f, hf⟩ := hlacks _ rfl
    rw [Heap.member_concat (by rw [List.length_append, List.length_map])] at hf
    split at hf
    · cases hf
    · assumption

theorem perform_global_eq {slots : List ObjectIndex} (source : TextSource) (module name : String)
    (hk : e.interp.sessions.get? key = some slots) :
    Engine.perform source key (.global module name) e =
      let found := e.findModule source module
      found.2.settle ((found.1 >>= fun n => found.2.heap.member n name).map
        (found.2.handOut key slots)) := by
  simp only [Engine.perform, hk]
  rcases e.findModule source module with ⟨_ | n, e'⟩ <;> rfl

theorem perform_aftermath {f : Failure} (hf : (Engine.perform source key op e).1 = .error f) :
    Aftermath source e op (Engine.perform source key op e).2 := by
  cases hk : e.interp.sessions.get? key with
  | none =>
    simp only [Engine.perform, hk]
    exact .untouched source e op
  | some slots =>
    -- All but `global` check everything before they change anything.
    have hattempt (hf : (e.settle (e.attempt key slots op)).1 = .error f) :
        Aftermath source e op (e.settle (e.attempt key slots op)).2 := by
      cases ha : e.attempt key slots op with
      | error f => exact .untouched source e op
      | ok x =>
        rw [ha] at hf
        cases hf
    cases op with
    | global module name =>
      rw [perform_global_eq source module name hk] at hf ⊢
      have hfind := @findModule_aftermath source e module name
      generalize e.findModule source module = found at hf hfind ⊢
      cases hm : found.1 >>= fun n => found.2.heap.member n name with
      | error f' =>
        simp only [hm]
        refine hfind fun n hn => ⟨f', ?_⟩
        rw [hn] at hm
        exact hm
      | ok m =>
        simp only [hm] at hf
        cases hf
    | _ =>
      simp only [Engine.perform, hk] at hf ⊢
      exact hattempt hf

end Engine

/-- An answer without a value and without bytes can always be written. -/
theorem Wire.encodeReply_brief {r : Response} (hv : r.kind ≠ .value) (hb : r.kind ≠ .bytes) :
    ∃ output, Wire.encodeReply (.ok r) = .ok output ∧ output.length < 2 ^ 64 := by
  have htag (tag : Nat) {content : List UInt8} (hc : content.length ≤ 15) :
      (Wire.bytesOfNat32 0 ++ (Wire.bytesOfNat32 tag ++ content)).length < 2 ^ 64 := by
    have h0 := Wire.length_bytesOfNat32_le 0
    have ht := Wire.length_bytesOfNat32_le tag
    simp only [List.length_append]
    omega
  cases r with
  | unit => exact ⟨_, rfl, by decide⟩
  | session key => exact ⟨_, rfl, htag 1 (Nat.le_trans (Wire.length_bytesOfKey_le key) (by decide))⟩
  | ref r => exact ⟨_, rfl, htag 2 (Wire.length_bytesOfRef_le r)⟩
  | value v => exact absurd rfl hv
  | bool b => exact ⟨_, rfl, htag 4 (Nat.le_add_left 1 14)⟩
  | bytes data => exact absurd rfl hb

/-- What was done and not heard of has changed nothing. -/
theorem Machine.perform_unheard {source : TextSource} {m : Machine} {k : Nat} {key : SessionKey} {op : Op}
    {r : Response} {e : Error} (hr : (m.perform source k key op).1 = .ok r)
    (hrelay : Relayed (m.perform source k key op).1 (.error e)) : (m.perform source k key op).2 = m := by
  by_cases ho : op.looks = true
  · exact perform_looks source k key ho
  · cases hi : m.interps[k]? with
    | none => simp only [perform, hi]
    | some i =>
      -- All answers but those to a look are heard.
      have hkind : r.kind = op.answers := perform_answers hi hr
      obtain ⟨output, hout, hlen⟩ : ∃ output, Wire.encodeReply (.ok r) = .ok output ∧
          output.length < 2 ^ 64 := by
        refine Wire.encodeReply_brief ?_ ?_ <;>
        · rw [hkind]
          cases op with
          | toValue | isOwner | serialize => exact absurd rfl ho
          | _ => simp only [Op.answers, ne_eq, reduceCtorEq, not_false_eq_true]
      cases hrelay.ok r output hr hout hlen

/-- What an operation leaves behind that is heard to have failed. -/
theorem Machine.perform_aftermath {m : Machine} {e : Error} (source : TextSource) (k : Nat)
    (key : SessionKey) (op : Op) (hrelay : Relayed (m.perform source k key op).1 (.error e)) :
    (m.perform source k key op).2 = m ∨
      ∃ i e', m.interps[k]? = some i ∧ Engine.Aftermath source ⟨m.heap, i⟩ op e' ∧
        (m.perform source k key op).2 = { m.setInterp k e'.interp with heap := e'.heap } := by
  cases hr : (m.perform source k key op).1 with
  | ok r => exact .inl (perform_unheard hr hrelay)
  | error f =>
    cases hi : m.interps[k]? with
    | none => exact .inl (by simp only [perform, hi])
    | some i =>
      -- It failed at the interpreter, so nothing was lost on the way back.
      rw [perform_eq hi] at hr ⊢
      refine .inr ⟨i, _, rfl, ?_, rfl⟩
      cases hf : (Engine.perform source key op ⟨m.heap, i⟩).1 with
      | error f' => exact Engine.perform_aftermath hf
      | ok r =>
        rw [hf] at hr
        cases hr

namespace Link

open Host

variable {h : Host} {l : Link} {k : Nat} {op : Op}

/-- An operation either fails before it arrives, or is performed at the interpreter to which the link
leads. -/
theorem perform_arriving (key : SessionKey) (hl : h.interpAt l = some k) (hs : op.Sized) :
    (∃ e, runOn h (l.perform key op) = (.error e, h)) ∨
      ∃ heard, runOn h (l.perform key op) =
          (heard, { h with machine := (h.machine.perform h.texts k key op).2 }) ∧
        Relayed (h.machine.perform h.texts k key op).1 heard := by
  cases l with
  | direct n =>
    obtain rfl : n = k := Option.some.inj hl
    exact .inr ⟨_, rfl, .refl _⟩
  | channel c =>
    obtain ⟨live, e, hc, rfl⟩ := interpAt_channel_iff.1 hl
    cases live with
    | false => exact .inl ⟨.closed, runOn_perform_channel hc rfl⟩
    | true =>
      cases hb : Wire.encodeRequest (.act key op) with
      | error cause =>
        refine .inl ⟨.protocol (.encode cause), runOn_perform_channel hc ?_⟩
        simp only [Channel.perform, Channel.call, if_true, hb, Channel.extract]
      | ok bytes =>
        have hd := (Wire.reads_request hb hs).run []
        rw [List.append_nil] at hd
        rcases Channel.perform_read h.texts hb hd rfl with ⟨-, f, hp⟩ | ⟨-, heard, hp, hrelay⟩
        · exact .inl ⟨f, runOn_perform_channel hc hp⟩
        · exact .inr ⟨heard, runOn_perform_channel hc hp, hrelay⟩

end Link

namespace Host

variable {h h' : Host} {l : Link} {k : Nat} {key : SessionKey} {op : Op} {e : Error}

/-- Whatever session an operation fails in, through whatever link to an interpreter, and whatever it is
given, the host is as it was but for objects that come behind those that there are, and for one module:
the resolver had a text of it that was read, and as it lacks the name that was sought, the module is the
last of the new objects, and the one that was not cached before. -/
theorem perform_traceless (hl : h.interpAt l = some k) (hs : op.Sized)
    (hfail : runOn h (l.perform key op) = (.error e, h')) :
    ∃ objects interps,
      h' = { h with machine := { h.machine with
        heap := ⟨h.machine.heap.objects ++ objects⟩, interps } } ∧
      (interps = h.machine.interps ∨
        ∃ i module name text members, op = .global module name ∧ h.machine.interps[k]? = some i ∧
          i.modules.get? module = none ∧ h.texts i.resolver module = some text ∧
          (ModuleText.read text).2 = none ∧
          (∀ x, members.get? x = none ↔ x ∉ (ModuleText.read text).1.map Prod.fst) ∧
          members.get? name = none ∧
          objects = (ModuleText.read text).1.map (fun b => .value b.2) ++ [.space members] ∧
          interps = h.machine.interps.set k { i with
            modules := i.modules.insert module
              (h.machine.heap.objects.length + (ModuleText.read text).1.length) }) := by
  rcases Link.perform_arriving key hl hs with ⟨e', hrun⟩ | ⟨heard, hrun, hrelay⟩
  · -- It did not get to the interpreter.
    rw [hfail] at hrun
    cases hrun
    exact ⟨[], h.machine.interps, by simp only [List.append_nil], .inl rfl⟩
  · rw [hfail] at hrun
    obtain ⟨rfl, rfl⟩ := Prod.mk.inj hrun
    rcases Machine.perform_aftermath h.texts k key op hrelay with hsame | ⟨i, e', hi, hleft, hm⟩
    · exact ⟨[], h.machine.interps, by simp only [hsame, List.append_nil], .inl rfl⟩
    · rw [hm]
      cases hleft with
      | waste values =>
        refine ⟨values.map .value, _, rfl, .inl ?_⟩
        rw [Machine.setInterp_self hi]
      | cached hnew htext hread hnames hlacks =>
        exact ⟨_, _, by rw [← List.append_assoc]; rfl, .inr ⟨i, _, _, _, _, rfl, hi, hnew, htext, hread,
          hnames, hlacks, rfl, rfl⟩⟩

end Host

/-- An interpreter behind the boundary, with two sessions and a text for one module. -/
def Deed.readers : List Deed :=
  [.addInterp, .exportInterp 0,
    .setResolver (.channel 0) (.fixed (Table.empty.insert "physics" "c = 299792458\ng = 9.81")),
    .openBare (.channel 0), .openBare (.channel 0)]

/-- A name that the module lacks: the module is cached, behind all objects that there were, and no session
has handed out anything. -/
theorem Host.perform_traceless_readers :
    let h := Host.afterDeeds {} Deed.readers
    ∃ e h', runOn h (Link.perform ⟨2⟩ (.global "physics" "h") (.channel 0)) = (.error e, h') ∧
      h'.channels = h.channels ∧
      h'.machine.heap.objects.take h.machine.heap.objects.length = h.machine.heap.objects ∧
      ∃ i i' n, h.machine.interps[0]? = some i ∧ h'.machine.interps[0]? = some i' ∧
        i'.sessions = i.sessions ∧ i.modules.get? "physics" = none ∧
        i'.modules.get? "physics" = some n ∧ h.machine.heap.objects.length ≤ n := by
  intro h
  have hl : h.interpAt (.channel 0) = some 0 := by decide +kernel
  have hsized : (Op.global "physics" "h").Sized :=
    (by decide : Text.Sized "physics" ∧ Text.Sized "h")
  have hfails :
      (runOn h (Link.perform ⟨2⟩ (.global "physics" "h") (.channel 0))).1.toOption = none := by
    decide +kernel
  have hcaches : ((runOn h (Link.perform ⟨2⟩ (.global "physics" "h") (.channel 0))).2.machine.interps[0]?.bind
      fun i => i.modules.get? "physics") ≠
        h.machine.interps[0]?.bind fun i => i.modules.get? "physics" := by decide +kernel
  rcases hrun : runOn h (Link.perform ⟨2⟩ (.global "physics" "h") (.channel 0)) with ⟨e | r, h'⟩
  · obtain ⟨objects, interps, hh, hkept⟩ := Host.perform_traceless hl hsized hrun
    rw [hrun, hh] at hcaches
    rcases hkept with rfl | ⟨i, module, name, text, members, hop, hi, hnew, -, -, -, -, -, rfl⟩
    · exact absurd rfl hcaches
    · obtain ⟨rfl, rfl⟩ := Op.global.inj hop
      have hlt : 0 < h.machine.interps.length := (List.getElem?_eq_some_iff.1 hi).1
      have hset : h'.machine.interps[0]? = some { i with
          modules := i.modules.insert "physics"
            (h.machine.heap.objects.length + (ModuleText.read text).1.length) } := by
        rw [hh]
        exact List.getElem?_set_self hlt
      exact ⟨e, h', rfl, by rw [hh], by rw [hh, List.take_left], i, _, _, hi, hset, rfl, hnew,
        Table.get?_insert_self .., Nat.le_add_right ..⟩
  · rw [hrun] at hfails
    cases hfails

end InstancePool
