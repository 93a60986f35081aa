import InstancePool.Proofs.Interp.NamespaceSharing
import InstancePool.Proofs.Image.EndOrder

/-!
A new interpreter is tagged with the number of its instance. Nothing of that can fail, whichever way the
link goes, and no session stays open.
-/

namespace InstancePool

open HostM

namespace Engine

variable {source : TextSource} {e : Engine} {key : SessionKey} {slots : List ObjectIndex}

/-- A member of a module that is there is handed out. -/
theorem perform_global {module name : String} {n m : ObjectIndex}
    (hk : e.interp.sessions.get? key = some slots) (hn : e.interp.modules.get? module = some n)
    (hm : e.heap.member n name = .ok m) :
    Engine.perform source key (.global module name) e =
      (.ok (.ref ⟨key, UInt32.ofNat slots.length⟩), (e.handOut key slots m).2) := by
  simp only [Engine.perform, hk, findModule, hn, hm]
  rfl

theorem perform_ofValue (v : Value) (hk : e.interp.sessions.get? key = some slots) :
    Engine.perform source key (.ofValue v) e =
      (.ok (.ref ⟨key, UInt32.ofNat slots.length⟩), (e.handOutNew key slots v).2) := by
  simp only [Engine.perform, hk]
  rfl

theorem perform_setAttr_ok {target value : Ref} {name : String} {n m : ObjectIndex}
    {members : Table String ObjectIndex} (hk : e.interp.sessions.get? key = some slots)
    (hn : resolveRef key slots target = .ok n) (hm : resolveRef key slots value = .ok m)
    (hspace : e.heap.get n = .space members) :
    Engine.perform source key (.setAttr target name value) e =
      (.ok .unit, { e with heap := e.heap.set n (.space (members.insert name m)) }) := by
  have hattempt : e.attempt key slots (.setAttr target name value) =
      .ok (.unit, { e with heap := e.heap.set n (.space (members.insert name m)) }) := by
    simp only [attempt, hn, hm, hspace, bind, Except.bind]
    rfl
  simp only [Engine.perform, hk, hattempt]
  rfl

end Engine

/-- The machine with another heap and another interpreter `k`. -/
def Machine.put (m : Machine) (k : Nat) (e : Engine) : Machine :=
  { m with heap := e.heap, interps := m.interps.set k e.interp }

namespace Machine

variable {m : Machine} {k : Nat} {e : Engine} {i : Interp} {key : SessionKey}

theorem put_interp (hlt : k < m.interps.length) : (m.put k e).interps[k]? = some e.interp :=
  List.getElem?_set_self hlt

theorem put_perform (source : TextSource) (key : SessionKey) (op : Op)
    (hlt : k < m.interps.length) :
    (m.put k e).perform source k key op =
      ((Engine.perform source key op e).1.mapError fun f => .runtime f.fault,
        m.put k (Engine.perform source key op e).2) := by
  rw [perform_eq (put_interp hlt)]
  simp only [put, setInterp, List.set_set]

theorem put_closeSession (hlt : k < m.interps.length) :
    (m.put k e).closeSession k key =
      m.put k { e with interp := { e.interp with sessions := e.interp.sessions.erase key } } := by
  simp only [closeSession, put_interp hlt]
  simp only [put, setInterp, List.set_set]

theorem put_setResolver (r : Resolver) (hlt : k < m.interps.length) :
    (m.put k e).setResolver k r =
      m.put k { e with interp := { e.interp with resolver := some r } } := by
  simp only [setResolver, put_interp hlt]
  simp only [put, setInterp, List.set_set]

theorem openSession_put (hi : m.interps[k]? = some i) (hf : i.finalized = false) :
    m.openSession k = (.ok ⟨m.nextKey⟩, { m with nextKey := m.nextKey + 1 }.put k
      ⟨m.heap, { i with sessions := i.sessions.insert ⟨m.nextKey⟩ [] }⟩) := by
  simp only [openSession, hi, hf]
  rfl

end Machine

/-- The host while a session is open through a link that was not in use. -/
def Host.serving (h : Host) (k : Nat) (key : SessionKey) (l : Link) (m : Machine) : Host :=
  match l with
  | .direct _ => { h with machine := m }
  | .channel c =>
    { h with
      machine := m
      channels := h.channels.set c ⟨true, .exported { interp := k, served := [key] }⟩ }

namespace Host

variable {h : Host} {k : Nat} {l : Link} {key : SessionKey} {m : Machine} {e e' : Engine}
  {i : Interp}

theorem interpAt_serving (hl : h.Unused k l) :
    (h.serving k key l m).interpAt l = some k := by
  cases l with
  | direct n => exact congrArg some hl
  | channel c =>
    have hlt : c < h.channels.length := (List.getElem?_eq_some_iff.1 hl).1
    exact interpAt_channel (h := h.serving k key (.channel c) m)
      (List.getElem?_set_self hlt)

theorem served_serving (hl : h.Unused k l) :
    (h.serving k key l m).Served l key := by
  rintro c rfl
  have hlt : c < h.channels.length := (List.getElem?_eq_some_iff.1 hl).1
  exact ⟨_, List.getElem?_set_self hlt, List.mem_cons_self⟩

theorem texts_serving : (h.serving k key l m).texts = h.texts := by
  cases l <;> rfl

theorem machine_serving : (h.serving k key l m).machine = m := by
  cases l <;> rfl

theorem serving_with (m' : Machine) :
    { h.serving k key l m with machine := m' } = h.serving k key l m' := by
  cases l <;> rfl

end Host

namespace Link

open Host

variable {h : Host} {k : Nat} {l : Link} {key : SessionKey} {m : Machine} {e e' : Engine}
  {i : Interp}

theorem openSession_unused (hl : h.Unused k l) (hi : h.machine.interps[k]? = some i)
    (hf : i.finalized = false) :
    runOn h l.openSession = (.ok ⟨h.machine.nextKey⟩,
      h.serving k ⟨h.machine.nextKey⟩ l (h.machine.openSession k).2) := by
  cases l with
  | direct n =>
    obtain rfl : n = k := hl
    simp only [openSession, ofMachine, runOn_of, Machine.openSession_put hi hf, serving]
  | channel c =>
    have hc : h.channels[c]? = some ⟨true, .exported { interp := k }⟩ := hl
    simp only [openSession, onChannel, runOn_of, hc, serving,
      Channel.openSession_endpoint (e := { interp := k }) hi hf, List.nil_append]

theorem closeSession_serving (hl : h.Unused k l) :
    runOn (h.serving k key l m) (l.closeSession key) =
      (.ok (), { h with machine := m.closeSession k key }) := by
  cases l with
  | direct n =>
    obtain rfl : n = k := hl
    rfl
  | channel c =>
    have hlt : c < h.channels.length := (List.getElem?_eq_some_iff.1 hl).1
    have hserved : key ∈ ({ interp := k, served := [key] } : Endpoint).served := List.mem_cons_self
    have hself : (h.channels.set c ⟨true, .exported { interp := k, served := [key] }⟩)[c]? =
        some ⟨true, .exported { interp := k, served := [key] }⟩ := List.getElem?_set_self hlt
    simp only [closeSession, onChannel, runOn_of, serving, hself,
      Channel.closeSession_endpoint hserved, List.erase_cons_head, List.set_set, set_of_getElem? hl]

/-- An interpreter gets a resolver as it is, or from the other side of the boundary. -/
theorem setResolver_unused (hl : h.Unused k l) (r : Resolver) : ∃ r', (r' = r ∨ r' = .remote r) ∧
    runOn h (l.setResolver r) = (.ok (), { h with machine := h.machine.setResolver k r' }) := by
  cases l with
  | direct n =>
    obtain rfl : n = k := hl
    exact ⟨r, .inl rfl, rfl⟩
  | channel c =>
    have hc : h.channels[c]? = some ⟨true, .exported { interp := k }⟩ := hl
    refine ⟨.remote r, .inr rfl, ?_⟩
    simp only [setResolver, onChannel, runOn_of, hc, Channel.setResolver, if_true, Endpoint.image,
      set_of_getElem? hc]

/-- What an interpreter does with a small operation while its session is open. -/
theorem perform_serving {op : Op} {response : Response} {output : List UInt8}
    (hl : h.Unused k l) (hlt : k < m.interps.length) (hn : op.nesting ≤ Value.maxDepth)
    (hs : op.Sized) (hp : Engine.perform h.texts key op e = (.ok response, e'))
    (ho : Wire.encodeReply (.ok response) = .ok output) (hlen : output.length < 2 ^ 64) :
    runOn (h.serving k key l (m.put k e)) (l.perform key op) =
      (.ok response, h.serving k key l (m.put k e')) := by
  rcases perform_sized key (interpAt_serving (m := m.put k e) hl) hn hs with
    ⟨hnot, -⟩ | ⟨-, heard, hrun, hrelay⟩
  · exact absurd (served_serving hl) hnot
  · rw [texts_serving, machine_serving, Machine.put_perform _ _ _ hlt, hp] at hrun hrelay
    rw [hrun, serving_with, hrelay.ok response output rfl ho hlen]

theorem performRef_serving {op : Op} {r : Ref} (hl : h.Unused k l)
    (hlt : k < m.interps.length) (hn : op.nesting ≤ Value.maxDepth) (hs : op.Sized)
    (hp : Engine.perform h.texts key op e = (.ok (.ref r), e')) :
    runOn (h.serving k key l (m.put k e)) (l.performRef key op) =
      (.ok r, h.serving k key l (m.put k e')) := by
  obtain ⟨output, ho, hlen⟩ := Wire.encodeReply_ref r
  rw [performRef, runOn_bind_ok (perform_serving hl hlt hn hs hp ho hlen)]
  rfl

end Link

/-- The interpreter `k` of a machine is new. -/
structure Machine.Fresh (m : Machine) (k : Nat) (i : Interp) : Prop where
  interp : m.interps[k]? = some i
  finalized : i.finalized = false
  sessions : i.sessions = Table.empty
  version : ∃ n runtime, i.modules.get? "runtime" = some n ∧ m.heap.get n = .space runtime ∧
    runtime.get? "version" = some i.version

/-- The heap after a value was bound to `instance` in a namespace. -/
def Heap.bindInstance (heap : Heap) (n : ObjectIndex) (members : Table String ObjectIndex)
    (v : Value) : Heap :=
  (heap.alloc (.value v)).2.set n (.space (members.insert "instance" heap.objects.length))

/-- In an open session a number is bound in the version namespace. -/
theorem Link.bindInstance_serving {h : Host} {k : Nat} {l : Link} {key : SessionKey} {m : Machine}
    {e : Engine} {n : ObjectIndex} {runtime members : Table String ObjectIndex} (number : Int64)
    (hl : h.Unused k l) (hlt : k < m.interps.length) (hk : e.interp.sessions.get? key = some [])
    (hn : e.interp.modules.get? "runtime" = some n) (hruntime : e.heap.get n = .space runtime)
    (hversion : runtime.get? "version" = some e.interp.version)
    (hmembers : e.heap.get e.interp.version = .space members) :
    runOn (h.serving k key l (m.put k e)) (do
        let version ← l.performRef key (.global "runtime" "version")
        let number ← l.performRef key (.ofValue (.int number))
        let _ ← l.perform key (.setAttr version "instance" number)) =
      (.ok (), h.serving k key l (m.put k
        ⟨e.heap.bindInstance e.interp.version members (.int number),
          { e.interp with
            sessions := (e.interp.sessions.insert key [e.interp.version]).insert key
              [e.interp.version, e.heap.objects.length] }⟩)) := by
  -- The interpreter from one step to the next.
  let e₁ : Engine := (e.handOut key [] e.interp.version).2
  let e₂ : Engine := (e₁.handOutNew key [e.interp.version] (.int number)).2
  let e₃ : Engine := ⟨e.heap.bindInstance e.interp.version members (.int number), e₂.interp⟩
  have hget (t : Table SessionKey (List ObjectIndex)) (slots : List ObjectIndex) :
      (t.insert key slots).get? key = some slots := by
    rw [Table.get?_insert_self]
  have hglobal : runOn (h.serving k key l (m.put k e))
      (l.performRef key (.global "runtime" "version")) =
        (.ok ⟨key, 0⟩, h.serving k key l (m.put k e₁)) := by
    have hmember : e.heap.member n "version" = .ok e.interp.version := by
      simp only [Heap.member, hruntime, hversion]
    exact performRef_serving hl hlt (Nat.zero_le _) ⟨by decide, by decide⟩
      (Engine.perform_global hk hn hmember)
  have hvalue : runOn (h.serving k key l (m.put k e₁)) (l.performRef key (.ofValue (.int number))) =
      (.ok ⟨key, 1⟩, h.serving k key l (m.put k e₂)) := by
    have hslots : e₁.interp.sessions.get? key = some [e.interp.version] := hget _ _
    exact performRef_serving hl hlt (Nat.zero_le _) trivial (Engine.perform_ofValue _ hslots)
  have hset : runOn (h.serving k key l (m.put k e₂))
      (l.perform key (.setAttr ⟨key, 0⟩ "instance" ⟨key, 1⟩)) =
        (.ok .unit, h.serving k key l (m.put k e₃)) := by
    have hspace : e₂.heap.get e.interp.version = .space members := by
      have hobject := Heap.get_eq_space hmembers
      have hin : e.interp.version < e.heap.objects.length :=
        (List.getElem?_eq_some_iff.1 hobject).1
      have hheap : e₂.heap.objects = e.heap.objects ++ [.value (.int number)] := rfl
      rw [Heap.get, hheap, List.getElem?_append_left hin, hobject]
      rfl
    have hsized : (Op.setAttr ⟨key, 0⟩ "instance" ⟨key, 1⟩).Sized := by
      change Text.Sized "instance"
      decide
    have hslots : e₂.interp.sessions.get? key =
        some [e.interp.version, e.heap.objects.length] := hget _ _
    -- Both references are of this session, and in the order in which they were handed out.
    have htarget : resolveRef key [e.interp.version, e.heap.objects.length] ⟨key, 0⟩ =
        .ok e.interp.version := if_neg (not_not_intro rfl)
    have hnumber : resolveRef key [e.interp.version, e.heap.objects.length] ⟨key, 1⟩ =
        .ok e.heap.objects.length := if_neg (not_not_intro rfl)
    exact perform_serving hl hlt (Nat.zero_le _) hsized
      (Engine.perform_setAttr_ok hslots htarget hnumber hspace) rfl (by decide)
  rw [runOn_bind_ok hglobal, runOn_bind_ok hvalue, runOn_bind_ok hset, runOn_pure]
  rfl

namespace Instance

open Host

variable {h : Host} {k : Nat} {l : Link} {i : Instance} {j : Interp}

/-- A new interpreter is tagged. -/
theorem tag_ok {members : Table String ObjectIndex} (hlink : i.link = some l)
    (hl : h.Unused k l) (hf : h.machine.Fresh k j)
    (hmembers : h.machine.heap.get j.version = .space members) :
    ∃ sessions, sessions.size = 0 ∧ runOn h i.tag = (.ok (), { h with
      machine := { h.machine with nextKey := h.machine.nextKey + 1 }.put k
        ⟨h.machine.heap.bindInstance j.version members (.int (Int64.ofNat i.info.number)),
          { j with sessions }⟩ }) := by
  obtain ⟨n, runtime, hn, hruntime, hversion⟩ := hf.version
  have hlt : k < h.machine.interps.length := (List.getElem?_eq_some_iff.1 hf.interp).1
  let key : SessionKey := ⟨h.machine.nextKey⟩
  let m : Machine := { h.machine with nextKey := h.machine.nextKey + 1 }
  let opened : Engine := ⟨h.machine.heap, { j with sessions := j.sessions.insert key [] }⟩
  have hopen : runOn h l.openSession = (.ok key, h.serving k key l (m.put k opened)) := by
    rw [Link.openSession_unused hl hf.interp hf.finalized,
      Machine.openSession_put hf.interp hf.finalized]
  have hslots : opened.interp.sessions.get? key = some [] := by
    rw [Table.get?_insert_self]
  have hbind := Link.bindInstance_serving (m := m) (e := opened) (Int64.ofNat i.info.number) hl hlt
    hslots hn hruntime hversion hmembers
  let sessions := (opened.interp.sessions.insert key [j.version]).insert key
    [j.version, h.machine.heap.objects.length]
  -- The session that sets the tag is the only one, and it is closed again.
  refine ⟨sessions.erase key, ?_, ?_⟩
  · have hentries : (sessions.erase key).entries = [] := by
      simp [sessions, opened, hf.sessions, Table.insert, Table.erase, Table.empty,
        Table.insertEntry]
    rw [Table.size, hentries, List.length_nil]
  · rw [tag, withSession, hlink]
    simp only [Link.withSession, ensuring]
    rw [runOn_bind_ok hopen, runOn_bind, runOn_outcome, hbind]
    simp only []
    rw [runOn_bind_ok (Link.closeSession_serving hl), Machine.put_closeSession (m := m) hlt]
    rfl

/-- A manager makes a new interpreter its own. -/
theorem adopt_ok {members : Table String ObjectIndex} (registry : Nat) (hlink : i.link = some l)
    (hl : h.Unused k l) (hf : h.machine.Fresh k j)
    (hmembers : h.machine.heap.get j.version = .space members) :
    ∃ sessions resolver, sessions.size = 0 ∧
      (resolver = .registry registry ∨ resolver = .remote (.registry registry)) ∧
      runOn h (i.adopt registry) = (.ok (), { h with
        machine := { h.machine with nextKey := h.machine.nextKey + 1 }.put k
          ⟨h.machine.heap.bindInstance j.version members (.int (Int64.ofNat i.info.number)),
            { j with sessions, resolver := some resolver }⟩ }) := by
  obtain ⟨sessions, hsize, htag⟩ := tag_ok hlink hl hf hmembers
  have hlt : k < h.machine.interps.length := (List.getElem?_eq_some_iff.1 hf.interp).1
  let m : Machine := { h.machine with nextKey := h.machine.nextKey + 1 }
  let heap := h.machine.heap.bindInstance j.version members (.int (Int64.ofNat i.info.number))
  let h₁ : Host := { h with machine := m.put k ⟨heap, { j with sessions }⟩ }
  have hl₁ : h₁.Unused k l := by
    cases l <;> exact hl
  obtain ⟨r, hresolver, hset⟩ := Link.setResolver_unused hl₁ (.registry registry)
  refine ⟨sessions, r, hsize, hresolver, ?_⟩
  rw [adopt, runOn_bind_ok htag, setResolver, hlink]
  simp only []
  rw [hset, Machine.put_setResolver (m := m) r hlt]

end Instance

/-- What `runtime.version.instance` is for an interpreter. -/
def Engine.instanceTag? (e : Engine) : Option Value := do
  let runtime ← e.interp.modules.get? "runtime"
  let version ← (e.heap.member runtime "version").toOption
  let tag ← (e.heap.member version "instance").toOption
  (e.heap.value tag).toOption

/-- An object is a namespace with a member. -/
def Heap.Binds (heap : Heap) (n : ObjectIndex) (name : String) (m : ObjectIndex) : Prop :=
  ∃ members, heap.objects[n]? = some (.space members) ∧ members.get? name = some m

/-- The interpreter `k` of a machine has no session open, and is tagged with a number. -/
structure Machine.Tagged (m : Machine) (k number : Nat) (i : Interp) : Prop where
  interp : m.interps[k]? = some i
  sessions : i.openSessions = 0
  tag : ∃ n v x, i.modules.get? "runtime" = some n ∧ m.heap.Binds n "version" v ∧
    m.heap.Binds v "instance" x ∧
    m.heap.objects[x]? = some (.value (.int (Int64.ofNat number)))

namespace Heap

variable {heap heap' : Heap} {n m : ObjectIndex} {name : String}
  {members : Table String ObjectIndex} {v : Value}

theorem Binds.member (hb : heap.Binds n name m) : heap.member n name = .ok m := by
  obtain ⟨members, hn, hm⟩ := hb
  have hget : heap.get n = .space members := by rw [Heap.get, hn, Option.getD_some]
  simp only [Heap.member, hget, hm]

/-- What is in a heap stays when the heap grows. -/
theorem Binds.of_heap (hb : heap.Binds n name m)
    (hheap : ∀ x : Nat, x < heap.objects.length → heap'.objects[x]? = heap.objects[x]?) :
    heap'.Binds n name m := by
  obtain ⟨members, hn, hm⟩ := hb
  have hlt : n < heap.objects.length := (List.getElem?_eq_some_iff.1 hn).1
  exact ⟨members, (hheap n hlt).trans hn, hm⟩

theorem bindInstance_below {x : Nat} (hx : x < heap.objects.length) (hne : n ≠ x) :
    (heap.bindInstance n members v).objects[x]? = heap.objects[x]? := by
  change ((heap.objects ++ [Object.value v]).set n _)[x]? = _
  rw [List.getElem?_set_ne hne, List.getElem?_append_left hx]

theorem bindInstance_value (hn : n < heap.objects.length) :
    (heap.bindInstance n members v).objects[heap.objects.length]? = some (.value v) := by
  change ((heap.objects ++ [Object.value v]).set n _)[heap.objects.length]? = _
  rw [List.getElem?_set_ne (Nat.ne_of_lt hn), List.getElem?_concat_length]

theorem bindInstance_binds (hn : n < heap.objects.length) :
    (heap.bindInstance n members v).Binds n "instance" heap.objects.length := by
  refine ⟨members.insert "instance" heap.objects.length, ?_, ?_⟩
  · change ((heap.objects ++ [Object.value v]).set n _)[n]? = _
    apply List.getElem?_set_self
    rw [List.length_append]
    exact Nat.lt_add_right _ hn
  · rw [Table.get?_insert_self]

end Heap

namespace Machine

variable {m m' : Machine} {k number : Nat} {i : Interp}

theorem Tagged.instanceTag (ht : m.Tagged k number i) :
    Engine.instanceTag? ⟨m.heap, i⟩ = some (.int (Int64.ofNat number)) := by
  obtain ⟨n, v, x, hn, hv, hx, hvalue⟩ := ht.tag
  have hget : m.heap.value x = .ok (.int (Int64.ofNat number)) := by
    rw [Heap.value, Heap.get, hvalue, Option.getD_some]
  simp only [Engine.instanceTag?, hn, hv.member, hx.member, hget, Option.bind_eq_bind,
    Option.bind_some, Except.toOption]

theorem Tagged.of_heap (ht : m.Tagged k number i) (hi : m'.interps[k]? = m.interps[k]?)
    (hheap : ∀ x : Nat, x < m.heap.objects.length →
      m'.heap.objects[x]? = m.heap.objects[x]?) : m'.Tagged k number i where
  interp := hi.trans ht.interp
  sessions := ht.sessions
  tag := by
    obtain ⟨n, v, x, hn, hv, hx, hvalue⟩ := ht.tag
    have hlt : x < m.heap.objects.length := (List.getElem?_eq_some_iff.1 hvalue).1
    exact ⟨n, v, x, hn, hv.of_heap hheap, hx.of_heap hheap, (hheap x hlt).trans hvalue⟩

/-- A new interpreter is tagged once a number is bound in its version namespace. -/
theorem Fresh.tagged (hf : m.Fresh k i) (hspace : m.heap.get i.version = .space Table.empty)
    {sessions : Table SessionKey (List ObjectIndex)} {resolver : Option Resolver}
    (hsize : sessions.size = 0) (number : Nat) :
    (m.put k ⟨m.heap.bindInstance i.version Table.empty (.int (Int64.ofNat number)),
      { i with sessions, resolver }⟩).Tagged k number { i with sessions, resolver } := by
  obtain ⟨n, runtime, hn, hruntime, hversion⟩ := hf.version
  have hlt : k < m.interps.length := (List.getElem?_eq_some_iff.1 hf.interp).1
  have hobject := Heap.get_eq_space hruntime
  have hn' : n < m.heap.objects.length := (List.getElem?_eq_some_iff.1 hobject).1
  have hv : i.version < m.heap.objects.length :=
    (List.getElem?_eq_some_iff.1 (Heap.get_eq_space hspace)).1
  -- The module that holds the version namespace is another namespace.
  have hne : i.version ≠ n := by
    intro he
    rw [he, hruntime] at hspace
    injection hspace with hempty
    rw [hempty, Table.get?_empty] at hversion
    cases hversion
  refine ⟨put_interp hlt, hsize, n, i.version, m.heap.objects.length, hn, ⟨runtime, ?_, hversion⟩,
    Heap.bindInstance_binds hv, Heap.bindInstance_value hv⟩
  exact (Heap.bindInstance_below hn' hne).trans hobject

end Machine

end InstancePool
