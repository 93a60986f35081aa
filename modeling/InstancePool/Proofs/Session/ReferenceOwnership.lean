import InstancePool.Proofs.Channel.EndpointReplies
import InstancePool.Proofs.Session.ReturnedReferences

/-!
A reference belongs to the session that returned it. In every state that a host can come to, a session
knows as its own exactly the references that its operations returned, and no operation accepts another.
-/

namespace InstancePool

open HostM

/-- The references that an operation acts on, in the order in which they are checked. The receiver of a
serialization is not looked at. -/
def Op.operands : Op → List Ref
  | .toValue target | .attr target _ | .serialize _ target => [target]
  | .setAttr target _ value => [target, value]
  | .call callee args => callee :: args
  | .global .. | .eval _ | .ofValue _ | .isOwner _ | .restore .. | .unload _ => []

theorem Op.nesting_of_operands {op : Op} {o : Ref} (ho : o ∈ op.operands) :
    op.nesting ≤ Value.maxDepth := by
  cases op with
  | ofValue v => cases ho
  | _ => exact Nat.zero_le _

/-- A reference is turned away because another session handed it out, or because none did. -/
def Ref.refusal (key : SessionKey) (o : Ref) : Failure :=
  if o.session = key then .notLive o else .notOwned o key

theorem Ref.sized_refusal (key : SessionKey) (o : Ref) :
    Text.Sized (o.refusal key).fault.message := by
  have ho := Ref.length_display_le o
  have hk := SessionKey.length_display_le key
  unfold refusal
  split
  · have hlen : (o.display ++ " is not a live object").length ≤ 70 := by
      have hs : " is not a live object".length = 21 := rfl
      rw [String.length_append]
      omega
    exact Text.sized_of_length (Nat.lt_of_le_of_lt hlen (by decide))
  · have hlen : (o.display ++ " does not belong to " ++ key.display).length ≤ 97 := by
      have hs : " does not belong to ".length = 20 := rfl
      rw [String.length_append, String.length_append]
      omega
    exact Text.sized_of_length (Nat.lt_of_le_of_lt hlen (by decide))

section Resolving

variable {key : SessionKey} {slots : List ObjectIndex} {o : Ref}

/-- A session resolves the references to its slots, and no others. -/
theorem resolveRef_cases (key : SessionKey) (slots : List ObjectIndex) (o : Ref) :
    (o.session = key ∧ o.slot.toNat < slots.length ∧ ∃ n, resolveRef key slots o = .ok n) ∨
      ¬ (o.session = key ∧ o.slot.toNat < slots.length) ∧
        resolveRef key slots o = .error (o.refusal key) := by
  unfold resolveRef Ref.refusal
  by_cases hk : o.session = key
  · by_cases hlt : o.slot.toNat < slots.length
    · refine .inl ⟨hk, hlt, slots[o.slot.toNat], ?_⟩
      rw [if_neg (not_not_intro hk), List.getElem?_eq_getElem hlt]
    · refine .inr ⟨fun h => hlt h.2, ?_⟩
      rw [if_neg (not_not_intro hk), if_pos hk, List.getElem?_eq_none (Nat.le_of_not_lt hlt)]
  · refine .inr ⟨fun h => hk h.1, ?_⟩
    rw [if_pos hk, if_neg hk]

theorem resolveRefs_error {f : Failure} {rs : List Ref} (ho : o ∈ rs)
    (hf : resolveRef key slots o = .error f) :
    ∃ f', rs.mapM (resolveRef key slots) = .error f' := by
  induction rs with
  | nil => cases ho
  | cons r rs ih =>
    rw [List.mapM_cons]
    rcases hr : resolveRef key slots r with f' | n
    · exact ⟨f', rfl⟩
    · rcases List.mem_cons.1 ho with rfl | ho
      · rw [hf] at hr
        cases hr
      · obtain ⟨f', hrs⟩ := ih ho
        rw [hrs]
        exact ⟨f', rfl⟩

/-- No operation gets past an operand that does not resolve. If it is the first one, this is the
reason. -/
theorem Engine.attempt_operand {e : Engine} {op : Op} {f : Failure} (ho : o ∈ op.operands)
    (hf : resolveRef key slots o = .error f) :
    ∃ f', e.attempt key slots op = .error f' ∧ (op.operands.head? = some o → f' = f) := by
  have hbind {α β : Type} {x : Except Failure α} {g : α → Except Failure β} {f' : Failure}
      (hx : x = .error f') : (x >>= g) = .error f' := by
    rw [hx]
    rfl
  -- The first operand is checked before anything else.
  have hfirst {β : Type} {first : Ref} {rest : List Ref} {g : ObjectIndex → Except Failure β}
      (hmem : o ∈ first :: rest)
      (hrest : ∀ n, resolveRef key slots first = .ok n → o ∈ rest → ∃ f', g n = .error f') :
      ∃ f', (resolveRef key slots first >>= g) = .error f' ∧
        ((first :: rest).head? = some o → f' = f) := by
    rcases hr : resolveRef key slots first with f' | n
    · refine ⟨f', rfl, fun he => ?_⟩
      obtain rfl := Option.some.inj he
      rw [hf] at hr
      exact (Except.error.inj hr).symm
    · have hne : first ≠ o := by
        rintro rfl
        rw [hf] at hr
        cases hr
      obtain ⟨f', hg⟩ := hrest n hr ((List.mem_cons.1 hmem).resolve_left fun he => hne he.symm)
      exact ⟨f', hg, fun he => absurd (Option.some.inj he) hne⟩
  cases op with
  | toValue target | attr target name | serialize receiver target =>
    exact hfirst ho fun n _ hmem => absurd hmem List.not_mem_nil
  | setAttr target name value =>
    refine hfirst ho fun n _ hmem => ?_
    obtain rfl := List.mem_singleton.1 hmem
    exact ⟨f, hbind hf⟩
  | call callee args =>
    refine hfirst ho fun n _ hmem => ?_
    obtain ⟨f', hargs⟩ := resolveRefs_error hmem hf
    split
    · exact ⟨f', hbind hargs⟩
    · exact ⟨_, rfl⟩
  | _ => cases ho

theorem Engine.perform_operand (source : TextSource) {e : Engine} {op : Op} {f : Failure}
    (hk : e.interp.sessions.get? key = some slots) (ho : o ∈ op.operands)
    (hf : resolveRef key slots o = .error f) :
    ∃ f', (Engine.perform source key op e).1 = .error f' ∧
      (op.operands.head? = some o → f' = f) := by
  obtain ⟨f', ha, hhead⟩ := attempt_operand (e := e) ho hf
  refine ⟨f', ?_, hhead⟩
  cases op with
  | «global» => cases ho
  | _ => simp only [Engine.perform, hk, ha, Engine.settle]

end Resolving

/-- A fault that can be written is heard as it is. -/
theorem Channel.hear_fault (name : String) {f : Fault} (hf : Text.Sized f.message) :
    hear name (.error f) = .error (.runtime f) := by
  have ho : Wire.encodeReply (.error f) = .ok (Wire.bytesOfNat32 1 ++ Wire.bytesOfFault f) := rfl
  have hd := Wire.decodeReply_of_sized (r := .error f) ho hf
  simp only [hear, ho, interpret, show Status.ok.isOk = true from rfl, if_true, hd]

/-- What is heard through a link of what an operation comes to at the interpreter. -/
def Link.relay (key : SessionKey) (op : Op) (sent : Except Error Response) :
    Link → Except Error Response
  | .direct _ => sent
  | .channel _ => Channel.extract (Response.expect op.answers)
      (Channel.hear (Request.act key op).name (sent.mapError Error.toFault))

namespace Link

open Host

variable {h : Host} {l : Link} {k : Nat} {key : SessionKey} {op : Op} {slots : List ObjectIndex}
  {o : Ref}

/-- What is heard of an operation in a session that is served depends on what it comes to alone. -/
theorem perform_heard (hserved : h.Served l key) (hl : h.interpAt l = some k)
    (hn : op.nesting ≤ Value.maxDepth) (hs : op.Sized) :
    (runOn h (l.perform key op)).1 = l.relay key op (h.machine.perform h.texts k key op).1 := by
  cases l with
  | direct n =>
    obtain rfl : n = k := Option.some.inj hl
    rfl
  | channel c =>
    obtain ⟨e, hc, hk⟩ := hserved c rfl
    obtain rfl : e.interp = k := Option.some.inj ((interpAt_channel hc).symm.trans hl)
    obtain ⟨bytes, hb, hd⟩ := Wire.decodeRequest_act key hn hs
    simp only [perform, onChannel, runOn_of, hc, Channel.perform, Channel.call_hear hb, hd,
      Endpoint.serve, if_pos hk, relay]

/-- A fault in a session comes through the link as it is. -/
theorem perform_fault {f : Fault} (hserved : h.Served l key) (hl : h.interpAt l = some k)
    (hn : op.nesting ≤ Value.maxDepth) (hs : op.Sized)
    (hp : (h.machine.perform h.texts k key op).1 = .error (.runtime f))
    (hf : Text.Sized f.message) : (runOn h (l.perform key op)).1 = .error (.runtime f) := by
  rw [perform_heard hserved hl hn hs, hp]
  cases l with
  | direct n => rfl
  | channel c => exact congrArg (Channel.extract _) (Channel.hear_fault _ hf)

/-- Every operation that is given a reference that does not resolve fails. If the reference is the first
operand, the fault says why. -/
theorem perform_operand (hserved : h.Served l key) (hslots : h.slotsAt l key = some slots)
    (hs : op.Sized) (ho : o ∈ op.operands) (hf : resolveRef key slots o = .error (o.refusal key)) :
    (∃ e, (runOn h (l.perform key op)).1 = .error e) ∧ (op.operands.head? = some o →
      (runOn h (l.perform key op)).1 = .error (.runtime (o.refusal key).fault)) := by
  obtain ⟨k, i, hl, hi, hk⟩ := slotsAt_eq_some.1 hslots
  have hn := Op.nesting_of_operands ho
  obtain ⟨f, hp, hhead⟩ := Engine.perform_operand h.texts
    (e := ⟨h.machine.heap, i⟩) hk ho hf
  have hmachine : (h.machine.perform h.texts k key op).1 = .error (.runtime f.fault) := by
    rw [Machine.perform_eq hi, hp]
    rfl
  refine ⟨?_, fun he => ?_⟩
  · rcases perform_sized key hl hn hs with ⟨hno, -⟩ | ⟨-, heard, hr, hrelay⟩
    · exact absurd hserved hno
    · obtain ⟨e, he⟩ := hrelay.error _ hmachine
      exact ⟨e, by rw [hr, he]⟩
  · rw [hhead he] at hmachine
    exact perform_fault hserved hl hn hs hmachine (Ref.sized_refusal key o)

/-- A session is asked about a reference. -/
theorem perform_isOwner (hserved : h.Served l key) (hslots : h.slotsAt l key = some slots) :
    (runOn h (l.perform key (.isOwner o))).1 =
      .ok (.bool (o.session = key && o.slot.toNat < slots.length)) := by
  obtain ⟨k, i, hl, hi, hk⟩ := slotsAt_eq_some.1 hslots
  have hp : (h.machine.perform h.texts k key (.isOwner o)).1 =
      .ok (.bool (o.session = key && o.slot.toNat < slots.length)) := by
    rw [Machine.perform_eq hi]
    simp only [Engine.perform, hk, Engine.attempt, Engine.settle, Except.mapError_ok]
  have hsized : (Op.isOwner o).Sized := trivial
  rcases perform_sized key hl (Nat.zero_le _) hsized with
    ⟨hno, -⟩ | ⟨-, heard, hr, hrelay⟩
  · exact absurd hserved hno
  · rw [hr]
    exact hrelay.ok _ _ hp rfl (by
      cases (o.session = key && o.slot.toNat < slots.length : Bool) <;> decide)

end Link

namespace Host

variable {h : Host} {s : SessionId} {session : Session} {o : Ref}

theorem performBool_isOwner {b : Bool} (hs : h.sessions.get? s = some session)
    (hb : (runOn h (session.link.perform session.key (.isOwner o))).1 = .ok (.bool b)) :
    (runOn h (performBool s (.isOwner o))).1 = .ok b := by
  unfold performBool
  rw [runOn_bind, runOn_perform hs]
  rcases hr : runOn h (session.link.perform session.key (.isOwner o)) with ⟨e | r, h'⟩
  · rw [hr] at hb
    cases hb
  · rw [hr] at hb
    cases hb
    rfl

/-- A reference that is not the session's own cannot be made a value of. -/
theorem createReplica_unowned (hs : h.sessions.get? s = some session)
    (hb : (runOn h (performBool s (.isOwner o))).1 = .ok false) :
    (runOn h (createReplica s o)).1 =
      .error (.usage (if session.origin.manager?.isSome then .foreignValue else .noManager)) := by
  rw [createReplica, runOn_bind_ok (getSession_ok hs)]
  cases session.origin.manager? with
  | none => rfl
  | some manager =>
    rw [runOn_bind]
    rcases hr : runOn h (performBool s (.isOwner o)) with ⟨e | b, h'⟩
    · rw [hr] at hb
      cases hb
    · rw [hr] at hb
      cases hb
      rfl

/-- In every state that is reached, with any number of interpreters and sessions, direct or behind the
boundary, a session that is not cut off knows exactly the references as its own that its operations
returned, and it resolves them. Every operation that is given another one fails: if that is the first
operand, since another session handed it out or none did. No value can be made of it either. -/
theorem owns_iff_returned (deeds : List Deed) (hd : Host.AllProper {} deeds)
    (hn : Host.opened {} deeds < 2 ^ 64) (s : SessionId) (session : Session) (k : Nat)
    (hs : (Host.afterDeeds {} deeds).sessions.get? s = some session)
    (hk : (Host.afterDeeds {} deeds).interpAt session.link = some k)
    (hlive : ¬ (Host.afterDeeds {} deeds).Cut session.link)
    (hfew : (refsOf (Host.returned {} deeds) s).length ≤ 2 ^ 32) (o : Ref) :
    let h := Host.afterDeeds {} deeds
    let own := o.session = session.key ∧ o ∈ refsOf (Host.returned {} deeds) s
    (runOn h (performBool s (.isOwner o))).1 = .ok (decide own) ∧
    (own → ∃ n, h.meaning session.link session.key o = some n) ∧
    (¬ own →
      (∀ op : Op, op.Sized → o ∈ op.operands → ∃ e, (runOn h (Host.perform s op)).1 = .error e) ∧
      (∀ op : Op, op.Sized → op.operands.head? = some o → (runOn h (Host.perform s op)).1 =
        .error (.runtime (if o.session = session.key then Failure.notLive o
          else Failure.notOwned o session.key).fault)) ∧
      (runOn h (createReplica s o)).1 = .error (.usage
        (if session.origin.manager?.isSome then .foreignValue else .noManager))) := by
  intro h own
  have hkept : h.Kept (Host.returned {} deeds) :=
    kept_empty.afterDeeds hd (Nat.lt_of_le_of_lt (Nat.le_of_eq (Nat.zero_add _)) hn)
  obtain ⟨slots, hi, hrefs⟩ := hkept.issued s session k hs hk
  obtain ⟨hserved, hslots⟩ := hi.slots.resolve_left hlive
  have hlen : slots.length ≤ 2 ^ 32 := by
    rw [hrefs, SessionKey.length_refs] at hfew
    exact hfew
  -- The references that it handed out are those to its slots.
  have hown : own ↔ o.session = session.key ∧ o.slot.toNat < slots.length := by
    simp only [own, hrefs, SessionKey.mem_refs hlen, and_self_left]
  have hasked : (runOn h (performBool s (.isOwner o))).1 = .ok (decide own) := by
    refine performBool_isOwner hs ((Link.perform_isOwner hserved hslots).trans ?_)
    simp only [hown, Bool.decide_and]
  refine ⟨hasked, fun ho => ?_, fun ho => ?_⟩
  · rcases resolveRef_cases session.key slots o with ⟨-, -, n, hr⟩ | ⟨hno, -⟩
    · exact ⟨n, meaning_eq_some.2 ⟨slots, hslots, hr⟩⟩
    · exact absurd (hown.1 ho) hno
  · have hr : resolveRef session.key slots o = .error (o.refusal session.key) := by
      rcases resolveRef_cases session.key slots o with ⟨hkey, hlt, -⟩ | ⟨-, hr⟩
      · exact absurd (hown.2 ⟨hkey, hlt⟩) ho
      · exact hr
    refine ⟨fun op hsized hop => ?_, fun op hsized hop => ?_, ?_⟩
    · rw [runOn_perform hs]
      exact (Link.perform_operand hserved hslots hsized hop hr).1
    · rw [runOn_perform hs]
      exact (Link.perform_operand hserved hslots hsized (List.mem_of_head? hop) hr).2 hop
    · exact createReplica_unowned hs (hasked.trans (congrArg _ (decide_eq_false ho)))

end Host

/-- A run with a manager of two instances behind boundaries and with an instance of its own. There is a
session on each of them, and each session of the manager has made a list. -/
def Deed.neighbours : List Deed :=
  [.act (.addSource (.stock { rule := (Stock.simulated 0 none).rule })),
    .act (.addLoader (.simulated { throughChannel := true })), .act (.addEnvironment {}),
    .act (.buildManager { count := 2, image := { source := 0, loader := 0 }, environment := 0 }),
    .act (.loadInstance 2 { source := 0, loader := 0 } 0), .act (.openPinned 0 0),
    .act (.openPinned 0 1), .act (.openAlone 2), .act (.perform 0 (.eval "[1]")),
    .act (.perform 1 (.eval "[2]"))]

/-- The first of the neighbours owns its list, and cannot set a member of it to the list of the second nor
make a value of that. The reference after its own is of none. -/
theorem Host.owns_iff_returned_neighbours :
    let h := Host.afterDeeds {} Deed.neighbours
    (runOn h (performBool 0 (.isOwner ⟨⟨3⟩, 0⟩))).1 = .ok true ∧
      (∃ n, h.meaning (.channel 0) ⟨3⟩ ⟨⟨3⟩, 0⟩ = some n) ∧
      (runOn h (performBool 0 (.isOwner ⟨⟨4⟩, 0⟩))).1 = .ok false ∧
      (∃ e, (runOn h (Host.perform 0 (.setAttr ⟨⟨3⟩, 0⟩ "x" ⟨⟨4⟩, 0⟩))).1 = .error e) ∧
      (runOn h (Host.perform 0 (.toValue ⟨⟨4⟩, 0⟩))).1 =
        .error (.runtime (Failure.notOwned ⟨⟨4⟩, 0⟩ ⟨3⟩).fault) ∧
      (runOn h (createReplica 0 ⟨⟨4⟩, 0⟩)).1 = .error (.usage .foreignValue) ∧
      (runOn h (Host.perform 0 (.toValue ⟨⟨3⟩, 1⟩))).1 =
        .error (.runtime (Failure.notLive ⟨⟨3⟩, 1⟩).fault) := by
  intro h
  have hd : Host.AllProper {} Deed.neighbours :=
    ⟨trivial, trivial, trivial, (by decide : 2 < 2 ^ 64), trivial, trivial, trivial, trivial, trivial, trivial,
      trivial⟩
  have hs : h.sessions.get? 0 = some { link := .channel 0, key := ⟨3⟩, origin := .pinned 0 0 } := by
    decide +kernel
  have hopened : Host.opened {} Deed.neighbours = 5 := by decide +kernel
  have hreturned : Host.returned {} Deed.neighbours = [(0, ⟨⟨3⟩, 0⟩), (1, ⟨⟨4⟩, 0⟩)] := by
    decide +kernel
  have hlive : h.channels[0]?.map Channel.live = some true := by decide +kernel
  have howns := Host.owns_iff_returned Deed.neighbours hd (by rw [hopened]; decide) 0 _ 0 hs
    (by decide +kernel)
    (by
      rintro ⟨c, e, hc, hcut⟩
      cases hc
      rw [hcut] at hlive
      cases hlive)
    (by rw [hreturned]; decide)
  rw [hreturned] at howns
  obtain ⟨hown, hmeans, -⟩ := howns ⟨⟨3⟩, 0⟩
  obtain ⟨hother, -, hforeign⟩ := howns ⟨⟨4⟩, 0⟩
  obtain ⟨-, -, hforged⟩ := howns ⟨⟨3⟩, 1⟩
  obtain ⟨hall, hfirst, hreplica⟩ := hforeign (by decide)
  obtain ⟨-, hnone, -⟩ := hforged (by decide)
  exact ⟨hown, hmeans (by decide), hother, hall _ (by decide : Text.Sized "x") (by decide),
    hfirst _ trivial rfl, hreplica, hnone _ trivial rfl⟩

/-- An interpreter behind a boundary is finalized while a session on it has an object. -/
def Deed.farewell : List Deed :=
  [.addInterp, .exportInterp 0, .openBare (.channel 0), .act (.perform 0 (.eval "1")), .finalize (.channel 0)]

/-- A session of an instance without a manager makes no values, and says so before it looks at the
reference. A session that was cut off by the end of its interpreter does not know its own reference any
more. -/
theorem Host.createReplica_alone :
    let h := Host.afterDeeds {} Deed.neighbours
    let cut := Host.afterDeeds {} Deed.farewell
    ((runOn h (performBool 2 (.isOwner ⟨⟨7⟩, 0⟩))).1 = .ok false ∧
      (runOn h (createReplica 2 ⟨⟨7⟩, 0⟩)).1 = .error (.usage .noManager) ∧
      (runOn h (createReplica 2 ⟨⟨7⟩, 0⟩)).1 ≠ .error (.usage .foreignValue)) ∧
    cut.sessions.get? 0 = some { link := .channel 0, key := ⟨1⟩, origin := .bare } ∧
      refsOf (Host.returned {} Deed.farewell) 0 = [⟨⟨1⟩, 0⟩] ∧
      (runOn cut (performBool 0 (.isOwner ⟨⟨1⟩, 0⟩))).1 = .error .closed := by
  intro h cut
  have hs : h.sessions.get? 2 = some { link := .channel 2, key := ⟨5⟩, origin := .alone 2 } := by
    decide +kernel
  have hasked : (runOn h (performBool 2 (.isOwner ⟨⟨7⟩, 0⟩))).1.toOption = some false := by
    decide +kernel
  have hreplica : (runOn h (createReplica 2 ⟨⟨7⟩, 0⟩)).1 = .error (.usage .noManager) :=
    createReplica_unowned hs (congrArg Prod.fst (runOn_of_toOption hasked))
  refine ⟨⟨congrArg Prod.fst (runOn_of_toOption hasked), hreplica, fun hforeign => ?_⟩, by decide +kernel,
    by decide +kernel, rfl⟩
  rw [hreplica] at hforeign
  cases hforeign

end InstancePool
