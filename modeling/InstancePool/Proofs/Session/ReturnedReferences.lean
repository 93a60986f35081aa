import InstancePool.Proofs.Session.InternalSessions
import InstancePool.Proofs.Interp.Isolation

/-!
What the sessions of a host have handed out. Whatever is done to the host, the slots of each session are
those of the references that its operations returned, in order.
-/

namespace InstancePool

open HostM

/-- The first references of a session. -/
def SessionKey.refs (key : SessionKey) (n : Nat) : List Ref :=
  (List.range n).map fun i => ⟨key, UInt32.ofNat i⟩

namespace SessionKey

variable {key : SessionKey} {n : Nat} {r : Ref}

theorem refs_succ (key : SessionKey) (n : Nat) :
    key.refs (n + 1) = key.refs n ++ [⟨key, UInt32.ofNat n⟩] := by
  simp only [refs, List.range_succ, List.map_append, List.map_singleton]

@[simp] theorem length_refs (key : SessionKey) (n : Nat) : (key.refs n).length = n := by
  simp only [refs, List.length_map, List.length_range]

theorem mem_refs (hn : n ≤ 2 ^ 32) : r ∈ key.refs n ↔ r.session = key ∧ r.slot.toNat < n := by
  simp only [refs, List.mem_map, List.mem_range]
  constructor
  · rintro ⟨i, hi, rfl⟩
    have hlt : i < 2 ^ 32 := Nat.lt_of_lt_of_le hi hn
    refine ⟨rfl, ?_⟩
    rwa [UInt32.toNat_ofNat', Nat.mod_eq_of_lt hlt]
  · rintro ⟨rfl, hlt⟩
    exact ⟨r.slot.toNat, hlt, by rw [UInt32.ofNat_toNat]⟩

/-- No two of them are the same, as long as 32 bits are enough for their numbers. -/
theorem nodup_refs (key : SessionKey) (hn : n ≤ 2 ^ 32) : (key.refs n).Nodup := by
  rw [refs, List.Nodup, List.pairwise_map]
  refine List.nodup_range.imp_of_mem fun {i j} hi hj hne he => hne ?_
  have hlt (i : Nat) (hi : i ∈ List.range n) : i < 2 ^ 32 :=
    Nat.lt_of_lt_of_le (List.mem_range.1 hi) hn
  have hslot := congrArg (fun r : Ref => r.slot.toNat) he
  simpa only [UInt32.toNat_ofNat', Nat.mod_eq_of_lt (hlt i hi), Nat.mod_eq_of_lt (hlt j hj)] using hslot

end SessionKey

theorem Channel.kind_of_extract {kind : ResponseKind} {x : Except Error Response} {r : Response}
    (h : extract (Response.expect kind) x = .ok r) : r.kind = kind := by
  cases x with
  | error e => cases h
  | ok r' =>
    simp only [extract, Response.expect] at h
    split at h
    · rename_i hk
      cases h
      exact hk
    · cases h

namespace Link

open Host

variable {h h' : Host} {l : Link} {key : SessionKey} {op : Op} {slots : List ObjectIndex}

/-- What comes back through a link has the form that was asked for. -/
theorem perform_kind {r : Response} (hr : (runOn h (l.perform key op)).1 = .ok r) :
    r.kind = op.answers := by
  cases l with
  | direct n =>
    simp only [perform, runOn_of] at hr
    cases hi : h.machine.interps[n]? with
    | none =>
      rw [Machine.perform, hi] at hr
      cases hr
    | some i => exact Machine.perform_answers hi hr
  | channel c =>
    simp only [perform, onChannel, runOn_of] at hr
    split at hr
    · cases hr
    · exact Channel.kind_of_extract hr
    · exact Channel.kind_of_extract hr

/-- An operation in a session either fails without a trace, or comes to what an operation of its form
comes to at the interpreter. -/
theorem perform_arrives (op : Op) (hi : h.Issued l key slots) :
    (∃ e, runOn h (l.perform key op) = (.error e, h)) ∨
      ∃ k op' heard, h.Served l key ∧ h.interpAt l = some k ∧ op'.answers = op.answers ∧
        runOn h (l.perform key op) =
          (heard, { h with machine := (h.machine.perform h.texts k key op').2 }) ∧
        Relayed (h.machine.perform h.texts k key op').1 heard := by
  obtain ⟨k, hk⟩ := hi.leads
  cases l with
  | direct n =>
    refine .inr ⟨n, op, _, fun c hc => (by cases hc), rfl, rfl, rfl, ?_⟩
    exact .refl _
  | channel c =>
    rcases hi.slots with ⟨c', e, hc', hcut⟩ | ⟨hserved, -⟩
    · cases hc'
      refine .inl ⟨.closed, ?_⟩
      exact runOn_perform_channel hcut rfl
    · obtain ⟨e, hc, hs⟩ := hserved c rfl
      have hat := interpAt_channel hc
      cases hb : Wire.encodeRequest (.act key op) with
      | error cause =>
        refine .inl ⟨.protocol (.encode cause), runOn_perform_channel hc ?_⟩
        simp only [Channel.perform, Channel.call, hb, if_true, Channel.extract]
      | ok bytes =>
        cases hd : Wire.decodeRequest bytes with
        | error cause =>
          obtain ⟨f, hf⟩ := Channel.hear_error (Request.act key op).name
            ⟨.protocol, (WireError.decode cause).message⟩
          refine .inl ⟨f, runOn_perform_channel hc ?_⟩
          simp only [Channel.perform, Channel.call_hear hb, hd, hf, Channel.extract]
        | ok r =>
          -- Lengths wrap in the written form, so another operation may arrive, but one of the same form.
          obtain ⟨op', rfl, ha⟩ : ∃ op', r = .act key op' ∧ op'.answers = op.answers := by
            rcases Wire.decodeRequest_of_encode hb hd with rfl | ⟨key', o, o', ho, rfl, ha⟩
            · exact ⟨op, rfl, rfl⟩
            · cases ho
              exact ⟨o', rfl, Wire.answers_eq_of_opIndex ha⟩
          rcases Channel.perform_read h.texts hb hd ha with ⟨hn, -⟩ | ⟨-, heard, hp, hrelay⟩
          · exact absurd hs hn
          · exact .inr ⟨e.interp, op', heard, hserved, hat, ha, runOn_perform_channel hc hp, hrelay⟩

/-- An operation in a session either hands out nothing, or it hands out the next reference. -/
theorem perform_issues (op : Op) (hi : h.Issued l key slots) :
    ((∀ r, (runOn h (l.perform key op)).1 ≠ .ok (.ref r)) ∧
        (runOn h (l.perform key op)).2.Issued l key slots) ∨
      (runOn h (l.perform key op)).1 = .ok (.ref ⟨key, UInt32.ofNat slots.length⟩) ∧
        ∃ n, (runOn h (l.perform key op)).2.Issued l key (slots ++ [n]) := by
  rcases perform_arrives op hi with ⟨e, hr⟩ | ⟨k, op', heard, hserved, hat, ha, hr, hrelay⟩
  · rw [hr]
    exact .inl ⟨fun r he => (by cases he), hi⟩
  · rcases hi.slots with ⟨c, e, rfl, hcut⟩ | ⟨-, hslots⟩
    · obtain ⟨e', he, -⟩ := hserved c rfl
      rw [hcut] at he
      cases he
    obtain ⟨k', i, hat', hinterp, hkey⟩ := slotsAt_eq_some.1 hslots
    obtain rfl := Option.some.inj (hat.symm.trans hat')
    have hlt : k < h.machine.interps.length := (List.getElem?_eq_some_iff.1 hinterp).1
    have hkind := fun r => @perform_kind h l key op r
    rw [hr] at hkind ⊢
    rw [Machine.perform_eq hinterp] at hrelay ⊢
    -- What becomes of the session, given what its slots are afterwards.
    have hissued (slots' : List ObjectIndex)
        (hs : (Engine.perform h.texts key op' ⟨h.machine.heap, i⟩).2.interp.sessions.get? key =
          some slots') : Host.Issued { h with machine := { h.machine.setInterp k
            (Engine.perform h.texts key op' ⟨h.machine.heap, i⟩).2.interp with
          heap := (Engine.perform h.texts key op' ⟨h.machine.heap, i⟩).2.heap } } l key slots' := by
      refine ⟨hi.old, hi.leads, hi.alone, .inr ⟨hserved, ?_⟩⟩
      exact slotsAt_eq_some.2 ⟨k, _, hat, List.getElem?_set_self hlt, hs⟩
    rcases Engine.perform_own h.texts op' (e := ⟨h.machine.heap, i⟩) hkey with
      ⟨hnone, hs⟩ | ⟨hsome, n, hs⟩
    · refine .inl ⟨fun r he => ?_, hissued slots hs⟩
      obtain rfl : heard = .ok (.ref r) := he
      obtain ⟨r', hr'⟩ := hrelay.of_ok rfl
      cases hx : (Engine.perform h.texts key op' ⟨h.machine.heap, i⟩).1 with
      | error f =>
        rw [hx] at hr'
        cases hr'
      | ok response =>
        have hanswer : response.kind = .ref :=
          (Engine.perform_answers hx).trans (ha.trans (hkind _ rfl).symm)
        cases response with
        | ref ref => exact hnone ref hx
        | _ => cases hanswer
    · refine .inr ⟨?_, n, hissued _ hs⟩
      obtain ⟨output, ho, hl⟩ := Wire.encodeReply_ref ⟨key, UInt32.ofNat slots.length⟩
      exact hrelay.ok _ output (by rw [hsome]; rfl) ho hl

end Link


namespace Host

/-- The references that a session returned, according to a record of what all sessions returned. -/
def refsOf (log : List (SessionId × Ref)) (s : SessionId) : List Ref :=
  log.filterMap fun e => if e.1 = s then some e.2 else none

/-- What goes on record of an operation of a session. -/
def receipt (s : SessionId) : Except Error Response → List (SessionId × Ref)
  | .ok (.ref r) => [(s, r)]
  | _ => []

/-- What goes on record where a reference is what was asked for. -/
def receiptRef (s : SessionId) : Except Error Ref → List (SessionId × Ref)
  | .ok r => [(s, r)]
  | .error _ => []

/-- The sessions of a host are in order. Those of interpreters have keys of their own, and the slots of
each are those of the references that it returned. -/
structure Kept (log : List (SessionId × Ref)) (h : Host) : Prop where
  numbered : h.KeysGiven
  crews : ∀ manager ∈ h.managers, manager.instances.length < 2 ^ 64
  fresh : ∀ s, h.nextSession ≤ s → h.sessions.get? s = none ∧ refsOf log s = []
  known : ∀ s session, h.sessions.get? s = some session → h.Known session.link
  issued : ∀ s session k, h.sessions.get? s = some session → h.interpAt session.link = some k →
    ∃ slots, h.Issued session.link session.key slots ∧
      refsOf log s = session.key.refs slots.length
  apart : ∀ s s' session session' k k', h.sessions.get? s = some session →
    h.sessions.get? s' = some session' → h.interpAt session.link = some k →
    h.interpAt session'.link = some k' → session.key = session'.key → s = s'

variable {n : Nat} {K : SessionKey → Prop} {log : List (SessionId × Ref)} {h h' : Host}
  {s : SessionId} {session : Session}

@[simp] theorem refsOf_append (log log' : List (SessionId × Ref)) (s : SessionId) :
    refsOf (log ++ log') s = refsOf log s ++ refsOf log' s := by
  simp only [refsOf, List.filterMap_append]

theorem refsOf_receipt (s : SessionId) (r : Ref) : refsOf [(s, r)] s = [r] := by
  simp only [refsOf, List.filterMap_cons, if_true, List.filterMap_nil]

theorem refsOf_receipt_ne {s s' : SessionId} (hne : s ≠ s') (x : Except Error Response) :
    refsOf (receipt s x) s' = [] := by
  unfold receipt
  split
  · simp only [refsOf, List.filterMap_cons, if_neg hne, List.filterMap_nil]
  · rfl

theorem Kept.lt (hk : h.Kept log) (hs : h.sessions.get? s = some session) : s < h.nextSession := by
  refine Nat.lt_of_not_le fun hle => ?_
  rw [(hk.fresh s hle).1] at hs
  cases hs

/-- The session `s` alone was touched, or none, and it is in order still. -/
theorem Kept.of_keeps (hk : h.Kept log) (entries : List (SessionId × Ref)) (s : SessionId)
    (hkeep : h.Keeps n K h') (hc : h.Carries K h') (hlog : ∀ s', s' ≠ s → refsOf entries s' = [])
    (hK : ∀ s' session k, s' ≠ s → h.sessions.get? s' = some session →
      h.interpAt session.link = some k → ¬ K session.key)
    (hs : h.nextSession ≤ s → refsOf entries s = [])
    (hown : ∀ session k slots, h.sessions.get? s = some session → h.interpAt session.link = some k →
      h.Issued session.link session.key slots → ∃ slots',
        h'.Issued session.link session.key slots' ∧
        session.key.refs slots.length ++ refsOf entries s = session.key.refs slots'.length) :
    h'.Kept (log ++ entries) := by
  have hlink (s' : SessionId) (other : Session) (hs' : h'.sessions.get? s' = some other) :
      h.sessions.get? s' = some other ∧ h'.interpAt other.link = h.interpAt other.link := by
    rw [hkeep.sessions] at hs'
    exact ⟨hs', (hkeep.leads _ (hk.known s' other hs')).2⟩
  refine ⟨hc.numbered hk.numbered, fun manager hm => ?_, fun s' hle => ?_, fun s' other hs' => ?_,
    fun s' other k hs' hat => ?_, fun s₁ s₂ one two k₁ k₂ h₁ h₂ hat₁ hat₂ he => ?_⟩
  · rcases hkeep.enlists manager hm with hlt | ⟨manager', hm', he⟩
    · exact hlt
    · rw [← he]
      exact hk.crews manager' hm'
  · rw [hkeep.nextSession] at hle
    obtain ⟨hnone, hlog'⟩ := hk.fresh s' hle
    rw [hkeep.sessions, refsOf_append, hlog', List.nil_append]
    by_cases he : s' = s
    · subst he
      exact ⟨hnone, hs hle⟩
    · exact ⟨hnone, hlog s' he⟩
  · exact (hkeep.leads _ (hk.known s' other (hlink s' other hs').1)).1
  -- What was handed out goes to the account of the touched session alone.
  · obtain ⟨hs', hat'⟩ := hlink s' other hs'
    rw [hat'] at hat
    obtain ⟨slots, hi, hrefs⟩ := hk.issued s' other k hs' hat
    rw [refsOf_append, hrefs]
    by_cases he : s' = s
    · subst he
      exact hown other k slots hs' hat hi
    · rw [hlog s' he, List.append_nil]
      exact ⟨slots, hc.issued _ _ _ (hK s' other k he hs' hat) hi, rfl⟩
  · obtain ⟨h₁, hat₁'⟩ := hlink s₁ one h₁
    obtain ⟨h₂, hat₂'⟩ := hlink s₂ two h₂
    exact hk.apart s₁ s₂ one two k₁ k₂ h₁ h₂ (hat₁' ▸ hat₁) (hat₂' ▸ hat₂) he

/-- No session was touched. -/
theorem Kept.of_keeps_unused (hk : h.Kept log) (hkeep : h.Keeps n K h') (hn : n < 2 ^ 64) (hfit : h.Fits h')
    (hK : ∀ s session k, h.sessions.get? s = some session → h.interpAt session.link = some k →
      ¬ K session.key) : h'.Kept log := by
  have hc := hkeep.carries hn hfit
  have hkept := hk.of_keeps [] h.nextSession hkeep hc (fun _ _ => rfl)
    (fun s' session k _ => hK s' session k) (fun _ => rfl) fun session k slots hs hat hi => ?_
  · rwa [List.append_nil] at hkept
  · refine ⟨slots, hc.issued _ _ _ (hK _ session k hs hat) hi, ?_⟩
    rw [refsOf, List.filterMap_nil, List.append_nil]

/-- The sessions stay in order, with nothing new on record. -/
abbrev StaysKept (log : List (SessionId × Ref)) (h h' : Host) : Prop := h.Kept log → h'.Kept log

theorem staysKept_of_keeps {α : Type} {x : HostM α} (hx : Within (Keeps 0 fun _ => False) x) :
    Within (StaysKept log) x :=
  fun h hk => hk.of_keeps_unused (hx h) (by decide) (fits_of_nextKey_eq (hx h).nextKey_eq) fun _ _ _ _ _ => id

/-- What a session of an interpreter returned goes on record. -/
theorem Kept.perform (hk : h.Kept log) (s : SessionId) (op : Op) :
    (runOn h (Host.perform s op)).2.Kept (log ++ receipt s (runOn h (Host.perform s op)).1) := by
  cases hs : h.sessions.get? s with
  | none =>
    have hr : runOn h (Host.perform s op) = (.error .unknownHandle, h) := by
      refine runOn_bind_error ?_ _
      simp only [getSession, runOn_find, hs, Option.elim_none]
    rw [hr]
    exact (List.append_nil log).symm ▸ hk
  | some session =>
    rw [runOn_perform hs]
    have hkeep := Link.keeps_perform session.key op session.link h
    have hc := hkeep.carries (by decide) (fits_of_nextKey_eq hkeep.nextKey_eq)
    refine hk.of_keeps _ s hkeep hc (fun s' hne => refsOf_receipt_ne hne.symm _)
      (fun s' other k hne hs' hat => ?_) (fun hle => ?_) fun session' k slots hs' hat hi => ?_
    · rintro ⟨he, k', hat'⟩
      exact hne (hk.apart s' s other session k k' hs' hs hat hat' he)
    · exact absurd (hk.lt hs) (Nat.not_lt.2 hle)
    · obtain rfl := Option.some.inj (hs.symm.trans hs')
      rcases Link.perform_issues op hi with ⟨hnone, hi'⟩ | ⟨hsome, n, hi'⟩
      · refine ⟨slots, hi', ?_⟩
        unfold receipt
        split
        · rename_i r he
          exact absurd he (hnone r)
        · rw [refsOf, List.filterMap_nil, List.append_nil]
      · refine ⟨slots ++ [n], hi', ?_⟩
        rw [hsome, receipt, refsOf_receipt, List.length_append, List.length_singleton,
          SessionKey.refs_succ]

theorem perform_kind {op : Op} {r : Response} (hr : (runOn h (Host.perform s op)).1 = .ok r) :
    r.kind = op.answers := by
  rcases find_cases (fun h => h.sessions.get? s) h with ⟨-, hs⟩ | ⟨session, hs, -⟩
  · rw [Host.perform, getSession, runOn_bind_error hs] at hr
    cases hr
  · rw [runOn_perform hs] at hr
    exact Link.perform_kind hr

/-- An operation that answers with no reference returns none. -/
theorem staysKept_perform (s : SessionId) (op : Op) (ho : op.answers ≠ .ref) :
    Within (StaysKept log) (Host.perform s op) := by
  intro h hk
  have hkept := hk.perform s op
  have hnone : receipt s (runOn h (Host.perform s op)).1 = [] := by
    unfold receipt
    split
    · rename_i r hr
      exact absurd (perform_kind hr).symm ho
    · rfl
  rwa [hnone, List.append_nil] at hkept

theorem Kept.performRef (hk : h.Kept log) (s : SessionId) (op : Op) :
    (runOn h (Host.performRef s op)).2.Kept
      (log ++ receiptRef s (runOn h (Host.performRef s op)).1) := by
  have hkept := hk.perform s op
  unfold Host.performRef
  rw [runOn_bind]
  rcases hr : runOn h (Host.perform s op) with ⟨e | r, h'⟩
  · rw [hr] at hkept
    exact hkept
  · rw [hr] at hkept
    cases r <;> exact hkept

/-- To look at something changes nothing. -/
instance : Frame fun h h' : Host => h' = h where
  refl _ := rfl
  trans he he' := he'.trans he

/-- Something is looked at before a reference is asked for. -/
theorem Kept.bind_unchanged {α : Type} {x : HostM α} {f : α → HostM Ref} (hk : h.Kept log)
    (hx : Within (fun h h' => h' = h) x)
    (hf : ∀ a, (runOn h (f a)).2.Kept (log ++ receiptRef s (runOn h (f a)).1)) :
    (runOn h (x >>= f)).2.Kept (log ++ receiptRef s (runOn h (x >>= f)).1) := by
  have hsame := hx h
  rw [runOn_bind]
  rcases hr : runOn h x with ⟨e | a, h'⟩
  · rw [hr] at hsame
    obtain rfl : h' = h := hsame
    exact (List.append_nil log).symm ▸ hk
  · rw [hr] at hsame
    obtain rfl : h' = h := hsame
    exact hf a

theorem Kept.materialize (hk : h.Kept log) (s : SessionId) (n : ReplicaId) :
    (runOn h (Host.materialize s n)).2.Kept
      (log ++ receiptRef s (runOn h (Host.materialize s n)).1) :=
  hk.bind_unchanged (within_find _) fun r => hk.bind_unchanged (within_requireLoaded r) fun _ =>
    hk.bind_unchanged (within_find _) fun _ => hk.bind_unchanged (within_find _) fun home =>
      hk.bind_unchanged (within_requireOwned r.manager home) fun _ => hk.performRef s _

/-- The book of sessions changed. A session in it was there, or is new: if it is on an interpreter, its
key is its own and it has handed out nothing. -/
theorem Kept.with_sessions (hk : h.Kept log) {sessions : Table SessionId Session} {next : SessionId}
    (hnext : h.nextSession ≤ next)
    (hsessions : ∀ s session, sessions.get? s = some session → s < next ∧
      ((∃ old, h.sessions.get? s = some old ∧ session.link = old.link ∧ session.key = old.key) ∨
        s = h.nextSession ∧ h.Known session.link ∧ ∀ k, h.interpAt session.link = some k →
          h.Issued session.link session.key [] ∧ ∀ s' other k', h.sessions.get? s' = some other →
            h.interpAt other.link = some k' → other.key ≠ session.key)) :
    Kept log { h with sessions, nextSession := next } := by
  refine ⟨hk.numbered, hk.crews, fun s hle => ⟨?_, (hk.fresh s (Nat.le_trans hnext hle)).2⟩,
    fun s session hs => ?_, fun s session k hs hat => ?_,
    fun s₁ s₂ one two k₁ k₂ h₁ h₂ hat₁ hat₂ he => ?_⟩
  · cases hs : sessions.get? s with
    | none => rfl
    | some session => exact absurd (hsessions s session hs).1 (Nat.not_lt.2 hle)
  · obtain ⟨-, ⟨old, hold, hl, -⟩ | ⟨-, hl, -⟩⟩ := hsessions s session hs
    · exact hl ▸ hk.known s old hold
    · exact hl
  · obtain ⟨-, ⟨old, hold, hl, hkey⟩ | ⟨rfl, -, hnew⟩⟩ := hsessions s session hs
    · obtain ⟨slots, hi, hrefs⟩ := hk.issued s old k hold (hl ▸ hat)
      rw [hl, hkey]
      exact ⟨slots, hi.of_same rfl rfl, hrefs⟩
    · exact ⟨[], (hnew k hat).1.of_same rfl rfl, (hk.fresh _ (Nat.le_refl _)).2⟩
  -- Two sessions with one key are both old, or both are the new one.
  · obtain ⟨-, ⟨old₁, hold₁, hl₁, hkey₁⟩ | ⟨rfl, -, hnew₁⟩⟩ := hsessions s₁ one h₁
    · obtain ⟨-, ⟨old₂, hold₂, hl₂, hkey₂⟩ | ⟨rfl, -, hnew₂⟩⟩ := hsessions s₂ two h₂
      · exact hk.apart s₁ s₂ old₁ old₂ k₁ k₂ hold₁ hold₂ (hl₁ ▸ hat₁) (hl₂ ▸ hat₂)
          (hkey₁ ▸ hkey₂ ▸ he)
      · exact absurd (hkey₁ ▸ he) ((hnew₂ k₂ hat₂).2 s₁ old₁ k₁ hold₁ (hl₁ ▸ hat₁))
    · obtain ⟨-, ⟨old₂, hold₂, hl₂, hkey₂⟩ | ⟨rfl, -, -⟩⟩ := hsessions s₂ two h₂
      · exact absurd (hkey₂ ▸ he.symm) ((hnew₁ k₁ hat₁).2 s₂ old₂ k₂ hold₂ (hl₂ ▸ hat₂))
      · rfl

theorem Kept.opened {x : HostM SessionId} (hk : h.Kept log) (hx : Opened x h)
    (hfit : h.Fits (runOn h x).2) : (runOn h x).2.Kept log := by
  cases hx with
  | refused e h' hr hkeep =>
    rw [hr] at hfit ⊢
    exact hk.of_keeps_unused hkeep (by decide) hfit fun _ _ _ _ _ => id
  | kept session h' hr hkeep hl hi =>
    rw [hr] at hfit ⊢
    have hk' : h'.Kept log := hk.of_keeps_unused hkeep (by decide) hfit fun _ _ _ _ _ => id
    refine hk'.with_sessions (Nat.le_succ _) fun s other hs => ?_
    rcases Table.get?_insert_eq_some.1 hs with ⟨rfl, rfl⟩ | ⟨-, hs⟩
    · refine ⟨Nat.lt_succ_self _, .inr ⟨rfl, hl, fun k hat =>
        ⟨(hi k hat).2 hfit hk.numbered, fun s' other k' hs' hat' => ?_⟩⟩⟩
      -- The others have keys that were given out before.
      rw [hkeep.sessions] at hs'
      rw [(hkeep.leads _ (hk.known s' other hs')).2] at hat'
      obtain ⟨slots, hissued, -⟩ := hk.issued s' other k' hs' hat'
      rw [(hi k hat).1]
      exact Machine.ne_nextKey hissued.old
    · exact ⟨Nat.lt_succ_of_lt (hk'.lt hs), .inl ⟨other, hs, rfl, rfl⟩⟩

/-- What comes after the host has forgotten a session: its slot is given back, and then it is closed. -/
theorem closeSession_keeps (hs : h.sessions.get? s = some session) :
    Keeps 0 (fun key => key = session.key ∧ ∃ k, h.interpAt session.link = some k)
      { h with sessions := h.sessions.erase s } (runOn h (closeSession s)).2 := by
  have hlast (h₁ : Host) (hl : ∀ l, h₁.interpAt l = h.interpAt l) :
      Keeps 0 (fun key => key = session.key ∧ ∃ k, h.interpAt session.link = some k) h₁
        (runOn h₁ (session.link.closeSession session.key)).2 := by
    have hkeep := Link.keeps_closeSession session.key session.link h₁
    rwa [hl] at hkeep
  have herase : runOn h (modify fun h => { h with sessions := h.sessions.erase s }) =
      (.ok (), { h with sessions := h.sessions.erase s }) := rfl
  rw [closeSession, runOn_bind_ok (getSession_ok hs), runOn_bind_ok herase]
  cases session.origin with
  | balanced m home slot =>
    refine Keeps.bind_rel (n := 0) (.refl _) (fun manager h₁ hm => ?_) (Nat.le_refl (0 + 0))
    obtain ⟨-, rfl⟩ := find_ok hm
    refine Keeps.bind_rel (n := 0) (keeps_freeSlot _ _ _) (fun _ h₂ hf => hlast h₂ fun l => ?_)
      (Nat.le_refl (0 + 0))
    obtain ⟨fleet, he⟩ := freeSlot_eq manager.balancer slot { h with
      sessions := h.sessions.erase s }
    rw [hf] at he
    have hh : h₂ = { h with sessions := h.sessions.erase s, fleet } := he
    rw [hh]
    exact interpAt_congr rfl l
  | bare | alone | pinned => exact hlast _ fun l => interpAt_congr rfl l

/-- The host forgets a session. -/
theorem Kept.erase (hk : h.Kept log) (s : SessionId) :
    Kept log { h with sessions := h.sessions.erase s } := by
  refine hk.with_sessions (Nat.le_refl _) fun s' other hs' => ?_
  obtain ⟨-, hs'⟩ := Table.get?_erase_eq_some.1 hs'
  exact ⟨hk.lt hs', .inl ⟨other, hs', rfl, rfl⟩⟩

theorem staysKept_closeSession (s : SessionId) : Within (StaysKept log) (closeSession s) := by
  intro h hk
  rcases find_cases (fun h => h.sessions.get? s) h with ⟨-, hr⟩ | ⟨session, hs, -⟩
  · rw [closeSession, getSession, runOn_bind_error hr]
    exact hk
  · have hk₀ : Kept log { h with sessions := h.sessions.erase s } := hk.erase s
    have hkeep := closeSession_keeps hs
    refine hk₀.of_keeps_unused hkeep (by decide) (fits_of_nextKey_eq hkeep.nextKey_eq) ?_
    rintro s' other k hs' hat ⟨he, k', hat'⟩
    obtain ⟨hne, hs'⟩ := Table.get?_erase_eq_some.1 hs'
    exact hne (hk.apart s' s other session k k' hs' hs hat hat' he)

theorem staysKept_setCurrent (s : SessionId) (r : Ref) :
    Within (StaysKept log) (setCurrent s r) := by
  intro h hk
  rcases find_cases (fun h => h.sessions.get? s) h with ⟨-, hr⟩ | ⟨session, hs, -⟩
  · rw [setCurrent, getSession, runOn_bind_error hr]
    exact hk
  · rw [setCurrent, runOn_bind_ok (getSession_ok hs)]
    refine hk.with_sessions (Nat.le_refl _) fun s' other hs' => ?_
    rcases Table.get?_insert_eq_some.1 hs' with ⟨rfl, rfl⟩ | ⟨-, hs'⟩
    · exact ⟨hk.lt hs, .inl ⟨session, hs, rfl, rfl⟩⟩
    · exact ⟨hk.lt hs', .inl ⟨other, hs', rfl, rfl⟩⟩

theorem keeps_takeObjectId (m : ManagerId) : Within (Keeps 0 K) (takeObjectId m) := by
  intro h
  rcases find_cases (fun h => h.managers[m]?) h with ⟨-, hr⟩ | ⟨manager, hm, hr⟩
  · rw [takeObjectId, getManager, runOn_bind_error hr]
    exact .refl h
  · rw [takeObjectId, getManager, runOn_bind_ok hr]
    refine keeps_of_books rfl rfl rfl rfl fun other hmem => .inr ?_
    rcases List.mem_or_eq_of_mem_set hmem with hmem | rfl
    · exact ⟨other, hmem, rfl⟩
    · exact ⟨manager, List.mem_of_getElem? hm, rfl⟩

theorem staysKept_createReplica (s : SessionId) (r : Ref) :
    Within (StaysKept log) (createReplica s r) := by
  refine (within_find _).bind fun session => ?_
  split
  · exact within_throw _
  · rename_i manager hm
    refine ((staysKept_perform s (.isOwner r) (fun he => by cases he)).bind
      fun _ => within_settle _).bind fun owned => ?_
    split
    · exact within_throw _
    · refine ((staysKept_perform s (.serialize session.current r) (fun he => by cases he)).bind
        fun _ => within_settle _).bind fun data => ?_
      refine staysKept_of_keeps (Within.bind (keeps_takeObjectId manager) fun id h => ?_)
      exact keeps_of_books rfl rfl rfl rfl (enlists_of_eq rfl)

/-- No session is opened. -/
def SameKeys (h h' : Host) : Prop := h'.machine.nextKey = h.machine.nextKey

instance : Frame SameKeys where
  refl _ := rfl
  trans he he' := he'.trans he

theorem sameKeys_materialize (s : SessionId) (n : ReplicaId) :
    Within SameKeys (Host.materialize s n) := by
  refine (within_find _).bind fun r => (within_requireLoaded r).bind fun _ =>
    (within_find _).bind fun _ => (within_find _).bind fun home =>
      (within_requireOwned r.manager home).bind fun _ => ?_
  exact ((within_find _).bind fun session h =>
    (Link.keeps_perform session.key _ session.link h).nextKey_eq).bind fun _ => within_settle _

theorem sameKeys_setCurrent (s : SessionId) (r : Ref) : Within SameKeys (setCurrent s r) :=
  (within_find _).bind fun _ _ => rfl

theorem sameKeys_closeSession (s : SessionId) : Within SameKeys (closeSession s) := by
  intro h
  rcases find_cases (fun h => h.sessions.get? s) h with ⟨-, hr⟩ | ⟨session, hs, -⟩
  · rw [closeSession, getSession, runOn_bind_error hr]
    exact Frame.refl h
  · exact (closeSession_keeps hs).nextKey_eq

/-- What comes of a session for a value, in which the value is materialized. -/
def attach (n : ReplicaId) (s : SessionId) : HostM SessionId := do
  onFailure (do setCurrent s (← materialize s n)) (closeSession s)
  pure s

theorem sameKeys_attach (n : ReplicaId) (s : SessionId) : Within SameKeys (Host.attach n s) :=
  (((sameKeys_materialize s n).bind fun r => sameKeys_setCurrent s r).onFailure
    (sameKeys_closeSession s)).bind fun _ => within_pure s

theorem Kept.attach (hk : h.Kept log) (n : ReplicaId) (hs : h.sessions.get? s = some session) :
    (∃ e h', runOn h (attach n s) = (.error e, h') ∧ h'.Kept log) ∨
      ∃ session' r h', runOn h (attach n s) = (.ok s, h') ∧
        h'.sessions.get? s = some session' ∧ session'.current = some r ∧
        h'.Kept (log ++ [(s, r)]) := by
  have hmat := hk.materialize s n
  have hbooks := sameBooks_materialize s n h
  unfold Host.attach
  rcases hr : runOn h (Host.materialize s n) with ⟨e | r, h₁⟩
  · -- The value could not be materialized, and the session is closed.
    rw [hr] at hmat
    have hk₁ : h₁.Kept log := by
      have hkept : h₁.Kept (log ++ []) := hmat
      rwa [List.append_nil] at hkept
    obtain ⟨e', he⟩ := onFailure_of_error (runOn_bind_error hr (setCurrent s)) (closeSession s)
    exact .inl ⟨e', _, runOn_bind_error he _, staysKept_closeSession s h₁ hk₁⟩
  · rw [hr] at hmat hbooks
    have hs₁ : h₁.sessions.get? s = some session := by
      rw [hbooks.sessions, hs]
    have hset : runOn h₁ (setCurrent s r) = (.ok (), { h₁ with
        sessions := h₁.sessions.insert s { session with current := some r } }) := by
      rw [setCurrent, runOn_bind_ok (getSession_ok hs₁)]
      rfl
    have hkept := staysKept_setCurrent s r h₁ hmat
    rw [hset] at hkept
    refine .inr ⟨{ session with current := some r }, r, _, ?_, ?_, rfl, hkept⟩
    · exact runOn_bind_ok (onFailure_of_ok ((runOn_bind_ok hr _).trans hset) _) _
    · rw [Table.get?_insert_self]

/-- Of the session for a value, the reference to the value goes on record. -/
theorem Kept.openReplica (hk : h.Kept log) (n : ReplicaId) (on : Option InstanceId) (t : Thread)
    (hfit : h.Fits (runOn h (Host.openReplica n on t)).2) :
    (∃ e h', runOn h (Host.openReplica n on t) = (.error e, h') ∧ h'.Kept log) ∨
      ∃ s session r h', runOn h (Host.openReplica n on t) = (.ok s, h') ∧
        h'.sessions.get? s = some session ∧ session.current = some r ∧
        h'.Kept (log ++ [(s, r)]) := by
  have heq : Host.openReplica n on t = (do
      let r ← getReplica n
      requireLoaded r
      openFor r.manager on t >>= Host.attach n) := openReplica_eq n on t
  rw [heq] at hfit ⊢
  cases hr : h.replicas.get? n with
  | none => exact .inl ⟨_, h, runOn_bind_error (getReplica_none hr) _, hk⟩
  | some r =>
    rw [runOn_bind_ok (getReplica_ok hr)] at hfit ⊢
    cases hu : r.unloaded with
    | true => exact .inl ⟨_, h, runOn_bind_error (requireLoaded_unloaded hu h) _, hk⟩
    | false =>
      rw [runOn_bind_ok (requireLoaded_ok hu h)] at hfit ⊢
      have hopened := opened_openFor (h := h) r.manager on t
      have hkept (hfit : h.Fits (runOn h (openFor r.manager on t)).2) := hk.opened hopened hfit
      cases hopened with
      | refused e h₁ hr₁ hkeep =>
        rw [runOn_bind_error hr₁] at hfit ⊢
        rw [hr₁] at hkept
        exact .inl ⟨e, h₁, rfl, hkept hfit⟩
      | kept session h₁ hr₁ hkeep hl hi =>
        rw [runOn_bind_ok hr₁] at hfit ⊢
        rw [hr₁] at hkept
        -- All keys that are given out are given out before the value is materialized.
        have hkeys : SameKeys (h₁.keep session) _ := sameKeys_attach n h₁.nextSession _
        rw [Fits, hkeys] at hfit
        rcases (hkept hfit).attach n (s := h₁.nextSession)
            (by rw [Host.keep, Table.get?_insert_self]) with
          hfail | ⟨session', r', h', hrun, hs', hcur, hk'⟩
        · exact .inl hfail
        · exact .inr ⟨h₁.nextSession, session', r', h', hrun, hs', hcur, hk'⟩

end Host

/-- What a deed puts on record: the references that sessions return. -/
def Deed.receipts (h : Host) : Deed → List (SessionId × Ref)
  | act (.perform s op) => Host.receipt s (runOn h (Host.perform s op)).1
  | act (.materialize s n) => Host.receiptRef s (runOn h (Host.materialize s n)).1
  | act (.openReplica n on t) =>
    match runOn h (Host.openReplica n on t) with
    | (.ok s, h') => (((h'.sessions.get? s).bind Session.current).map (s, ·)).toList
    | (.error _, _) => []
  | _ => []

/-- Whether a deed is said in full and comes through the interfaces: bytes reach an image around its
channel only where the host has no session. A manager has fewer than `2 ^ 64` instances. -/
def Deed.Proper (h : Host) : Deed → Prop
  | act (.elsewhere ..) => False
  | act (.buildManager spec) => spec.count < 2 ^ 64
  | dispatch c _ => ∀ s session, h.sessions.get? s = some session → session.link ≠ .channel c
  | _ => True

namespace Host

variable {n : Nat} {K : SessionKey → Prop} {log : List (SessionId × Ref)} {h h' : Host} {d : Deed}

theorem Kept.reach_lt (hk : h.Kept log) (n : ReplicaId) : h.reachOf n < 2 ^ 64 := by
  unfold reachOf
  cases hm : (h.replicas.get? n).bind fun r => h.managers[r.manager]? with
  | none => decide
  | some manager =>
    obtain ⟨r, -, hr⟩ := Option.bind_eq_some_iff.1 hm
    exact hk.crews manager (List.mem_of_getElem? hr)

/-- What a deed comes to, as far as the sessions are concerned that are open. -/
inductive Course (h : Host) : Deed → Prop
  /-- None of them is touched, and nothing is put on record. -/
  | idle {d : Deed} {n : Nat} {K : SessionKey → Prop} (hkeep : h.Keeps n K (h.doing d))
    (hn : n < 2 ^ 64) (hK : ∀ s session k, h.sessions.get? s = some session →
      h.interpAt session.link = some k → ¬ K session.key) (hr : d.receipts h = []) : Course h d
  | opened {d : Deed} {x : HostM SessionId} (hx : Opened x h) (he : h.doing d = (runOn h x).2)
    (hr : d.receipts h = []) : Course h d
  | openReplica {n : ReplicaId} {on : Option InstanceId} {t : Thread}
    (he : h.doing (.act (.openReplica n on t)) = (runOn h (Host.openReplica n on t)).2) :
    Course h (.act (.openReplica n on t))
  | closeSession {s : SessionId} : Course h (.act (.closeSession s))
  | perform {s : SessionId} {op : Op}
    (he : h.doing (.act (.perform s op)) = (runOn h (Host.perform s op)).2) :
    Course h (.act (.perform s op))
  | setCurrent {s : SessionId} {r : Ref} : Course h (.act (.setCurrent s r))
  | createReplica {s : SessionId} {r : Ref}
    (he : h.doing (.act (.createReplica s r)) = (runOn h (Host.createReplica s r)).2) :
    Course h (.act (.createReplica s r))
  | materialize {s : SessionId} {n : ReplicaId}
    (he : h.doing (.act (.materialize s n)) = (runOn h (Host.materialize s n)).2) :
    Course h (.act (.materialize s n))

/-- What every deed comes to. -/
theorem Kept.course (hk : h.Kept log) (hd : d.Proper h) : h.Course d := by
  have hidle {d : Deed} {n : Nat} {h' : Host} (he : h.doing d = h')
      (hkeep : h.Keeps n (fun _ => False) h') (hn : n < 2 ^ 64) (hr : d.receipts h = []) :
      h.Course d := by
    subst he
    exact .idle hkeep hn (fun _ _ _ _ _ => id) hr
  have hbooks {h' : Host} (hm : h'.machine = h.machine) (hc : h'.channels = h.channels)
      (hs : h'.sessions = h.sessions) (hns : h'.nextSession = h.nextSession)
      (hms : h'.managers = h.managers) : h.Keeps 0 (fun _ => False) h' :=
    keeps_of_books hm hc hs hns (enlists_of_eq hms)
  cases d with
  | act action =>
    cases action with
    | addLoader | addSource | addEnvironment =>
      exact hidle (runOn_lost h _) (hbooks rfl rfl rfl rfl rfl) (by decide) rfl
    | buildManager spec => exact hidle (runOn_lost h _) (keeps_buildManager hd h) hd rfl
    | loadInstance number spec env =>
      exact hidle (runOn_lost h _) (keeps_loadInstance number spec env h) (by decide) rfl
    | register m name source =>
      refine hidle (n := 0) rfl ((Within.bind (within_find _) fun _ => ?_) h) (by decide) rfl
      exact ((within_find _).bind fun _ => within_find _).bind fun _ _ =>
        keeps_of_books rfl rfl rfl rfl (enlists_of_eq rfl)
    | openBalanced m t => exact .opened (opened_openBalanced m t) (runOn_lost h _) rfl
    | openPinned m n => exact .opened (opened_openPinned m n) (runOn_lost h _) rfl
    | openAlone n => exact .opened (opened_openAlone n) (runOn_lost h _) rfl
    | openReplica n on t => exact .openReplica (runOn_lost h _)
    | closeSession s => exact .closeSession
    | perform s op => exact .perform (runOn_lost h _)
    | setCurrent s r => exact .setCurrent
    | createReplica s r => exact .createReplica (runOn_lost h _)
    | materialize s n => exact .materialize (runOn_lost h _)
    | unload n on =>
      cases on with
      | some home =>
        refine hidle rfl ((Keeps.bind (within_find _) (fun r => ?_) (Nat.le_refl (0 + 1))) h)
          (by decide) rfl
        exact keeps_unloadFrom r home
      | none => exact hidle rfl (keeps_unloadAll n h) (hk.reach_lt n) rfl
    | cloneReplica n =>
      refine hidle (n := 0) (runOn_lost h _) ((Within.bind (within_find _) fun r => ?_) h) (by decide) rfl
      exact fun _ => keeps_of_books rfl rfl rfl rfl (enlists_of_eq rfl)
    | dropReplica n => exact hidle rfl (keeps_dropReplica n h) (hk.reach_lt n) rfl
    | shutdown m =>
      exact hidle rfl ((Within.bind (within_find _) fun _ => keeps_closeInstances _) h)
        (by decide) rfl
    | dropManager m =>
      exact hidle rfl ((Within.bind (within_find _) fun _ => keeps_dropInstances _) h)
        (by decide) rfl
    | closeInstance n => exact hidle rfl (keeps_closeInstance n h) (by decide) rfl
    | dropInstance n => exact hidle rfl (keeps_closeInstance n h) (by decide) rfl
    | elsewhere m cs => exact hd.elim
  | addInterp =>
    refine hidle (runOn_lost h _) (keeps_of_machine (Nat.le_refl 0) rfl rfl (enlists_of_eq rfl) rfl
      (UInt64.add_zero _).symm fun key _ _ => ?_) (by decide) rfl
    exact Machine.retains_create [] false none
  | exportInterp n =>
    refine hidle (n := 0) (runOn_lost h _) (keeps_addChannel (fun e he => ?_) h) (by decide) rfl
    cases he
    rfl
  | addScript script =>
    exact hidle (n := 0) (runOn_lost h _) (keeps_addChannel (fun e he => by cases he) h) (by decide) rfl
  | openBare link => exact .opened (opened_openBare link) (runOn_lost h _) rfl
  | setResolver link r => exact hidle rfl (link.keeps_setResolver r h) (by decide) rfl
  | finalize link => exact hidle rfl (link.keeps_finalize h) (by decide) rfl
  | dispatch c bytes =>
    -- The endpoint may touch what it serves, which is no session of the host.
    have hkeep : h.Keeps 1 (fun key => ∃ (live : Bool) (e : Endpoint),
        h.channels[c]? = some ⟨live, .exported e⟩ ∧ key ∈ e.served)
        (runOn h (Host.dispatch c bytes)).2 := by
      refine keeps_onChannel fun live e hc => ?_
      obtain ⟨opened, ho, hm⟩ := Channel.minds_dispatch h.texts bytes live h.machine e
      exact ⟨opened, ho, hm.mono fun key hs => ⟨live, e, hc, hs⟩⟩
    have he : h.doing (.dispatch c bytes) = (runOn h (Host.dispatch c bytes)).2 := runOn_lost h _
    rw [← he] at hkeep
    refine .idle hkeep (by decide) ?_ rfl
    rintro s session k hs hat ⟨live, e, hc, hserved⟩
    obtain ⟨slots, hi, -⟩ := hk.issued s session k hs hat
    exact hd s session hs (hi.alone c live e hc hserved)
  | finalizeImage c =>
    refine hidle (n := 0) (runOn_lost h _) (keeps_onChannel fun live e _ => ?_) (by decide) rfl
    exact ⟨0, Nat.le_refl 0, Channel.minds_finalizeImage live h.machine e⟩
  | installAnswers n answers =>
    exact hidle rfl (keeps_of_machine (Nat.le_refl 0) rfl rfl (enlists_of_eq rfl) rfl
      ((Machine.setResolver_nextKey _).trans (UInt64.add_zero _).symm) fun key _ _ =>
        Machine.retains_setResolver _) (by decide) rfl

/-- What every deed does to the record. -/
theorem Kept.doing (hk : h.Kept log) (hd : d.Proper h) (hfit : h.Fits (h.doing d)) :
    (h.doing d).Kept (log ++ d.receipts h) := by
  have hquiet (hkept : (h.doing d).Kept log) (hr : d.receipts h = []) :
      (h.doing d).Kept (log ++ d.receipts h) := by
    rwa [hr, List.append_nil]
  cases hk.course hd with
  | idle hkeep hn hK hr => exact hquiet (hk.of_keeps_unused hkeep hn hfit hK) hr
  | opened hx he hr => exact hquiet (he ▸ hk.opened hx (he ▸ hfit)) hr
  | @openReplica n on t he =>
    rw [he] at hfit ⊢
    rcases hk.openReplica n on t hfit with
      ⟨e, h', hr, hk'⟩ | ⟨s, session, r, h', hr, hs, hcur, hk'⟩
    · simp only [Deed.receipts, hr, List.append_nil]
      exact hk'
    · simp only [Deed.receipts, hr, hs, Option.bind_some, hcur, Option.map_some,
        Option.toList_some]
      exact hk'
  | @closeSession s => exact hquiet (staysKept_closeSession s h hk) rfl
  | @perform s op he => exact he ▸ hk.perform s op
  | @setCurrent s r => exact hquiet (staysKept_setCurrent s r h hk) rfl
  | @createReplica s r he => exact hquiet (he ▸ staysKept_createReplica s r h hk) rfl
  | @materialize s n he => exact he ▸ hk.materialize s n

/-- The references that sessions return in the course of some deeds, in order. -/
def returned (h : Host) : List Deed → List (SessionId × Ref)
  | [] => []
  | d :: deeds => d.receipts h ++ (h.doing d).returned deeds

/-- How many sessions are opened in the course of some deeds. -/
def opened (h : Host) : List Deed → Nat
  | [] => 0
  | d :: deeds =>
    ((h.doing d).machine.nextKey - h.machine.nextKey).toNat + (h.doing d).opened deeds

/-- Every deed is proper where its turn comes. -/
def AllProper (h : Host) : List Deed → Prop
  | [] => True
  | d :: deeds => d.Proper h ∧ (h.doing d).AllProper deeds

theorem kept_empty : Kept [] {} where
  numbered c live e hc := by cases hc
  crews manager hm := by cases hm
  fresh s _ := ⟨rfl, rfl⟩
  known s session hs := by cases hs
  issued s session k hs := by cases hs
  apart s s' session session' k k' hs := by cases hs

/-- The sessions are in order after every run in which the keys suffice. -/
theorem Kept.afterDeeds {deeds : List Deed} (hk : h.Kept log) (hd : h.AllProper deeds)
    (hn : h.machine.given + h.opened deeds < 2 ^ 64) :
    (h.afterDeeds deeds).Kept (log ++ h.returned deeds) := by
  induction deeds generalizing h log with
  | nil => exact (List.append_nil log).symm ▸ hk
  | cons d deeds ih =>
    rw [Host.opened, ← Nat.add_assoc] at hn
    have hfit : h.Fits (h.doing d) := Nat.lt_of_le_of_lt (Nat.le_add_right _ _) hn
    have hk' := ih (hk.doing hd.1 hfit) hd.2 (given_of_fits hfit ▸ hn)
    rwa [List.append_assoc] at hk'

theorem allProper_append {deeds later : List Deed} :
    h.AllProper (deeds ++ later) ↔ h.AllProper deeds ∧ (h.afterDeeds deeds).AllProper later := by
  induction deeds generalizing h with
  | nil => exact ⟨fun hl => ⟨trivial, hl⟩, And.right⟩
  | cons d deeds ih =>
    rw [List.cons_append, AllProper, ih, AllProper, and_assoc]
    rfl

theorem afterDeeds_append (h : Host) (deeds later : List Deed) :
    h.afterDeeds (deeds ++ later) = (h.afterDeeds deeds).afterDeeds later := List.foldl_append

theorem opened_append (h : Host) (deeds later : List Deed) :
    h.opened (deeds ++ later) = h.opened deeds + (h.afterDeeds deeds).opened later := by
  induction deeds generalizing h with
  | nil => exact (Nat.zero_add _).symm
  | cons d deeds ih =>
    rw [List.cons_append, Host.opened, ih, Host.opened, Nat.add_assoc]
    rfl

theorem returned_append (h : Host) (deeds later : List Deed) :
    h.returned (deeds ++ later) = h.returned deeds ++ (h.afterDeeds deeds).returned later := by
  induction deeds generalizing h with
  | nil => rfl
  | cons d deeds ih =>
    rw [List.cons_append, returned, ih, returned, List.append_assoc]
    rfl

/-- All sessions that are opened are given a key each. -/
theorem given_afterDeeds {deeds : List Deed} (hn : h.machine.given + h.opened deeds < 2 ^ 64) :
    (h.afterDeeds deeds).machine.given = h.machine.given + h.opened deeds := by
  induction deeds generalizing h with
  | nil => rfl
  | cons d deeds ih =>
    rw [Host.opened, ← Nat.add_assoc] at hn ⊢
    have hfit : h.Fits (h.doing d) := Nat.lt_of_le_of_lt (Nat.le_add_right _ _) hn
    rw [← given_of_fits hfit] at hn ⊢
    exact ih hn

end Host

end InstancePool
