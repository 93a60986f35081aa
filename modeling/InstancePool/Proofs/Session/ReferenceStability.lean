import InstancePool.Proofs.Session.ReturnedReferences

/-!
The references of a session stand. As long as the session is open they resolve to the objects that they
were handed out for, whatever is done to the host, and no object is taken away.
-/

namespace InstancePool

open HostM

namespace Machine

variable {S : Nat → Prop} {m m' : Machine}

/-- No step takes an object away. -/
theorem Step.extends (hs : Step S m m') : m.heap.Extends m'.heap := by
  -- Where no interpreter is to be spared, what is left is the heap.
  have hspares : m.Spares (fun _ => False) m' := by
    cases hs with
    | create => exact spares_create _ _ _ m
    | openSession => exact spares_openSession _ m
    | perform => exact spares_perform (fun _ => id) _ _ m
    | closeSession => exact spares_closeSession _ _ m
    | setResolver => exact spares_setResolver _ _ m
    | finalize => exact spares_finalize id m
    | record => exact spares_record _ m
  exact hspares.heap

theorem Steps.extends (hs : Steps S m m') : m.heap.Extends m'.heap := by
  induction hs with
  | refl => exact .refl _
  | tail _ hstep ih => exact ih.trans hstep.extends

end Machine

/-- What a session has handed out at some time. -/
structure Tenure where
  session : SessionId
  link : Link
  key : SessionKey
  slots : List ObjectIndex

namespace Host

/-- If the session is open, then it is where it was and goes on after the slots that it had. -/
structure Honours (h : Host) (t : Tenure) : Prop where
  old : t.session < h.nextSession
  goesOn : ∀ session, h.sessions.get? t.session = some session →
    session.link = t.link ∧ session.key = t.key ∧ ∀ k, h.interpAt t.link = some k →
      ∃ more, h.Issued t.link t.key (t.slots ++ more)

/-- The sessions of a host are in order, and one of them goes on after the slots that it had. -/
def Steady (t : Tenure) (h : Host) : Prop := (∃ log, h.Kept log) ∧ h.Honours t

abbrev StaysSteady (t : Tenure) (h h' : Host) : Prop := h.Steady t → h'.Steady t

variable {α : Type} {n : Nat} {K : SessionKey → Prop} {log : List (SessionId × Ref)} {h h' : Host}
  {t : Tenure} {d : Deed}

theorem Honours.of_sessions (ht : h.Honours t) (hnext : h.nextSession ≤ h'.nextSession)
    (hs : ∀ session, h'.sessions.get? t.session = some session → ∃ old,
      h.sessions.get? t.session = some old ∧ session.link = old.link ∧ session.key = old.key)
    (hi : ∀ session k more, h.sessions.get? t.session = some session → session.link = t.link →
      session.key = t.key → h'.interpAt t.link = some k →
      h.interpAt t.link = some k ∧ (h.Issued t.link t.key (t.slots ++ more) →
        ∃ more', h'.Issued t.link t.key (t.slots ++ more'))) : h'.Honours t := by
  refine ⟨Nat.lt_of_lt_of_le ht.old hnext, fun session hs' => ?_⟩
  obtain ⟨old, hold, hl, hkey⟩ := hs session hs'
  obtain ⟨hl', hkey', hissued⟩ := ht.goesOn old hold
  refine ⟨hl.trans hl', hkey.trans hkey', fun k hat => ?_⟩
  obtain ⟨more, hmore⟩ := hissued k (hi old k [] hold hl' hkey' hat).1
  exact (hi old k more hold hl' hkey' hat).2 hmore

/-- The session was not touched. -/
theorem Honours.of_carries (ht : h.Honours t) (hk : h.Kept log) (hkeep : h.Keeps n K h')
    (hc : h.Carries K h') (hK : ∀ session k, h.sessions.get? t.session = some session →
      h.interpAt session.link = some k → ¬ K session.key) : h'.Honours t := by
  refine ht.of_sessions (Nat.le_of_eq hkeep.nextSession.symm)
    (fun session hs => ⟨session, hkeep.sessions ▸ hs, rfl, rfl⟩)
    fun session k more hs hl hkey hat => ?_
  have hat' : h.interpAt t.link = some k := by
    rw [← (hkeep.leads _ (hl ▸ hk.known _ session hs)).2, hat]
  exact ⟨hat', fun hi => ⟨more, hc.issued _ _ _ (hkey ▸ hK session k hs (hl ▸ hat')) hi⟩⟩

/-- The book of sessions changed, and nothing in it that matters to the session. -/
theorem Honours.with_sessions (ht : h.Honours t) {sessions : Table SessionId Session} {next : SessionId}
    (hnext : h.nextSession ≤ next)
    (hs : ∀ session, sessions.get? t.session = some session → ∃ old,
      h.sessions.get? t.session = some old ∧ session.link = old.link ∧ session.key = old.key) :
    Honours { h with sessions, nextSession := next } t :=
  ht.of_sessions hnext hs fun _ _ more _ _ _ hat => ⟨hat, fun hi => ⟨more, hi.of_same rfl rfl⟩⟩

theorem Steady.of_keeps (hst : h.Steady t) (hkeep : h.Keeps n K h') (hn : n < 2 ^ 64) (hfit : h.Fits h')
    (hK : ∀ s session k, h.sessions.get? s = some session → h.interpAt session.link = some k →
      ¬ K session.key) : h'.Steady t := by
  obtain ⟨⟨log, hk⟩, ht⟩ := hst
  exact ⟨⟨log, hk.of_keeps_unused hkeep hn hfit hK⟩,
    ht.of_carries hk hkeep (hkeep.carries hn hfit) (hK t.session)⟩

theorem staysSteady_of_keeps {x : HostM α} (hx : Within (Keeps 0 fun _ => False) x) :
    Within (StaysSteady t) x :=
  fun h hst => hst.of_keeps (hx h) (by decide) (fits_of_nextKey_eq (hx h).nextKey_eq) fun _ _ _ _ _ => id

/-- An operation leaves the slots that there are, in whatever session. -/
theorem staysSteady_perform (s : SessionId) (op : Op) :
    Within (StaysSteady t) (Host.perform s op) := by
  rintro h ⟨⟨log, hk⟩, ht⟩
  refine ⟨⟨_, hk.perform s op⟩, ?_⟩
  rcases find_cases (fun h => h.sessions.get? s) h with ⟨-, hr⟩ | ⟨session, hs, -⟩
  · rw [Host.perform, getSession, runOn_bind_error hr]
    exact ht
  · rw [runOn_perform hs]
    have hkeep := Link.keeps_perform session.key op session.link h
    by_cases he : t.session = s
    · subst he
      refine ht.of_sessions (Nat.le_of_eq hkeep.nextSession.symm)
        (fun other hs' => ⟨other, hkeep.sessions ▸ hs', rfl, rfl⟩)
        fun other k more hs' hl hkey hat => ?_
      obtain rfl := Option.some.inj (hs.symm.trans hs')
      rw [← hl] at hat ⊢
      rw [← hkey]
      refine ⟨((hkeep.leads _ (hk.known _ session hs)).2).symm.trans hat, fun hi => ?_⟩
      rcases Link.perform_issues op hi with ⟨-, hi'⟩ | ⟨-, n, hi'⟩
      · exact ⟨more, hi'⟩
      · exact ⟨more ++ [n], List.append_assoc .. ▸ hi'⟩
    · refine ht.of_carries hk hkeep (hkeep.carries (by decide) (fits_of_nextKey_eq hkeep.nextKey_eq)) ?_
      rintro other k hs' hat ⟨hkey, k', hat'⟩
      exact he (hk.apart _ _ other session k k' hs' hs hat hat' hkey)

theorem staysSteady_setCurrent (s : SessionId) (r : Ref) :
    Within (StaysSteady t) (setCurrent s r) := by
  rintro h ⟨⟨log, hk⟩, ht⟩
  refine ⟨⟨log, staysKept_setCurrent s r h hk⟩, ?_⟩
  rcases find_cases (fun h => h.sessions.get? s) h with ⟨-, hr⟩ | ⟨session, hs, -⟩
  · rw [setCurrent, getSession, runOn_bind_error hr]
    exact ht
  · rw [setCurrent, runOn_bind_ok (getSession_ok hs)]
    refine ht.with_sessions (Nat.le_refl _) fun other hs' => ?_
    rcases Table.get?_insert_eq_some.1 hs' with ⟨rfl, rfl⟩ | ⟨-, hs'⟩
    · exact ⟨session, hs, rfl, rfl⟩
    · exact ⟨other, hs', rfl, rfl⟩

theorem staysSteady_closeSession (s : SessionId) : Within (StaysSteady t) (closeSession s) := by
  rintro h ⟨⟨log, hk⟩, ht⟩
  refine ⟨⟨log, staysKept_closeSession s h hk⟩, ?_⟩
  rcases find_cases (fun h => h.sessions.get? s) h with ⟨-, hr⟩ | ⟨session, hs, -⟩
  · rw [closeSession, getSession, runOn_bind_error hr]
    exact ht
  · have ht₀ : Honours { h with sessions := h.sessions.erase s } t :=
      ht.with_sessions (Nat.le_refl _) fun other hs' => ⟨other, (Table.get?_erase_eq_some.1 hs').2, rfl, rfl⟩
    have hkeep := closeSession_keeps hs
    refine ht₀.of_carries (hk.erase s) hkeep (hkeep.carries (by decide) (fits_of_nextKey_eq hkeep.nextKey_eq)) ?_
    rintro other k hs' hat ⟨hkey, k', hat'⟩
    obtain ⟨hne, hs'⟩ := Table.get?_erase_eq_some.1 hs'
    exact hne (hk.apart _ _ other session k k' hs' hs hat hat' hkey)

theorem Steady.opened {x : HostM SessionId} (hst : h.Steady t) (hx : Opened x h)
    (hfit : h.Fits (runOn h x).2) : (runOn h x).2.Steady t := by
  obtain ⟨⟨log, hk⟩, ht⟩ := hst
  refine ⟨⟨log, hk.opened hx hfit⟩, ?_⟩
  cases hx with
  | refused e h' hr hkeep =>
    rw [hr] at hfit ⊢
    exact ht.of_carries hk hkeep (hkeep.carries (by decide) hfit) fun _ _ _ _ => id
  | kept session h' hr hkeep hl hi =>
    rw [hr] at hfit ⊢
    have ht' : h'.Honours t :=
      ht.of_carries hk hkeep (hkeep.carries (by decide) hfit) fun _ _ _ _ => id
    -- A new session has a number that no session has had.
    refine ht'.with_sessions (Nat.le_succ _) fun other hs => ?_
    rw [Table.get?_insert_of_ne (Nat.ne_of_lt ht'.old)] at hs
    exact ⟨other, hs, rfl, rfl⟩

theorem staysSteady_createReplica (s : SessionId) (r : Ref) :
    Within (StaysSteady t) (createReplica s r) := by
  refine (within_find _).bind fun session => ?_
  split
  · exact within_throw _
  · rename_i manager hm
    refine ((staysSteady_perform s (.isOwner r)).bind fun _ => within_settle _).bind fun owned => ?_
    split
    · exact within_throw _
    · refine ((staysSteady_perform s (.serialize session.current r)).bind
        fun _ => within_settle _).bind fun data => ?_
      refine staysSteady_of_keeps (Within.bind (keeps_takeObjectId manager) fun id h => ?_)
      exact keeps_of_books rfl rfl rfl rfl (enlists_of_eq rfl)

theorem staysSteady_materialize (s : SessionId) (n : ReplicaId) :
    Within (StaysSteady t) (Host.materialize s n) :=
  (within_find _).bind fun r => (within_requireLoaded r).bind fun _ => (within_find _).bind fun _ =>
    (within_find _).bind fun home => (within_requireOwned r.manager home).bind fun _ =>
      (staysSteady_perform s _).bind fun _ => within_settle _

theorem staysSteady_attach (n : ReplicaId) (s : SessionId) :
    Within (StaysSteady t) (Host.attach n s) :=
  (((staysSteady_materialize s n).bind fun r => staysSteady_setCurrent s r).onFailure
    (staysSteady_closeSession s)).bind fun _ => within_pure s

theorem Steady.openReplica (hst : h.Steady t) (n : ReplicaId) (on : Option InstanceId) (th : Thread)
    (hfit : h.Fits (runOn h (Host.openReplica n on th)).2) :
    (runOn h (Host.openReplica n on th)).2.Steady t := by
  have heq : Host.openReplica n on th = (do
      let r ← getReplica n
      requireLoaded r
      openFor r.manager on th >>= Host.attach n) := openReplica_eq n on th
  rw [heq] at hfit ⊢
  cases hr : h.replicas.get? n with
  | none =>
    rw [runOn_bind_error (getReplica_none hr)]
    exact hst
  | some r =>
    rw [runOn_bind_ok (getReplica_ok hr)] at hfit ⊢
    cases hu : r.unloaded with
    | true =>
      rw [runOn_bind_error (requireLoaded_unloaded hu h)]
      exact hst
    | false =>
      rw [runOn_bind_ok (requireLoaded_ok hu h)] at hfit ⊢
      have hopened := hst.opened (opened_openFor r.manager on th)
      rw [runOn_bind] at hfit ⊢
      rcases hr₁ : runOn h (openFor r.manager on th) with ⟨e | s, h₁⟩
      · rw [hr₁] at hfit hopened
        exact hopened hfit
      · rw [hr₁] at hfit hopened
        -- All keys that are given out are given out before the value is materialized.
        have hkeys : SameKeys h₁ (runOn h₁ (Host.attach n s)).2 := sameKeys_attach n s h₁
        rw [Fits, hkeys] at hfit
        exact staysSteady_attach n s h₁ (hopened hfit)

theorem Steady.doing (hst : h.Steady t) (hd : d.Proper h) (hfit : h.Fits (h.doing d)) :
    (h.doing d).Steady t := by
  obtain ⟨log, hk⟩ := hst.1
  cases hk.course hd with
  | idle hkeep hn hK => exact hst.of_keeps hkeep hn hfit hK
  | opened hx he => exact he ▸ hst.opened hx (he ▸ hfit)
  | @openReplica n on th he => exact he ▸ hst.openReplica n on th (he ▸ hfit)
  | @closeSession s => exact staysSteady_closeSession s h hst
  | @perform s op he => exact he ▸ staysSteady_perform s op h hst
  | @setCurrent s r => exact staysSteady_setCurrent s r h hst
  | @createReplica s r he => exact he ▸ staysSteady_createReplica s r h hst
  | @materialize s n he => exact he ▸ staysSteady_materialize s n h hst

theorem Steady.afterDeeds {deeds : List Deed} (hst : h.Steady t) (hd : h.AllProper deeds)
    (hn : h.machine.given + h.opened deeds < 2 ^ 64) : (h.afterDeeds deeds).Steady t := by
  induction deeds generalizing h with
  | nil => exact hst
  | cons d deeds ih =>
    rw [Host.opened, ← Nat.add_assoc] at hn
    have hfit : h.Fits (h.doing d) := Nat.lt_of_le_of_lt (Nat.le_add_right _ _) hn
    exact ih (hst.doing hd.1 hfit) hd.2 (given_of_fits hfit ▸ hn)

theorem told_of_proper (hd : d.Proper h) : d.Told := by
  cases d with
  | act action =>
    cases action with
    | elsewhere m cs => exact hd.elim
    | _ => trivial
  | _ => trivial

theorem AllProper.told {deeds : List Deed} (hd : h.AllProper deeds) : ∀ d ∈ deeds, d.Told := by
  induction deeds generalizing h with
  | nil => exact nofun
  | cons d deeds ih =>
    intro d' hmem
    rcases List.mem_cons.1 hmem with rfl | hmem
    · exact told_of_proper hd.1
    · exact ih hd.2 d' hmem

/-- No object is ever taken away. -/
theorem extends_afterDeeds {deeds : List Deed} (hd : h.AllProper deeds) :
    h.machine.heap.Extends (h.afterDeeds deeds).machine.heap := by
  induction deeds generalizing h with
  | nil => exact .refl _
  | cons d deeds ih =>
    exact (works_deed (told_of_proper hd.1)).machine.extends.trans (ih hd.2)

/-- A session is open on an interpreter, and if there is a channel between them then it is open, too. -/
def Lives (h : Host) (s : SessionId) : Prop :=
  ∃ session k, h.sessions.get? s = some session ∧ h.interpAt session.link = some k ∧
    ¬ h.Cut session.link

/-- A session is open on an interpreter, which serves it and has the given slots for it. -/
structure Seated (h : Host) (s : SessionId) (session : Session) (k : Nat) (i : Interp)
    (slots : List ObjectIndex) : Prop where
  known : h.sessions.get? s = some session
  leads : h.interpAt session.link = some k
  interp : h.machine.interps[k]? = some i
  holds : i.sessions.get? session.key = some slots
  served : h.Served session.link session.key

variable {s : SessionId} {session : Session} {k : Nat} {i : Interp} {slots : List ObjectIndex}

theorem seated_of_slotsAt (hs : h.sessions.get? s = some session)
    (hserved : h.Served session.link session.key)
    (hslots : h.slotsAt session.link session.key = some slots) :
    ∃ k i, h.Seated s session k i slots := by
  obtain ⟨k, i, hat, hi, hkey⟩ := slotsAt_eq_some.1 hslots
  exact ⟨k, i, hs, hat, hi, hkey, hserved⟩

/-- A session has a slot for each reference that it returned. -/
theorem Kept.seated (hk : h.Kept log) (hlives : h.Lives s) : ∃ session k i slots,
    h.Seated s session k i slots ∧ refsOf log s = session.key.refs slots.length := by
  obtain ⟨session, k, hs, hat, hlive⟩ := hlives
  obtain ⟨slots, hi, hrefs⟩ := hk.issued s session k hs hat
  obtain ⟨hserved, hslots⟩ := hi.slots.resolve_left hlive
  obtain ⟨k', i, hseat⟩ := seated_of_slotsAt hs hserved hslots
  exact ⟨session, k', i, slots, hseat, hrefs⟩

theorem Seated.lives (hseat : h.Seated s session k i slots) : h.Lives s := by
  refine ⟨session, k, hseat.known, hseat.leads, ?_⟩
  rintro ⟨c, e, hc, hcut⟩
  obtain ⟨e', he', -⟩ := hseat.served c hc
  rw [hcut] at he'
  cases he'

/-- The references that a session returned are those to its slots. -/
theorem Kept.refsOf_eq (hk : h.Kept log) (hseat : h.Seated s session k i slots) :
    refsOf log s = session.key.refs slots.length := by
  obtain ⟨session', k', i', slots', hseat', hrefs⟩ := hk.seated hseat.lives
  obtain rfl := Option.some.inj (hseat.known.symm.trans hseat'.known)
  obtain rfl := Option.some.inj (hseat.leads.symm.trans hseat'.leads)
  obtain rfl := Option.some.inj (hseat.interp.symm.trans hseat'.interp)
  obtain rfl := Option.some.inj (hseat.holds.symm.trans hseat'.holds)
  exact hrefs

/-- A session that is alive after some deeds was alive before, unless it is new. It is where it was, and
all that it has handed out since comes after what it had handed out. -/
theorem Kept.seated_after {deeds : List Deed} (hk : h.Kept log) (hd : h.AllProper deeds)
    (hn : h.machine.given + h.opened deeds < 2 ^ 64) (hold : s < h.nextSession)
    (hlives : (h.afterDeeds deeds).Lives s) :
    ∃ session k i slots session' k' i' more, h.Seated s session k i slots ∧
      refsOf log s = session.key.refs slots.length ∧
      (h.afterDeeds deeds).Seated s session' k' i' (slots ++ more) ∧
      session'.link = session.link ∧ session'.key = session.key := by
  obtain ⟨session', k', hs', hat', hlive⟩ := hlives
  -- What can be said of the slots of the session before can be said of those after.
  have hlater (link : Link) (key : SessionKey) (slots : List ObjectIndex)
      (ht : h.Honours ⟨s, link, key, slots⟩) : session'.link = link ∧ session'.key = key ∧
        ∃ k' i' more, (h.afterDeeds deeds).Seated s session' k' i' (slots ++ more) := by
    have hsteady : h.Steady ⟨s, link, key, slots⟩ := ⟨⟨log, hk⟩, ht⟩
    obtain ⟨rfl, rfl, hissued⟩ := (hsteady.afterDeeds hd hn).2.goesOn session' hs'
    obtain ⟨more, hi⟩ := hissued k' hat'
    obtain ⟨hserved, hslots⟩ := hi.slots.resolve_left hlive
    obtain ⟨k', i', hseat⟩ := seated_of_slotsAt hs' hserved hslots
    exact ⟨rfl, rfl, k', i', more, hseat⟩
  -- So it cannot be that anything at all can be said.
  have hsome (link : Link) (key : SessionKey) : ¬ ∀ slots, h.Honours ⟨s, link, key, slots⟩ := by
    intro hall
    obtain ⟨-, -, k₀, i₀, more₀, hzero⟩ := hlater link key [0] (hall [0])
    obtain ⟨-, -, k₁, i₁, more₁, hone⟩ := hlater link key [1] (hall [1])
    obtain rfl := Option.some.inj (hzero.leads.symm.trans hone.leads)
    obtain rfl := Option.some.inj (hzero.interp.symm.trans hone.interp)
    cases Option.some.inj (hzero.holds.symm.trans hone.holds)
  cases hs : h.sessions.get? s with
  | none =>
    refine absurd (fun slots => ⟨hold, fun session hopen => ?_⟩) (hsome (.direct 0) ⟨0⟩)
    rw [hs] at hopen
    cases hopen
  | some session =>
    have hhonours (slots : List ObjectIndex) (hi : ∀ k, h.interpAt session.link = some k →
        h.Issued session.link session.key slots) : h.Honours ⟨s, session.link, session.key, slots⟩ := by
      refine ⟨hold, fun other hopen => ?_⟩
      obtain rfl := Option.some.inj (hs.symm.trans hopen)
      exact ⟨rfl, rfl, fun k hat => ⟨[], (List.append_nil slots).symm ▸ hi k hat⟩⟩
    cases hat : h.interpAt session.link with
    | none =>
      refine absurd (fun slots => hhonours slots fun k hat' => ?_) (hsome session.link session.key)
      rw [hat] at hat'
      cases hat'
    | some k =>
      obtain ⟨slots, hi, hrefs⟩ := hk.issued s session k hs hat
      rcases hi.slots with hcut | ⟨hserved, hslots⟩
      · exact absurd (fun slots => hhonours slots fun _ _ => ⟨hi.old, hi.leads, hi.alone, .inl hcut⟩)
          (hsome session.link session.key)
      · obtain ⟨k, i, hseat⟩ := seated_of_slotsAt hs hserved hslots
        obtain ⟨hlink, hkey, k', i', more, hseat'⟩ := hlater _ _ slots (hhonours slots fun _ _ => hi)
        exact ⟨session, k, i, slots, session', k', i', more, hseat, hrefs, hseat', hlink, hkey⟩

end Host

end InstancePool
