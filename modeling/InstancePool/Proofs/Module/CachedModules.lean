import InstancePool.Proofs.Session.OpenCount
import InstancePool.Proofs.Module.Registration
import InstancePool.Proofs.Module.MemberObjects
import InstancePool.Proofs.Channel.Equivalence

/-!
What usual actions do to the modules of an interpreter. It keeps those that it has, and gets another one only
where a session asks for it and there is a text that can be read.
-/

namespace InstancePool

open HostM ModuleText

/-- An action of every day. If a session asks for a module in it, the names can be written. -/
structure Action.Usual (a : Action) : Prop where
  everyday : a.Everyday
  sized : ∀ s name x, a = .perform s (.global name x) → (Op.global name x).Sized

theorem Action.Usual.of_not_perform {a : Action} (ha : a.Everyday) (hs : ∀ s op, a ≠ .perform s op) : a.Usual :=
  ⟨ha, fun s _ _ he => absurd he (hs s _)⟩

namespace Op

theorem seeks_of_opIndex {o o' : Op} (h : Wire.opIndex o' = Wire.opIndex o) : o'.seeks = o.seeks := by
  cases o <;> cases o' <;> first | rfl | cases h

end Op

namespace Engine

variable {source : TextSource} {key : SessionKey} {op : Op} {e : Engine} {name x : String}

theorem perform_resolver (source : TextSource) (key : SessionKey) (op : Op) (e : Engine) :
    (Engine.perform source key op e).2.interp.resolver = e.interp.resolver := by
  obtain ⟨_, _, _, _, he⟩ := perform_interp source key op e
  rw [he]

theorem perform_modules (ho : op.seeks = false) :
    (Engine.perform source key op e).2.interp.modules = e.interp.modules := by
  have hp := perform_performed source key op e
  generalize Engine.perform source key op e = x at hp
  cases hp with
  | unknown | failed => rfl
  | missed | found => cases ho
  | done hk hd => cases hd <;> rfl

/-- Where a module is sought, it is added if it was not there and has a text that can be read. Nothing else
is. -/
theorem findModule_modules (source : TextSource) (name : String) (e : Engine) :
    (e.findModule source name).2.interp.modules = e.interp.modules ∨
      e.interp.modules.get? name = none ∧
        (∃ text, source e.interp.resolver name = some text ∧ Parses text) ∧
        ∃ b, (e.findModule source name).2.interp.modules = e.interp.modules.insert name b := by
  have hsought := findModule_sought source name e
  generalize e.findModule source name = found at hsought
  cases hsought with
  | cached | missing => exact .inl rfl
  | made hnew htext hread => exact .inr ⟨hnew, ⟨_, htext, parses_iff.2 hread⟩, _, rfl⟩

theorem perform_global_modules (source : TextSource) (key : SessionKey) (name x : String) (e : Engine) :
    (Engine.perform source key (.global name x) e).2.interp.modules = e.interp.modules ∨
      (Engine.perform source key (.global name x) e).2.interp.modules =
        (e.findModule source name).2.interp.modules := by
  have hp := perform_performed source key (.global name x) e
  generalize Engine.perform source key (.global name x) e = y at hp
  cases hp with
  | unknown | failed => exact .inl rfl
  | missed | found => exact .inr rfl
  | done hk hd =>
    cases hd with
    | seen => exact .inl rfl
    | handed => exact .inl rfl
    | made => exact .inl rfl

end Engine

namespace Machine

variable {source : TextSource} {m m' m'' : Machine} {n : Nat} {i i' : Interp}

/-- From a machine to a later one: its interpreters are there, with the modules that they had, and look for
others where they did. -/
def SameShelves (m m' : Machine) : Prop :=
  ∀ (k : Nat) (i : Interp), m.interps[k]? = some i →
    ∃ i', m'.interps[k]? = some i' ∧ i'.modules = i.modules ∧ i'.resolver = i.resolver

theorem SameShelves.refl (m : Machine) : m.SameShelves m := fun _ i hi => ⟨i, hi, rfl, rfl⟩

theorem SameShelves.trans (hs : m.SameShelves m') (hs' : m'.SameShelves m'') : m.SameShelves m'' := by
  intro k i hi
  obtain ⟨i', hi', hm, hr⟩ := hs k i hi
  obtain ⟨i'', hi'', hm', hr'⟩ := hs' k i' hi'
  exact ⟨i'', hi'', hm'.trans hm, hr'.trans hr⟩

theorem sameShelves_set (hi : m.interps[n]? = some i) (hset : m'.interps = m.interps.set n i')
    (hm : i'.modules = i.modules) (hr : i'.resolver = i.resolver) : m.SameShelves m' :=
  interps_set (P := fun _ j j' => j'.modules = j.modules ∧ j'.resolver = j.resolver) hi hset ⟨hm, hr⟩
    fun _ _ => ⟨rfl, rfl⟩

theorem sameShelves_openSession (n : Nat) (m : Machine) : m.SameShelves (m.openSession n).2 := by
  unfold openSession
  cases hi : m.interps[n]? with
  | none => exact .refl m
  | some i =>
    simp only []
    split
    · exact .refl m
    · exact sameShelves_set hi rfl rfl rfl

theorem sameShelves_perform {op : Op} (ho : op.seeks = false) (source : TextSource) (n : Nat)
    (key : SessionKey) (m : Machine) : m.SameShelves (m.perform source n key op).2 := by
  cases hi : m.interps[n]? with
  | none =>
    simp only [perform, hi]
    exact .refl m
  | some i =>
    rw [perform_eq hi]
    exact sameShelves_set hi rfl (Engine.perform_modules ho) (Engine.perform_resolver ..)

theorem sameShelves_closeSession (n : Nat) (key : SessionKey) (m : Machine) :
    m.SameShelves (m.closeSession n key) := by
  unfold closeSession
  cases hi : m.interps[n]? with
  | none => exact .refl m
  | some i => exact sameShelves_set hi rfl rfl rfl

end Machine

/-- A request that seeks no module leaves all modules as they are. -/
theorem Endpoint.sameShelves_serve {r : Request} (hr : ∀ key op, r = .act key op → op.seeks = false)
    (source : TextSource) (m : Machine) (e : Endpoint) :
    m.SameShelves (serve source r (m, e)).2.1 := by
  cases r with
  | openSession =>
    have hm := Machine.sameShelves_openSession e.interp m
    simp only [serve]
    rcases h : m.openSession e.interp with ⟨cause | key, m'⟩ <;>
    · rw [h] at hm
      exact hm
  | closeSession key =>
    simp only [serve]
    split
    · exact Machine.sameShelves_closeSession _ key m
    · exact .refl _
  | act key op =>
    simp only [serve]
    split
    · exact Machine.sameShelves_perform (hr key op rfl) source _ key m
    · exact .refl _

theorem Channel.sameShelves_call {r : Request} (hr : ∀ key op, r = .act key op → op.seeks = false)
    (source : TextSource) (live : Bool) (m : Machine) (e : Endpoint) :
    m.SameShelves (call (Endpoint.image source) r ⟨live, (m, e)⟩).2.peer.1 := by
  rcases call_cases source r ⟨live, (m, e)⟩ with he | ⟨bytes, r', rfl, hb, hd, he⟩
  · rw [he]
    exact .refl _
  · rw [he]
    refine Endpoint.sameShelves_serve (fun key op ho => ?_) source m e
    -- What arrives is a request of the same kind.
    rcases Wire.decodeRequest_of_encode hb hd with rfl | ⟨key', op₀, op', rfl, rfl, hop⟩
    · exact hr key op ho
    · cases ho
      exact (Op.seeks_of_opIndex hop).trans (hr _ op₀ rfl)

namespace Host

variable {α : Type} {h h' h'' : Host}

/-- From a host to a later one: no interpreter has other modules than it had, and each instance has the link
that it had. -/
structure SameShelves (h h' : Host) : Prop where
  machine : h.machine.SameShelves h'.machine
  instances : h'.instances = h.instances

theorem sameShelves_of_eq (hm : h'.machine = h.machine) (hi : h'.instances = h.instances) :
    h.SameShelves h' := ⟨hm ▸ .refl _, hi⟩

theorem sameShelves_onChannel {c : Nat} {f : ChannelStep α}
    (hf : ∀ live e, h.channels[c]? = some ⟨live, .exported e⟩ →
      h.machine.SameShelves (f (Endpoint.image h.texts) ⟨live, (h.machine, e)⟩).2.peer.1) :
    h.SameShelves (runOn h (onChannel c f)).2 := by
  unfold onChannel
  rw [runOn_of]
  split
  · exact sameShelves_of_eq rfl rfl
  · exact ⟨hf _ _ ‹_›, rfl⟩
  · exact sameShelves_of_eq rfl rfl

instance : Routine SameShelves where
  refl _ := sameShelves_of_eq rfl rfl
  trans hs hs' := ⟨hs.machine.trans hs'.machine, hs'.instances.trans hs.instances⟩
  openSession l h := by
    have hact (key : SessionKey) (op : Op) (he : Request.openSession = .act key op) : op.seeks = false := by
      cases he
    cases l with
    | direct n => exact ⟨Machine.sameShelves_openSession n _, rfl⟩
    | channel c => exact sameShelves_onChannel fun live e _ => Channel.sameShelves_call hact _ live _ e
  perform l key op ho h := by
    have hact (key' : SessionKey) (op' : Op) (he : Request.act key op = .act key' op') : op'.seeks = false := by
      cases he
      exact ho
    cases l with
    | direct n => exact ⟨Machine.sameShelves_perform ho _ n key _, rfl⟩
    | channel c => exact sameShelves_onChannel fun live e _ => Channel.sameShelves_call hact _ live _ e
  closeSession l key h := by
    have hact (key' : SessionKey) (op : Op) (he : Request.closeSession key = .act key' op) :
        op.seeks = false := by
      cases he
    cases l with
    | direct n => exact ⟨Machine.sameShelves_closeSession n key _, rfl⟩
    | channel c => exact sameShelves_onChannel fun live e _ => Channel.sameShelves_call hact _ live _ e
  books _ _ _ _ _ _ := sameShelves_of_eq rfl rfl
  counts _ _ _ _ _ := sameShelves_of_eq rfl rfl

/-- A session that asks for a module through a link leaves the modules as they are, or it gets to an
interpreter. -/
theorem global_cases (l : Link) (key : SessionKey) {name x : String} (hs : (Op.global name x).Sized)
    (h : Host) : h.SameShelves (runOn h (l.perform key (.global name x))).2 ∨
      ∃ k, h.interpAt l = some k ∧ ¬ h.Cut l ∧ (runOn h (l.perform key (.global name x))).2 =
        { h with machine := (h.machine.perform h.texts k key (.global name x)).2 } := by
  cases hl : h.interpAt l with
  | none =>
    cases l with
    | direct n => cases hl
    | channel c =>
      refine .inl (sameShelves_onChannel fun live e hc => ?_)
      rw [interpAt_channel hc] at hl
      cases hl
  | some k =>
    by_cases hcut : h.Cut l
    · obtain ⟨c, e, rfl, hc⟩ := hcut
      have hrun : runOn h (Link.perform key (.global name x) (.channel c)) = (.error .closed, h) :=
        Link.runOn_perform_channel hc rfl
      exact .inl (by rw [hrun]; exact Frame.refl h)
    · rcases Link.perform_arriving key hl hs with ⟨e, hrun⟩ | ⟨heard, hrun, -⟩
      · exact .inl (by rw [hrun]; exact Frame.refl h)
      · exact .inr ⟨k, rfl, hcut, by rw [hrun]⟩

variable {s : SessionId} {session : Session} {n : InstanceId} {m : ManagerId} {k r : Nat} {i : Interp}
  {name x : String} {texts : List (String × String)} {a : Action} {actions : List Action}

/-- A session is open on an interpreter, and if there is a channel between them then it is open, too. -/
def LivesAt (h : Host) (s : SessionId) (k : Nat) : Prop :=
  ∃ session, h.sessions.get? s = some session ∧ h.interpAt session.link = some k ∧ ¬ h.Cut session.link

/-- Usual actions leave the modules as they are, but for a session that asks an interpreter for one. -/
theorem usual_cases (ha : a.Usual) (h : Host) : h.SameShelves (h.step a) ∨
    ∃ s name x session k, a = .perform s (.global name x) ∧ h.sessions.get? s = some session ∧
      h.interpAt session.link = some k ∧ ¬ h.Cut session.link ∧ h.step a =
        { h with machine := (h.machine.perform h.texts k session.key (.global name x)).2 } := by
  -- A registration is no routine, as it changes texts; a search for a module is none, as it may add one.
  by_cases hregister : ∃ m name source, a = .register m name source
  · obtain ⟨m, name, source, rfl⟩ := hregister
    rcases register_cases h m name source with he | ⟨manager, sources, -, -, he⟩
    · exact .inl (by rw [he]; exact Frame.refl h)
    · exact .inl (by rw [he]; exact sameShelves_of_eq rfl rfl)
  by_cases hglobal : ∃ s name x, a = .perform s (.global name x)
  · obtain ⟨s, name, x, rfl⟩ := hglobal
    have hstep : h.step (.perform s (.global name x)) = (runOn h (Host.perform s (.global name x))).2 :=
      runOn_lost h _
    rw [hstep]
    rcases find_cases (fun h => h.sessions.get? s) h with ⟨-, hr⟩ | ⟨session, hs, -⟩
    · exact .inl (by rw [Host.perform, getSession, runOn_bind_error hr]; exact Frame.refl h)
    · rw [runOn_perform hs]
      rcases global_cases session.link session.key (ha.sized s name x rfl) h with
        hsame | ⟨k, hat, hcut, hrun⟩
      · exact .inl hsame
      · exact .inr ⟨s, name, x, session, k, rfl, hs, hat, hcut, hrun⟩
  · refine .inl (within_routine ha.everyday (fun m name source he => hregister ⟨m, name, source, he⟩)
      (fun s op he => ?_) h)
    cases op with
    | global name x => exact absurd ⟨s, name, x, he⟩ hglobal
    | _ => rfl

/-- Each instance has the interpreter that it had. -/
theorem seat_usual (ha : a.Usual) (h : Host) (n : InstanceId) : (h.step a).seat n = h.seat n := by
  have hlasts : h.Lasts (h.step a) := within_everyday ha.everyday h
  have hinstances : (h.step a).instances = h.instances := by
    rcases usual_cases ha h with hsame | ⟨_, _, _, _, _, -, -, -, -, he⟩
    · exact hsame.instances
    · rw [he]
  have hleads : (h.step a).interpAt = h.interpAt := funext hlasts.interpAt
  rw [seat, seat, linkOf, linkOf, hinstances, hleads]

/-- What a usual action does to the modules of an interpreter. It gets one more if a session asks for it, and
there is a text that can be read. -/
theorem interp_usual (ha : a.Usual) (hi : h.machine.interps[k]? = some i) :
    ∃ i', (h.step a).machine.interps[k]? = some i' ∧ i'.resolver = i.resolver ∧
      (i'.modules = i.modules ∨ ∃ s name x text b, a = .perform s (.global name x) ∧ h.LivesAt s k ∧
        h.texts i.resolver name = some text ∧ Parses text ∧ i'.modules = i.modules.insert name b) := by
  rcases usual_cases ha h with hsame | ⟨s, name, x, session, j, rfl, hs, hat, hcut, he⟩
  · obtain ⟨i', hi', hm, hr⟩ := hsame.machine k i hi
    exact ⟨i', hi', hr, .inl hm⟩
  · rw [he]
    -- The session may be on another interpreter.
    by_cases hj : j = k
    · subst hj
      have hlt : j < h.machine.interps.length := (List.getElem?_eq_some_iff.1 hi).1
      rw [Machine.perform_eq hi]
      refine ⟨_, List.getElem?_set_self hlt, Engine.perform_resolver .., ?_⟩
      rcases Engine.perform_global_modules h.texts session.key name x ⟨h.machine.heap, i⟩ with hm | hm
      · exact .inl hm
      · rcases Engine.findModule_modules h.texts name ⟨h.machine.heap, i⟩ with
          hm' | ⟨-, ⟨text, htext, hparses⟩, b, hm'⟩
        · exact .inl (hm.trans hm')
        · exact .inr ⟨s, name, x, text, b, rfl, ⟨session, hs, hat, hcut⟩, htext, hparses, hm.trans hm'⟩
    · cases hother : h.machine.interps[j]? with
      | none => exact ⟨i, by simp only [Machine.perform, hother, hi], rfl, .inl rfl⟩
      | some i' =>
        rw [Machine.perform_eq hother]
        exact ⟨i, (List.getElem?_set_ne hj).trans hi, rfl, .inl rfl⟩

/-- A session is open on the interpreter of an instance. -/
def LivesIn (h : Host) (s : SessionId) (n : InstanceId) : Prop := ∃ k, h.seat n = some k ∧ h.LivesAt s k

/-- An instance has the interpreter `k`, which asks the registry `r` for the texts of modules. -/
structure Consults (h : Host) (n : InstanceId) (k r : Nat) : Prop where
  seat : h.seat n = some k
  interp : ∃ i, h.machine.interps[k]? = some i ∧
    (i.resolver = some (.registry r) ∨ i.resolver = some (.remote (.registry r)))

/-- An interpreter does not have a module. -/
def Lacks (h : Host) (k : Nat) (name : String) : Prop :=
  ∃ i, h.machine.interps[k]? = some i ∧ i.modules.get? name = none

/-- In the course of some actions no session on an instance asks for a module when the text that is registered
for it can be read. -/
def NeverRead (h : Host) (m : ManagerId) (texts : List (String × String)) (n : InstanceId) (name : String)
    (actions : List Action) : Prop :=
  ∀ earlier s x later, actions = earlier ++ .perform s (.global name x) :: later →
    (h.after earlier).LivesIn s n → ∀ text,
      Registry.latest (texts ++ registrations m earlier) name = some text → ¬ Parses text

theorem neverRead_nil : h.NeverRead m texts n name [] := fun _ _ _ _ he =>
  absurd he.symm (List.append_ne_nil_of_right_ne_nil _ (List.cons_ne_nil _ _))

theorem neverRead_cons : h.NeverRead m texts n name (a :: actions) ↔
    (∀ s x, a = .perform s (.global name x) → h.LivesIn s n → ∀ text,
      Registry.latest texts name = some text → ¬ Parses text) ∧
      (h.step a).NeverRead m (texts ++ registrations m [a]) n name actions := by
  refine ⟨fun hno => ⟨fun s x he hs text htext => ?_, fun earlier s x later he hs text htext => ?_⟩,
    fun ⟨hfirst, hrest⟩ earlier s x later he hs text htext => ?_⟩
  · exact hno [] s x actions (he ▸ rfl) hs text ((List.append_nil texts).symm ▸ htext)
  · rw [List.append_assoc, ← registrations_append] at htext
    exact hno (a :: earlier) s x later (he ▸ rfl) hs text htext
  · cases earlier with
    | nil =>
      cases he
      rw [registrations, List.filterMap_nil, List.append_nil] at htext
      exact hfirst s x rfl hs text htext
    | cons b earlier =>
      obtain ⟨rfl, rfl⟩ := List.cons.inj he
      refine hrest earlier s x later rfl hs text ?_
      rwa [List.append_assoc, ← registrations_append]

theorem NeverRead.cons_of_not_perform (ha : ∀ s op, a ≠ .perform s op)
    (hno : (h.step a).NeverRead m (texts ++ registrations m [a]) n name actions) :
    h.NeverRead m texts n name (a :: actions) :=
  neverRead_cons.2 ⟨fun s _ he => absurd he (ha s _), hno⟩

theorem LivesIn.lives (hv : h.LivesIn s n) : h.Lives s := by
  obtain ⟨k, -, session, hs, hat, hcut⟩ := hv
  exact ⟨session, k, hs, hat, hcut⟩

theorem LivesIn.seat (hv : h.LivesIn s n) :
    h.seat n = (h.sessions.get? s).bind fun session => h.interpAt session.link := by
  obtain ⟨k, hseat, session, hs, hat, -⟩ := hv
  rw [hseat, hs, Option.bind_some, hat]

theorem Consults.texts_eq (hc : h.Consults n k r) (hp : h.Publishes m r texts)
    (hi : h.machine.interps[k]? = some i) (name : String) :
    h.texts i.resolver name = Registry.latest texts name := by
  have hregistry : h.texts (some (.registry r)) name = Registry.latest texts name := by
    simp only [Host.texts, Option.bind_some, Resolver.lookup, hp.holds, Option.getD_some, Registry.get?_ofList]
  obtain ⟨j, hj, hresolver⟩ := hc.interp
  obtain rfl := Option.some.inj (hi.symm.trans hj)
  rcases hresolver with hr | hr
  · rw [hr, hregistry]
  · rw [hr, Host.texts_remote, hregistry]

theorem Consults.step (hc : h.Consults n k r) (ha : a.Usual) : (h.step a).Consults n k r := by
  obtain ⟨i, hi, hr⟩ := hc.interp
  obtain ⟨i', hi', hr', -⟩ := interp_usual ha hi
  exact ⟨(seat_usual ha h n).trans hc.seat, i', hi', by rwa [hr']⟩

theorem Lacks.step (hl : h.Lacks k name) (hc : h.Consults n k r) (hp : h.Publishes m r texts) (ha : a.Usual)
    (hno : ∀ s x, a = .perform s (.global name x) → h.LivesIn s n → ∀ text,
      Registry.latest texts name = some text → ¬ Parses text) : (h.step a).Lacks k name := by
  obtain ⟨i, hi, hnew⟩ := hl
  obtain ⟨i', hi', -, hm | ⟨s, name', x, text, b, he, hs, htext, hparses, hm⟩⟩ := interp_usual ha hi
  · exact ⟨i', hi', by rw [hm, hnew]⟩
  · refine ⟨i', hi', ?_⟩
    rw [hm, Table.get?_insert]
    split
    -- The module itself was added only if its text can be read; any other leaves it out.
    · rename_i hname
      subst hname
      rw [hc.texts_eq hp hi] at htext
      exact absurd hparses (hno s x he ⟨k, hc.seat, hs⟩ text htext)
    · exact hnew

theorem usual_not_buildManager (ha : a.Usual) (spec : ManagerSpec) : a ≠ .buildManager spec := by
  rintro rfl
  exact ha.everyday

theorem Consults.after (hc : h.Consults n k r) (hu : ∀ a ∈ actions, a.Usual) :
    (h.after actions).Consults n k r := by
  induction actions generalizing h with
  | nil => exact hc
  | cons a actions ih =>
    exact ih (hc.step (hu a List.mem_cons_self)) fun b hb => hu b (List.mem_cons_of_mem a hb)

/-- In the course of usual actions an interpreter gets no module before a session asks for it and its text can
be read. -/
theorem Lacks.after (hl : h.Lacks k name) (hc : h.Consults n k r) (hp : h.Publishes m r texts)
    (hu : ∀ a ∈ actions, a.Usual) (hno : h.NeverRead m texts n name actions) :
    (h.after actions).Lacks k name := by
  -- The texts grow along the run, so they are part of the induction.
  induction actions generalizing h texts with
  | nil => exact hl
  | cons a actions ih =>
    have ha := hu a List.mem_cons_self
    obtain ⟨hfirst, hrest⟩ := neverRead_cons.1 hno
    exact ih (hl.step hc hp ha hfirst) (hc.step ha) (hp.step (usual_not_buildManager ha))
      (fun b hb => hu b (List.mem_cons_of_mem a hb)) hrest

end Host

end InstancePool
