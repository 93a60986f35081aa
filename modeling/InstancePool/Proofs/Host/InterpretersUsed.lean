import InstancePool.Proofs.Host.RecordInvariants
import InstancePool.Proofs.Interp.Separation
import InstancePool.Proofs.Instance.Wiring

/-!
Which interpreters an action of a host puts to work: those to which the links lead that it uses, and
those that it makes.
-/

namespace InstancePool

open HostM

/-- A link leads to no interpreter outside `S`. -/
def Host.LeadsInto (S : Nat → Prop) (l : Link) (h : Host) : Prop :=
  ∀ k, h.interpAt l = some k → S k

/-- From a host to a later one: the interpreters in `S` took steps, the channels to others are as they
were, and links that are new or lead elsewhere than before lead into `S`. -/
structure Host.Works (S : Nat → Prop) (h h' : Host) : Prop where
  machine : Machine.Steps S h.machine h'.machine
  channels_le : h.channels.length ≤ h'.channels.length
  channel : ∀ (c : Nat) (live : Bool) (e : Endpoint), h.channels[c]? = some ⟨live, .exported e⟩ →
    ∃ live' e', h'.channels[c]? = some ⟨live', .exported e'⟩ ∧ e'.interp = e.interp ∧
      (¬ S e.interp → live' = live ∧ e' = e)
  back : ∀ (c : Nat) (live' : Bool) (e' : Endpoint), h'.channels[c]? = some ⟨live', .exported e'⟩ →
    (∃ live e, h.channels[c]? = some ⟨live, .exported e⟩ ∧ e'.interp = e.interp) ∨
      (h.channels.length ≤ c ∧ S e'.interp)
  linked : ∀ n l, h'.linkOf n = some l → h.linkOf n = some l ∨ h'.LeadsInto S l
  seated : ∀ s session', h'.sessions.get? s = some session' →
    (∃ session, h.sessions.get? s = some session ∧ session'.link = session.link) ∨
      h'.LeadsInto S session'.link

/-- What is known of a host as long as nothing but the interpreters in `S` is put to work. -/
class Lasting (S : Nat → Prop) (P : Host → Prop) : Prop where
  keep : ∀ {h h'}, Host.Works S h h' → P h → P h'

/-- Nothing but the interpreters in `S` is put to work, starting where `P` holds. -/
def Host.WorksIf (P : Host → Prop) (S : Nat → Prop) (h h' : Host) : Prop := P h → h.Works S h'

namespace Machine

variable {S T : Nat → Prop} {m m' : Machine}

theorem Step.length_le (hs : Step S m m') : m.interps.length ≤ m'.interps.length := by
  cases hs with
  | create hn => exact (m.spares_create (S := S) ..).length_le
  | @openSession n hn => exact (m.spares_openSession (S := S) n).length_le
  | @perform source n key op hn =>
    exact (m.spares_perform (S := fun _ => False) (fun _ => id) source key).length_le
  | @closeSession n key hn => exact (m.spares_closeSession (S := S) n key).length_le
  | @setResolver n r hn => exact (m.spares_setResolver (S := S) n r).length_le
  | @finalize n hn => exact (Machine.spares_finalize (S := fun _ => False) id m).length_le
  | record => exact Nat.le_refl _

theorem Steps.length_le (hs : Steps S m m') : m.interps.length ≤ m'.interps.length := by
  induction hs with
  | refl => exact Nat.le_refl _
  | tail _ hstep ih => exact Nat.le_trans ih hstep.length_le

theorem Step.mono (hs : Step S m m') (hst : ∀ k, S k → T k) : Step T m m' := by
  cases hs with
  | create hn => exact .create (hst _ hn)
  | openSession hn => exact .openSession (hst _ hn)
  | perform hn => exact .perform (hst _ hn)
  | closeSession hn => exact .closeSession (hst _ hn)
  | setResolver hn => exact .setResolver (hst _ hn)
  | finalize hn => exact .finalize (hst _ hn)
  | record => exact .record

theorem Steps.mono (hs : Steps S m m') (hst : ∀ k, S k → T k) : Steps T m m' :=
  hs.lift id fun _ _ h => h.mono hst

end Machine

namespace Host

variable {S T : Nat → Prop} {P : Host → Prop} {h h' h₁ h₂ h₃ : Host} {l : Link}

theorem Works.leadsInto (hw : h₁.Works S h₂) (hl : h₁.LeadsInto S l) : h₂.LeadsInto S l := by
  intro k hk
  cases l with
  | direct n => exact hl k hk
  | channel c =>
    obtain ⟨live', e', hc, rfl⟩ := interpAt_channel_iff.1 hk
    rcases hw.back c live' e' hc with ⟨live, e, hc', he⟩ | ⟨-, hs⟩
    · rw [he]
      exact hl e.interp (interpAt_channel hc')
    · exact hs

theorem Works.of_books (hm : Machine.Steps S h.machine h'.machine) (hc : h'.channels = h.channels)
    (hi : h'.instances = h.instances) (hs : h'.sessions = h.sessions) : h.Works S h' where
  machine := hm
  channels_le := Nat.le_of_eq (by rw [hc])
  channel c live e h := ⟨live, e, by rw [hc, h], rfl, fun _ => ⟨rfl, rfl⟩⟩
  back c live e h := .inl ⟨live, e, by rw [← hc, h], rfl⟩
  linked n l hl := .inl (by rw [← hl, linkOf, linkOf, hi])
  seated s session h := .inl ⟨session, by rw [← hs, h], rfl⟩

theorem Works.refl (h : Host) : h.Works S h := .of_books .refl rfl rfl rfl

theorem Works.trans (hw : h₁.Works S h₂) (hw' : h₂.Works S h₃) : h₁.Works S h₃ where
  machine := hw.machine.trans hw'.machine
  channels_le := Nat.le_trans hw.channels_le hw'.channels_le
  channel c live e hc := by
    obtain ⟨live', e', hc', he', hs'⟩ := hw.channel c live e hc
    obtain ⟨live'', e'', hc'', he'', hs''⟩ := hw'.channel c live' e' hc'
    refine ⟨live'', e'', hc'', he''.trans he', fun hn => ?_⟩
    -- Where no interpreter of `S` is behind it, the first part left the channel as it was.
    obtain ⟨rfl, rfl⟩ := hs' hn
    exact hs'' hn
  back c live e hc := by
    rcases hw'.back c live e hc with ⟨live', e', hc', he'⟩ | ⟨hc', he'⟩
    · rcases hw.back c live' e' hc' with ⟨live'', e'', hc'', he''⟩ | ⟨hc'', he''⟩
      · exact .inl ⟨live'', e'', hc'', he'.trans he''⟩
      · exact .inr ⟨hc'', he' ▸ he''⟩
    · exact .inr ⟨Nat.le_trans hw.channels_le hc', he'⟩
  linked n l hl := by
    rcases hw'.linked n l hl with hl | hl
    · exact (hw.linked n l hl).imp_right hw'.leadsInto
    · exact .inr hl
  seated s session hs := by
    rcases hw'.seated s session hs with ⟨session', hs', he'⟩ | hl
    · rw [he']
      exact (hw.seated s session' hs').imp_right hw'.leadsInto
    · exact .inr hl

theorem LeadsInto.mono (hl : h.LeadsInto S l) (hst : ∀ k, S k → T k) : h.LeadsInto T l :=
  fun k hk => hst k (hl k hk)

theorem Works.mono (hw : h₁.Works S h₂) (hst : ∀ k, S k → T k) : h₁.Works T h₂ where
  machine := hw.machine.mono hst
  channels_le := hw.channels_le
  channel c live e hc := by
    obtain ⟨live', e', hc', he', hs⟩ := hw.channel c live e hc
    exact ⟨live', e', hc', he', fun hn => hs fun hk => hn (hst _ hk)⟩
  back c live e hc := (hw.back c live e hc).imp_right fun hn => ⟨hn.1, hst _ hn.2⟩
  linked n l hl := (hw.linked n l hl).imp_right fun h => h.mono hst
  seated s session hs := (hw.seated s session hs).imp_right fun h => h.mono hst

instance : Frame (Works S) where
  refl := .refl
  trans := .trans

instance : Aside (Works S) where
  supplies _ _ _ _ := .of_books .refl rfl rfl rfl
  record _ _ := .of_books (.single .record) rfl rfl rfl

instance [Lasting S P] : Aside (WorksIf P S) where
  refl h _ := .refl h
  trans hw hw' hp := (hw hp).trans (hw' (Lasting.keep (hw hp) hp))
  supplies h _ _ _ _ := Aside.supplies (R := Works S) h _ _ _
  record h entry _ := Aside.record (R := Works S) h entry

instance : Lasting S (LeadsInto S l) where
  keep := Works.leadsInto

/-- The links of some instances lead into `S`. -/
def Homes (S : Nat → Prop) (I : InstanceId → Prop) (h : Host) : Prop :=
  ∀ n l, I n → h.linkOf n = some l → h.LeadsInto S l

instance {I : InstanceId → Prop} : Lasting S (Homes S I) where
  keep hw hp n l hn hl := by
    rcases hw.linked n l hl with hl | hl
    · exact hw.leadsInto (hp n l hn hl)
    · exact hl

/-- The link of a session leads into `S`. -/
def Runs (S : Nat → Prop) (s : SessionId) (h : Host) : Prop :=
  ∀ session, h.sessions.get? s = some session → h.LeadsInto S session.link

instance {s : SessionId} : Lasting S (Runs S s) where
  keep hw hp session' hs := by
    rcases hw.seated s session' hs with ⟨session, hs, he⟩ | hl
    · rw [he]
      exact hw.leadsInto (hp session hs)
    · exact hl

/-- Interpreters are at work through a channel that leads into `S`. -/
theorem works_onChannel {α : Type} {c : Nat} {f : ChannelStep α} (hl : h.LeadsInto S (.channel c))
    (hf : ∀ live (e : Endpoint), S e.interp →
      Machine.Steps S h.machine (f (Endpoint.image h.texts) ⟨live, (h.machine, e)⟩).2.peer.1 ∧
        (f (Endpoint.image h.texts) ⟨live, (h.machine, e)⟩).2.peer.2.interp = e.interp) :
    h.Works S (runOn h (onChannel c f)).2 := by
  unfold onChannel
  rw [runOn_of]
  split
  · exact .refl h
  · rename_i live e hc
    have hlt : c < h.channels.length := (List.getElem?_eq_some_iff.1 hc).1
    have hs : S e.interp := hl e.interp (interpAt_channel hc)
    obtain ⟨hm, he⟩ := hf live e hs
    refine ⟨hm, ?_, ?_, ?_, fun n l hl => .inl hl, fun s session hg => .inl ⟨session, hg, rfl⟩⟩
    · exact Nat.le_of_eq (List.length_set ..).symm
    · intro c' live' e' hc'
      by_cases hne : c = c'
      · subst hne
        obtain ⟨rfl, rfl⟩ : live = live' ∧ e = e' := by
          rw [hc] at hc'
          cases hc'
          exact ⟨rfl, rfl⟩
        exact ⟨_, _, List.getElem?_set_self hlt, he, fun hn => absurd hs hn⟩
      · exact ⟨live', e', by rw [List.getElem?_set_ne hne, hc'], rfl, fun _ => ⟨rfl, rfl⟩⟩
    · intro c' live' e' hc'
      rcases getElem?_set_cases hc' with ⟨rfl, hset⟩ | ⟨-, hc'⟩
      · cases hset
        exact .inl ⟨live, e, hc, he⟩
      · exact .inl ⟨live', e', hc', rfl⟩
  · rename_i live script hc
    -- No interpreter of this process is behind a script.
    refine ⟨.refl, ?_, ?_, ?_, fun n l hl => .inl hl, fun s session hg => .inl ⟨session, hg, rfl⟩⟩
    · exact Nat.le_of_eq (List.length_set ..).symm
    · intro c' live' e' hc'
      have hne : c ≠ c' := by
        rintro rfl
        rw [hc] at hc'
        cases hc'
      exact ⟨live', e', by rw [List.getElem?_set_ne hne, hc'], rfl, fun _ => ⟨rfl, rfl⟩⟩
    · intro c' live' e' hc'
      rcases getElem?_set_cases hc' with ⟨-, hset⟩ | ⟨-, hc'⟩
      · cases hset
      · exact .inl ⟨live', e', hc', rfl⟩

end Host

namespace Endpoint

open Machine

variable {S : Nat → Prop} {m : Machine} {e : Endpoint}

theorem steps_serve (source : TextSource) (hn : S e.interp) (r : Request) :
    m.Steps S (serve source r (m, e)).2.1 ∧ (serve source r (m, e)).2.2.interp = e.interp := by
  cases r with
  | openSession =>
    have hm : m.Step S (m.openSession e.interp).2 := .openSession hn
    simp only [serve]
    rcases h : m.openSession e.interp with ⟨cause | key, m'⟩
    · rw [h] at hm
      exact ⟨.single hm, rfl⟩
    · rw [h] at hm
      exact ⟨.single hm, rfl⟩
  | closeSession key =>
    simp only [serve]
    split
    · exact ⟨.single (.closeSession hn), rfl⟩
    · exact ⟨.refl, rfl⟩
  | act key op =>
    simp only [serve]
    split
    · exact ⟨.single (.perform hn), rfl⟩
    · exact ⟨.refl, rfl⟩

/-- Whatever bytes come in, the interpreter behind the endpoint alone is at work. -/
theorem steps_dispatch (source : TextSource) (hn : S e.interp) (bytes : List UInt8) :
    m.Steps S (dispatch source bytes (m, e)).2.1 ∧
      (dispatch source bytes (m, e)).2.2.interp = e.interp := by
  unfold dispatch
  cases Wire.decodeRequest bytes with
  | error cause =>
    simp only []
    split <;> exact ⟨.refl, rfl⟩
  | ok r =>
    have hs := steps_serve (m := m) source hn r
    simp only []
    split <;> exact hs

theorem steps_call (source : TextSource) (hn : S e.interp) (r : Request) (live : Bool) :
    m.Steps S (Channel.call (image source) r ⟨live, (m, e)⟩).2.peer.1 ∧
      (Channel.call (image source) r ⟨live, (m, e)⟩).2.peer.2.interp = e.interp := by
  unfold Channel.call
  split
  · split
    · exact ⟨.refl, rfl⟩
    · exact steps_dispatch source hn _
  · exact ⟨.refl, rfl⟩

theorem steps_finalize (hn : S e.interp) :
    m.Steps S (finalize (m, e)).2.1 ∧ (finalize (m, e)).2.2.interp = e.interp := by
  have hclosed (keys : List SessionKey) (m : Machine) :
      m.Steps S (keys.foldl (fun m key => m.closeSession e.interp key) m) := by
    induction keys generalizing m with
    | nil => exact .refl
    | cons key keys ih => exact (Relation.ReflTransGen.single (.closeSession hn)).trans (ih _)
  -- The sessions that are still served come first.
  exact ⟨(hclosed e.served m).tail (.finalize hn), rfl⟩

end Endpoint

namespace Link

open Host

variable {S : Nat → Prop} {P : Host → Prop} {h : Host} {l : Link}

theorem works_openSession (hl : h.LeadsInto S l) : h.Works S (runOn h l.openSession).2 := by
  cases l with
  | direct n => exact .of_books (.single (.openSession (hl n rfl))) rfl rfl rfl
  | channel c =>
    exact works_onChannel hl fun live e hn => Endpoint.steps_call h.texts hn .openSession live

theorem works_closeSession (key : SessionKey) (hl : h.LeadsInto S l) :
    h.Works S (runOn h (l.closeSession key)).2 := by
  cases l with
  | direct n => exact .of_books (.single (.closeSession (hl n rfl))) rfl rfl rfl
  | channel c =>
    exact works_onChannel hl fun live e hn => Endpoint.steps_call h.texts hn (.closeSession key) live

theorem works_perform (key : SessionKey) (op : Op) (hl : h.LeadsInto S l) :
    h.Works S (runOn h (l.perform key op)).2 := by
  cases l with
  | direct n => exact .of_books (.single (.perform (hl n rfl))) rfl rfl rfl
  | channel c =>
    exact works_onChannel hl fun live e hn => Endpoint.steps_call h.texts hn (.act key op) live

theorem works_setResolver (r : Resolver) (hl : h.LeadsInto S l) :
    h.Works S (runOn h (l.setResolver r)).2 := by
  cases l with
  | direct n => exact .of_books (.single (.setResolver (hl n rfl))) rfl rfl rfl
  | channel c =>
    refine works_onChannel hl fun live e hn => ?_
    unfold Channel.setResolver
    split
    · exact ⟨.single (.setResolver hn), rfl⟩
    · exact ⟨.refl, rfl⟩

theorem works_finalize (hl : h.LeadsInto S l) : h.Works S (runOn h l.finalize).2 := by
  cases l with
  | direct n => exact .of_books (.single (.finalize (hl n rfl))) rfl rfl rfl
  | channel c =>
    refine works_onChannel hl fun live e hn => ?_
    unfold Channel.finalize
    split
    · exact Endpoint.steps_finalize hn
    · exact ⟨.refl, rfl⟩

theorem works_performRef (key : SessionKey) (op : Op) :
    Within (WorksIf (LeadsInto S l) S) (l.performRef key op) :=
  Within.bind (fun _ hl => works_perform key op hl) fun _ => within_settle _

theorem works_withSession {α : Type} {f : SessionKey → HostM α}
    (hf : ∀ key, Within (WorksIf (LeadsInto S l) S) (f key)) (hl : h.LeadsInto S l) :
    h.Works S (runOn h (l.withSession f)).2 :=
  within_withSession (R := WorksIf (LeadsInto S l) S) (fun _ hl => works_openSession hl)
    (fun key _ hl => works_closeSession key hl) hf h hl

end Link

/-- The link of an instance that is not torn down leads into `S`. -/
def Instance.LeadsInto (S : Nat → Prop) (i : Instance) (h : Host) : Prop :=
  ∀ l, i.link = some l → h.LeadsInto S l

instance {S : Nat → Prop} {i : Instance} : Lasting S (i.LeadsInto S) where
  keep hw hp l hl := hw.leadsInto (hp l hl)

instance {K C : Nat} : Lasting (K ≤ ·) (Host.Above K C) where
  keep hw ha :=
    { interps := Nat.le_trans ha.interps hw.machine.length_le
      channels := Nat.le_trans ha.channels hw.channels_le
      leads c live e hc he := by
        rcases hw.back c live e he with ⟨live', e', he', hi⟩ | ⟨-, hi⟩
        · rw [hi]
          exact ha.leads c live' e' hc he'
        · exact hi }

namespace Instance

open Host

variable {S : Nat → Prop} {K C : Nat} {h : Host} {i : Instance}

theorem works_withSession {α : Type} {f : Link → SessionKey → HostM α}
    (hf : ∀ l key, Within (WorksIf (Host.LeadsInto S l) S) (f l key)) :
    Within (WorksIf (i.LeadsInto S) S) (i.withSession f) := by
  intro h hi
  unfold withSession
  split
  · exact .refl h
  · rename_i link hl
    exact Link.works_withSession (hf link) (hi link hl)

theorem works_adopt (registry : Nat) (i : Instance) :
    Within (WorksIf (i.LeadsInto S) S) (i.adopt registry) := by
  refine Within.bind (works_withSession fun l key => ?_) fun _ h hi => ?_
  · exact (Link.works_performRef key _).bind fun version =>
      (Link.works_performRef key _).bind fun number =>
        Within.bind (fun _ hl => Link.works_perform key _ hl) fun _ => within_pure _
  · unfold setResolver
    split
    · exact .refl h
    · rename_i link hl
      exact Link.works_setResolver _ (hi link hl)

theorem works_close (i : Instance) : Within (WorksIf (i.LeadsInto S) S) i.close :=
  within_close fun l hl _ hi => Link.works_finalize (hi l hl)

end Instance

theorem Host.Above.leadsInto {K C : Nat} {h : Host} (ha : h.Above K C) {l : Link}
    (hl : l.From K C) : h.LeadsInto (K ≤ ·) l := by
  intro k hk
  cases l with
  | direct n =>
    cases hk
    exact hl
  | channel c =>
    obtain ⟨live, e, hc, rfl⟩ := Host.interpAt_channel_iff.1 hk
    exact ha.leads c live e hl hc

namespace Host

variable {K C N : Nat}

/-- A channel is added, if to an interpreter then to one in `S`. -/
theorem works_addChannel {S : Nat → Prop} {peer : Peer}
    (hp : ∀ e, peer = .exported e → S e.interp) : Within (Works S) (addChannel peer) := by
  intro h
  simp only [addChannel, runOn_of]
  refine ⟨.refl, ?_, ?_, ?_, fun n l hl => .inl hl, fun s session hg => .inl ⟨session, hg, rfl⟩⟩
  · rw [List.length_append]
    exact Nat.le_add_right _ _
  · intro c live e hc
    have hlt : c < h.channels.length := (List.getElem?_eq_some_iff.1 hc).1
    exact ⟨live, e, by rw [List.getElem?_append_left hlt, hc], rfl, fun _ => ⟨rfl, rfl⟩⟩
  · intro c live e hc
    rcases getElem?_append_cases hc with hc | ⟨hle, he⟩
    · exact .inl ⟨live, e, hc, rfl⟩
    · cases List.mem_singleton.1 he
      exact .inr ⟨hle, hp e rfl⟩

theorem works_exportInterp {S : Nat → Prop} {n : Nat} (hn : S n) :
    Within (Works S) (exportInterp n) :=
  works_addChannel fun e he => by
    cases he
    exact hn

theorem works_newInterp (l : LoaderId) (image : Nat) (searchPaths plugins : List String) :
    Within (WorksIf (Above K C) (K ≤ ·)) (newInterp l image searchPaths plugins) := by
  unfold newInterp
  refine (within_useEntryPoint l image _ _).bind fun behaviour h ha => ?_
  refine bind_rel (R := Works (K ≤ ·)) (.of_books (.single (.create ha.interps)) rfl rfl rfl)
    fun n h' hr => ?_
  cases hr
  split
  · exact ((works_exportInterp (S := (K ≤ ·)) ha.interps).map Link.channel) _
  · exact .refl _

/-- An instance is added whose link leads into `S`. -/
theorem works_addInstance {S : Nat → Prop} (i : Instance) :
    Within (WorksIf (i.LeadsInto S) S) (addInstance i) := by
  intro h hi
  refine ⟨.refl, Nat.le_refl _, fun c live e hc => ⟨live, e, hc, rfl, fun _ => ⟨rfl, rfl⟩⟩,
    fun c live e hc => .inl ⟨live, e, hc, rfl⟩, fun n l hl => ?_,
    fun s session hs => .inl ⟨session, hs, rfl⟩⟩
  simp only [addInstance, runOn_of, linkOf, getElem?_concat_eq] at hl
  split at hl
  · exact .inr (hi l hl)
  · exact .inl hl

end Host

namespace Instance

open Host

variable {K C : Nat}

theorem works_load (number : Nat) (spec : ImageSpec) (env : EnvironmentId) :
    Within (WorksIf (Above K C) (K ≤ ·)) (Instance.load number spec env) := by
  refine within_load number spec env fun image searchPaths plugins cleanup f hcleanup hf h ha => ?_
  refine bind_rel (((works_newInterp _ _ _ _).onFailure hcleanup) h ha) fun link h' hr => ?_
  have hw := ((works_newInterp (K := K) (C := C) _ _ _ _).onFailure hcleanup).of_eq hr ha
  obtain ⟨-, -, hl⟩ := newInterp_ok (onFailure_ok hr)
  have hfrom : link.From K C := by
    cases link with
    | direct n => exact Nat.le_trans ha.interps hl
    | channel c => exact Nat.le_trans ha.channels hl
  exact hf link (fun h ha => Link.works_finalize (ha.leadsInto hfrom)) h' (Lasting.keep hw ha)

/-- What was loaded leads to an interpreter that is new. -/
theorem leadsInto_load {number : Nat} {spec : ImageSpec} {env : EnvironmentId} {h h' : Host}
    {i : Instance} (ha : h.Above K C)
    (hr : runOn h (Instance.load number spec env) = (.ok i, h')) : i.LeadsInto (K ≤ ·) h' := by
  obtain ⟨link, k, hlink, hserves, hk, -, -⟩ := load_ok hr
  intro l hl k' hk'
  obtain rfl := Option.some.inj (hlink.symm.trans hl)
  obtain rfl := Option.some.inj (hserves.interpAt.symm.trans hk')
  exact Nat.le_trans ha.interps hk

end Instance

namespace Host

variable {S : Nat → Prop} {P : Host → Prop} {K C N : Nat}

instance {Q : Host → Prop} [Lasting S P] [Lasting S Q] : Lasting S fun h => P h ∧ Q h where
  keep hw hp := ⟨Lasting.keep hw hp.1, Lasting.keep hw hp.2⟩

theorem works_loadMember (spec : ManagerSpec) (registry number : Nat) :
    Within (WorksIf (Above K C) (K ≤ ·)) (loadMember spec registry number) := by
  intro h ha
  refine bind_rel (Instance.works_load _ _ _ h ha) fun i h' hr => ?_
  have hi : i.LeadsInto (K ≤ ·) h' := Instance.leadsInto_load ha hr
  have hrest := ((Instance.works_adopt (S := (K ≤ ·)) registry i).onFailure
    i.works_close.ignoring).bind fun _ => works_addInstance i
  exact hrest h' hi

theorem works_closeInstance (n : InstanceId) :
    Within (WorksIf (Homes S (· = n)) S) (closeInstance n) := by
  intro h hp
  rcases find_cases (fun h => h.instances[n]?) h with ⟨-, hr⟩ | ⟨i, hi, hr⟩
  · rw [closeInstance, getInstance, runOn_bind_error hr]
    exact .refl h
  · rw [closeInstance, getInstance, runOn_bind_ok hr]
    have hlink : i.LeadsInto S h := by
      intro l hl
      refine hp n l rfl ?_
      rw [linkOf, hi]
      exact hl
    -- From here on the instance has no link any more, and it alone is closed.
    have hspent : h.Works S { h with instances := h.instances.set n i.spent } := by
      refine ⟨.refl, Nat.le_refl _, fun c live e hc => ⟨live, e, hc, rfl, fun _ => ⟨rfl, rfl⟩⟩,
        fun c live e hc => .inl ⟨live, e, hc, rfl⟩, fun k l hl => ?_,
        fun s session hs => .inl ⟨session, hs, rfl⟩⟩
      by_cases hk : n = k
      · subst hk
        rw [linkOf_set_self n (i := i.spent) rfl] at hl
        cases hl
      · rw [linkOf_set_ne i.spent hk] at hl
        exact .inl hl
    exact hspent.trans (i.works_close _ (Lasting.keep hspent hlink))

/-- Instances whose links lead into `S` are torn down. -/
theorem works_closeInstance_of_mem {I : InstanceId → Prop} {n : InstanceId} (hn : I n) :
    Within (WorksIf (Homes S I) S) (closeInstance n) :=
  fun h hp => works_closeInstance n h fun k l hk hl => hp k l (hk ▸ hn) hl

theorem works_loadMembers (spec : ManagerSpec) (registry : Nat) (loaded : List InstanceId)
    (number count : Nat) (h : Host) (hl : ∀ n ∈ loaded, N ≤ n) (hn : N ≤ h.instances.length)
    (ha : h.Above K C) (hhomes : h.Homes (K ≤ ·) (N ≤ ·)) :
    h.Works (K ≤ ·) (runOn h (loadMembers spec registry loaded number count)).2 := by
  -- The induction is on the number of members that are left. Those loaded so far are new.
  induction count generalizing loaded number h with
  | zero => exact .refl h
  | succ count ih =>
    have hdrop : Within (WorksIf (fun h => Above K C h ∧ Homes (K ≤ ·) (N ≤ ·) h) (K ≤ ·))
        (dropInstances loaded) :=
      (within_dropInstances fun n hmem => works_closeInstance_of_mem (hl n hmem)).mono
        fun _ _ hw hp => hw hp.2
    have hmember : Within (WorksIf (fun h => Above K C h ∧ Homes (K ≤ ·) (N ≤ ·) h) (K ≤ ·))
        (onFailure (loadMember spec registry number) (dropInstances loaded)) :=
      Within.onFailure ((works_loadMember spec registry number).mono fun _ _ hw hp => hw hp.1)
        hdrop
    refine bind_rel (hmember h ⟨ha, hhomes⟩) fun n h' hr => ?_
    have hw : h.Works (K ≤ ·) h' := hmember.of_eq hr ⟨ha, hhomes⟩
    have hb := (builds_loadMember (N := N) spec registry number).of_eq (onFailure_ok hr) hn
    obtain ⟨rfl, -⟩ := loadMember_ok (onFailure_ok hr)
    refine ih _ _ h' (fun k hk => ?_) (Nat.le_trans hn hb.length_le) (Lasting.keep hw ha)
      (Lasting.keep hw hhomes)
    rcases List.mem_append.1 hk with hk | hk
    · exact hl k hk
    · rw [List.mem_singleton] at hk
      exact hk ▸ hn

theorem works_buildManager (spec : ManagerSpec) (h : Host) :
    h.Works (h.machine.interps.length ≤ ·) (runOn h (buildManager spec)).2 := by
  unfold buildManager
  split
  · exact .refl h
  · refine bind_rel (.of_books .refl rfl rfl rfl) fun registry h₁ hr => ?_
    obtain ⟨hm, hc⟩ : h₁.machine = h.machine ∧ h₁.channels = h.channels := by
      cases hr
      exact ⟨rfl, rfl⟩
    have ha : h₁.Above h.machine.interps.length h.channels.length := by
      rw [← hm, ← hc]
      exact h₁.above_length
    have hhomes : h₁.Homes (h.machine.interps.length ≤ ·) (h₁.instances.length ≤ ·) :=
      fun n l hn hl => absurd (linkOf_lt hl) (Nat.not_lt.2 hn)
    refine bind_rel ?_ fun instances h₂ _ => ?_
    · exact works_loadMembers spec registry [] 0 spec.count h₁ nofun (Nat.le_refl _) ha hhomes
    · refine bind_rel ?_ fun balancer h₃ _ => .of_books .refl rfl rfl rfl
      unfold addBalancer
      rw [runOn_of]
      split <;> exact .of_books .refl rfl rfl rfl

theorem works_loadInstance (number : Nat) (spec : ImageSpec) (env : EnvironmentId) (h : Host) :
    h.Works (h.machine.interps.length ≤ ·) (runOn h (loadInstance number spec env)).2 :=
  bind_rel (Instance.works_load number spec env h h.above_length) fun i h' hr =>
    works_addInstance i h' (Instance.leadsInto_load h.above_length hr)

end Host

end InstancePool
