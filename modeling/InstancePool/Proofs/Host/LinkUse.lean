import InstancePool.Proofs.Host.ActionSteps
import InstancePool.Proofs.Interp.MachineFrame

/-!
What happens to a host when an interpreter is used through a link. The host keeps its books as they
were, and the other interpreters are spared.
-/

namespace InstancePool

/-- The interpreter of this process that a link leads to. -/
def Host.interpAt (h : Host) : Link → Option Nat
  | .direct n => some n
  | .channel c =>
    match h.channels[c]? with
    | some ⟨_, .exported e⟩ => some e.interp
    | _ => none

/-- Nothing changed in what the host keeps about instances, managers, sessions and replicated
values. -/
structure Host.SameBooks (h h' : Host) : Prop where
  instances : h'.instances = h.instances
  managers : h'.managers = h.managers
  fleet : h'.fleet = h.fleet
  sessions : h'.sessions = h.sessions
  nextSession : h'.nextSession = h.nextSession
  replicas : h'.replicas = h.replicas
  nextReplica : h'.nextReplica = h.nextReplica

/-- From a host to a later one with the same books. The interpreters with numbers in `S` are alike,
the channels with numbers in `T` are as open as before, and every channel to an interpreter leads to
the same one; channels may be added, to interpreters outside `S`. -/
structure Host.Spares (S T : Nat → Prop) (h h' : Host) : Prop extends Host.SameBooks h h' where
  machine : h.machine.Spares S h'.machine
  channels_le : h.channels.length ≤ h'.channels.length
  channel : ∀ c live e, h.channels[c]? = some ⟨live, .exported e⟩ →
    ∃ live' e', h'.channels[c]? = some ⟨live', .exported e'⟩ ∧ e'.interp = e.interp ∧
      (T c → live' = live)
  back : ∀ c live' e', h'.channels[c]? = some ⟨live', .exported e'⟩ →
    (∃ live e, h.channels[c]? = some ⟨live, .exported e⟩ ∧ e'.interp = e.interp) ∨
      (h.channels.length ≤ c ∧ ¬ S e'.interp)

namespace Host

variable {α : Type} {S T : Nat → Prop} {h h₁ h₂ h₃ : Host}

theorem interpAt_channel {c : Nat} {live : Bool} {e : Endpoint}
    (hc : h.channels[c]? = some ⟨live, .exported e⟩) : h.interpAt (.channel c) = some e.interp := by
  simp only [interpAt, hc]

/-- What a link to an interpreter leads through, if that is a channel. -/
theorem interpAt_channel_iff {c k : Nat} : h.interpAt (.channel c) = some k ↔
    ∃ live e, h.channels[c]? = some ⟨live, .exported e⟩ ∧ e.interp = k := by
  constructor
  · intro hk
    unfold interpAt at hk
    simp only [] at hk
    split at hk
    · rename_i live e hc
      exact ⟨live, e, hc, Option.some.inj hk⟩
    · cases hk
  · rintro ⟨live, e, hc, rfl⟩
    exact interpAt_channel hc

theorem SameBooks.refl (h : Host) : h.SameBooks h := ⟨rfl, rfl, rfl, rfl, rfl, rfl, rfl⟩

theorem SameBooks.trans (h : h₁.SameBooks h₂) (h' : h₂.SameBooks h₃) : h₁.SameBooks h₃ where
  instances := h'.instances.trans h.instances
  managers := h'.managers.trans h.managers
  fleet := h'.fleet.trans h.fleet
  sessions := h'.sessions.trans h.sessions
  nextSession := h'.nextSession.trans h.nextSession
  replicas := h'.replicas.trans h.replicas
  nextReplica := h'.nextReplica.trans h.nextReplica

instance : Frame SameBooks where
  refl := .refl
  trans := .trans

/-- The channels are the same. -/
theorem SameBooks.spares (hb : h₁.SameBooks h₂) (hm : h₁.machine.Spares S h₂.machine)
    (hc : h₂.channels = h₁.channels) : h₁.Spares S T h₂ where
  toSameBooks := hb
  machine := hm
  channels_le := Nat.le_of_eq (by rw [hc])
  channel c live e h := ⟨live, e, by rw [hc, h], rfl, fun _ => rfl⟩
  back c live e h := .inl ⟨live, e, by rw [← hc, h], rfl⟩

/-- A machine alone was at work. -/
theorem Spares.ofMachine {m : Machine} (hm : h.machine.Spares S m) :
    h.Spares S T { h with machine := m } :=
  SameBooks.spares ⟨rfl, rfl, rfl, rfl, rfl, rfl, rfl⟩ hm rfl

theorem Spares.refl (h : Host) : h.Spares S T h := Spares.ofMachine (.refl _)

theorem Spares.trans (h : h₁.Spares S T h₂) (h' : h₂.Spares S T h₃) : h₁.Spares S T h₃ where
  toSameBooks := h.toSameBooks.trans h'.toSameBooks
  machine := h.machine.trans h'.machine
  channels_le := Nat.le_trans h.channels_le h'.channels_le
  channel c live e hc := by
    obtain ⟨live', e', hc', he', ht'⟩ := h.channel c live e hc
    obtain ⟨live'', e'', hc'', he'', ht''⟩ := h'.channel c live' e' hc'
    exact ⟨live'', e'', hc'', he''.trans he', fun ht => (ht'' ht).trans (ht' ht)⟩
  back c live e hc := by
    rcases h'.back c live e hc with ⟨live', e', hc', he'⟩ | ⟨hc', he'⟩
    · rcases h.back c live' e' hc' with ⟨live'', e'', hc'', he''⟩ | ⟨hc'', he''⟩
      · exact .inl ⟨live'', e'', hc'', he'.trans he''⟩
      · exact .inr ⟨hc'', he' ▸ he''⟩
    · exact .inr ⟨Nat.le_trans h.channels_le hc', he'⟩

instance : Frame (Spares S T) where
  refl := .refl
  trans := .trans

theorem Spares.interpAt (hs : h₁.Spares S T h₂) {l : Link} {k : Nat}
    (hl : h₁.interpAt l = some k) : h₂.interpAt l = some k := by
  cases l with
  | direct n => exact hl
  | channel c =>
    obtain ⟨live, e, hc, rfl⟩ := interpAt_channel_iff.1 hl
    obtain ⟨live', e', hc', he', -⟩ := hs.channel c live e hc
    rw [interpAt_channel hc', he']

/-- A link is in use: it leads to the interpreter `k`, which is not finalized, and its channel is
open. -/
structure Serves (h : Host) (l : Link) (k : Nat) : Prop where
  interpAt : h.interpAt l = some k
  live : ∀ c, l = .channel c → ∃ e, h.channels[c]? = some ⟨true, .exported e⟩
  interp : ∃ i, h.machine.interps[k]? = some i ∧ i.finalized = false

theorem Serves.of_spares {l : Link} {k : Nat} (hl : h₁.Serves l k) (hs : h₁.Spares S T h₂)
    (hk : S k) (hc : ∀ c, l = .channel c → T c) : h₂.Serves l k where
  interpAt := hs.interpAt hl.interpAt
  live c he := by
    obtain ⟨e, hl⟩ := hl.live c he
    obtain ⟨live, e', he', -, ht⟩ := hs.channel c true e hl
    obtain rfl := ht (hc c he)
    exact ⟨e', he'⟩
  interp := by
    obtain ⟨i, hi, hf⟩ := hl.interp
    obtain ⟨i', hi', ha⟩ := hs.machine.interp k i hk hi
    exact ⟨i', hi', ha.finalized.trans hf⟩

/-- A step of a channel spares what the step of the image spares. -/
theorem spares_onChannel {k : Nat} {f : ChannelStep α}
    (hf : ∀ live e, h.channels[k]? = some ⟨live, .exported e⟩ →
      Channel.Spares S ⟨live, (h.machine, e)⟩
          (f (Endpoint.image h.texts) ⟨live, (h.machine, e)⟩).2 ∧
        (T k → (f (Endpoint.image h.texts) ⟨live, (h.machine, e)⟩).2.live = live)) :
    h.Spares S T (HostM.runOn h (onChannel k f)).2 := by
  unfold onChannel
  rw [HostM.runOn_of]
  split
  · exact .refl h
  · rename_i live e hk
    have hlt : k < h.channels.length := (List.getElem?_eq_some_iff.1 hk).1
    obtain ⟨hc, hlive⟩ := hf live e hk
    refine ⟨⟨rfl, rfl, rfl, rfl, rfl, rfl, rfl⟩, hc.machine, ?_, ?_, ?_⟩
    · simp only [List.length_set]
      exact Nat.le_refl _
    · intro c live' e' hc'
      by_cases he : k = c
      · subst he
        rw [hk] at hc'
        cases hc'
        exact ⟨_, _, List.getElem?_set_self hlt, hc.interp, hlive⟩
      · exact ⟨live', e', by rw [List.getElem?_set_ne he, hc'], rfl, fun _ => rfl⟩
    · intro c live' e' hc'
      rcases getElem?_set_cases hc' with ⟨rfl, hset⟩ | ⟨-, hc'⟩
      · cases hset
        exact .inl ⟨live, e, hk, hc.interp⟩
      · exact .inl ⟨live', e', hc', rfl⟩
  · rename_i live s hk
    -- A scripted image stays one, so nothing is said of its channel.
    refine ⟨⟨rfl, rfl, rfl, rfl, rfl, rfl, rfl⟩, .refl _, ?_, ?_, ?_⟩
    · simp only [List.length_set]
      exact Nat.le_refl _
    · intro c live' e' hc'
      have he : k ≠ c := by
        rintro rfl
        rw [hk] at hc'
        cases hc'
      exact ⟨live', e', by rw [List.getElem?_set_ne he, hc'], rfl, fun _ => rfl⟩
    · intro c live' e' hc'
      rcases getElem?_set_cases hc' with ⟨-, hset⟩ | ⟨-, hc'⟩
      · cases hset
      · exact .inl ⟨live', e', hc', rfl⟩

end Host

namespace Link

open HostM Host

variable {α : Type} {S T : Nat → Prop} {h : Host}

theorem within_openSession (l : Link) : Within (Host.Spares S T) l.openSession := by
  intro h
  cases l with
  | direct n => exact Spares.ofMachine (h.machine.spares_openSession n)
  | channel c =>
    refine spares_onChannel fun live e _ => ?_
    have hs := Channel.spares_call (S := S) h.texts ⟨live, (h.machine, e)⟩ (r := .openSession) nofun
    exact ⟨hs.1, fun _ => hs.2⟩

theorem within_closeSession (key : SessionKey) (l : Link) :
    Within (Host.Spares S T) (l.closeSession key) := by
  intro h
  cases l with
  | direct n => exact Spares.ofMachine (h.machine.spares_closeSession n key)
  | channel c =>
    refine spares_onChannel fun live e _ => ?_
    have hs := Channel.spares_call (S := S) h.texts ⟨live, (h.machine, e)⟩
      (r := .closeSession key) nofun
    exact ⟨hs.1, fun _ => hs.2⟩

theorem within_setResolver (r : Resolver) (l : Link) :
    Within (Host.Spares S T) (l.setResolver r) := by
  intro h
  cases l with
  | direct n => exact Spares.ofMachine (h.machine.spares_setResolver n r)
  | channel c =>
    refine spares_onChannel fun live e _ => ?_
    unfold Channel.setResolver
    split
    · exact ⟨⟨h.machine.spares_setResolver e.interp _, rfl⟩, fun _ => rfl⟩
    · exact ⟨.refl _, fun _ => rfl⟩

/-- An operation spares all interpreters, except that a loading one does not spare its own. -/
theorem spares_perform {key : SessionKey} {op : Op} {l : Link}
    (hl : op.loads = true → ∀ k, h.interpAt l = some k → ¬ S k) :
    h.Spares S T (runOn h (l.perform key op)).2 := by
  cases l with
  | direct n =>
    exact Spares.ofMachine (h.machine.spares_perform (fun ho => hl ho n rfl) h.texts key)
  | channel c =>
    refine spares_onChannel fun live e hc => ?_
    have he := interpAt_channel hc
    have hs := Channel.spares_call (S := S) h.texts ⟨live, (h.machine, e)⟩
      (r := .act key op) fun ho => hl ho e.interp he
    exact ⟨hs.1, fun _ => hs.2⟩

theorem within_perform {key : SessionKey} {op : Op} (ho : op.loads = false) (l : Link) :
    Within (Host.Spares S T) (l.perform key op) :=
  fun _ => spares_perform fun hl => absurd (ho.symm.trans hl) Bool.false_ne_true

theorem within_performRef {key : SessionKey} {op : Op} (ho : op.loads = false) (l : Link) :
    Within (Host.Spares S T) (l.performRef key op) :=
  (within_perform ho l).bind fun _ => within_settle _

theorem spares_finalize {l : Link} (hl : ∀ k, h.interpAt l = some k → ¬ S k)
    (ht : ∀ c, l = .channel c → ¬ T c) : h.Spares S T (runOn h l.finalize).2 := by
  cases l with
  | direct n => exact Spares.ofMachine (Machine.spares_finalize (hl n rfl) _)
  | channel c =>
    refine spares_onChannel fun live e hc => ?_
    refine ⟨?_, fun hT => absurd hT (ht c rfl)⟩
    have he := interpAt_channel hc
    unfold Channel.finalize
    split
    · refine ⟨?_, rfl⟩
      have hclosed : ∀ (keys : List SessionKey) (m : Machine), m.Spares S
          (keys.foldl (fun m key => m.closeSession e.interp key) m) := by
        intro keys
        induction keys with
        | nil => exact fun m => .refl m
        | cons key keys ih =>
          exact fun m => (m.spares_closeSession e.interp key).trans (ih _)
      exact (hclosed e.served h.machine).trans (Machine.spares_finalize (hl _ he) _)
    · exact .refl _

theorem within_withSession {R : Host → Host → Prop} [Frame R] {l : Link}
    {f : SessionKey → HostM α} (ho : Within R l.openSession)
    (hc : ∀ key, Within R (l.closeSession key)) (hf : ∀ key, Within R (f key)) :
    Within R (l.withSession f) :=
  ho.bind fun key => (hf key).ensuring (hc key)

end Link

end InstancePool
