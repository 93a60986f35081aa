import InstancePool.Proofs.Host.RoutineActions
import InstancePool.Proofs.Image.EndOrder

/-!
What happens to images, and to what they made. Nothing does from day to day. An image has something put
down about it when it is opened, when it makes its interpreter, and when its instance goes away.
-/

namespace InstancePool

open HostM

namespace Host

/-- There was an attempt to open the image `a` of a loader. -/
def HasOpened (l : LoaderId) (a : Nat) (h : Host) : Prop :=
  ∃ loader, h.loaders[l]? = some loader ∧ a < loader.attempts

/-- The image `a` of a loader made the interpreter `k`. -/
def MadeBy (l : LoaderId) (a k : Nat) (h : Host) : Prop :=
  ∃ i, h.machine.interps[k]? = some i ∧ i.observer = some ⟨l, a⟩

/-- A link leads to the interpreter that the image `a` of a loader made. -/
def BelongsTo (l : LoaderId) (a : Nat) (link : Link) (h : Host) : Prop :=
  ∃ k, h.interpAt link = some k ∧ h.MadeBy l a k

/-- From a host to a later one with the same instances: something may have been put down about images in
`A`, and the channels to their interpreters may have been closed. All other images and channels are as
they were. -/
structure Tends (A : LoaderId → Nat → Prop) (h h' : Host) : Prop where
  recalls : h.machine.Recalls h'.machine
  journal : ∃ entries, h'.machine.journal = h.machine.journal ++ entries ∧
    ∀ l a, history l a entries = [] ∨ A l a ∧ h'.HasOpened l a
  channel : ∀ (c : Nat) (live : Bool) (e : Endpoint), h.channels[c]? = some ⟨live, .exported e⟩ →
    ∃ live' e', h'.channels[c]? = some ⟨live', .exported e'⟩ ∧ e'.interp = e.interp ∧
      ∀ l a, h.MadeBy l a e.interp → ¬ A l a → live' = live
  loaders : ∀ (l : Nat) (loader : Loader), h.loaders[l]? = some loader →
    ∃ loader', h'.loaders[l]? = some loader' ∧ loader'.behaviour = loader.behaviour ∧
      loader.attempts ≤ loader'.attempts
  instances : h'.instances = h.instances
  managers : ∀ manager ∈ h'.managers, ∃ manager' ∈ h.managers,
    manager'.instances = manager.instances

/-- What is known of a host as long as nothing is forgotten of images and interpreters. -/
class Abiding (P : Host → Prop) : Prop where
  keep : ∀ {A h h'}, Host.Tends A h h' → P h → P h'

/-- Images in `A` alone are tended to, starting where `P` holds. -/
def TendsIf (P : Host → Prop) (A : LoaderId → Nat → Prop) (h h' : Host) : Prop := P h → h.Tends A h'

variable {α : Type} {A B : LoaderId → Nat → Prop} {P : Host → Prop} {h h' h₁ h₂ h₃ : Host}
  {l : LoaderId} {a k : Nat} {link : Link}

theorem MadeBy.of_recalls (hm : h₁.MadeBy l a k) (hr : h₁.machine.Recalls h₂.machine) :
    h₂.MadeBy l a k := by
  obtain ⟨i, hi, ho⟩ := hm
  obtain ⟨i', hi', hs⟩ := hr k i hi
  exact ⟨i', hi', hs.observer.trans ho⟩

theorem Tends.hasOpened (ht : h₁.Tends A h₂) (ho : h₁.HasOpened l a) : h₂.HasOpened l a := by
  obtain ⟨loader, hl, hlt⟩ := ho
  obtain ⟨loader', hl', -, hle⟩ := ht.loaders l loader hl
  exact ⟨loader', hl', Nat.lt_of_lt_of_le hlt hle⟩

theorem Tends.refl (h : Host) : h.Tends A h where
  recalls := .refl _
  journal := ⟨[], (List.append_nil _).symm, fun _ _ => .inl rfl⟩
  channel _ live e hc := ⟨live, e, hc, rfl, fun _ _ _ _ => rfl⟩
  loaders _ loader hl := ⟨loader, hl, rfl, Nat.le_refl _⟩
  instances := rfl
  managers manager hm := ⟨manager, hm, rfl⟩

theorem Tends.trans (ht : h₁.Tends A h₂) (ht' : h₂.Tends A h₃) : h₁.Tends A h₃ where
  recalls := ht.recalls.trans ht'.recalls
  journal := by
    obtain ⟨entries, hj, hh⟩ := ht.journal
    obtain ⟨entries', hj', hh'⟩ := ht'.journal
    refine ⟨entries ++ entries', by rw [hj', hj, List.append_assoc], fun l a => ?_⟩
    rcases hh l a with he | ⟨hA, ho⟩
    · rcases hh' l a with he' | hA
      · exact .inl (by rw [history_append, he, he', List.append_nil])
      · exact .inr hA
    · exact .inr ⟨hA, ht'.hasOpened ho⟩
  channel c live e hc := by
    obtain ⟨live', e', hc', he', hlive⟩ := ht.channel c live e hc
    obtain ⟨live'', e'', hc'', he'', hlive'⟩ := ht'.channel c live' e' hc'
    refine ⟨live'', e'', hc'', he''.trans he', fun l a hm hA => ?_⟩
    exact (hlive' l a (he' ▸ hm.of_recalls ht.recalls) hA).trans (hlive l a hm hA)
  loaders l loader hl := by
    obtain ⟨loader', hl', hb, hle⟩ := ht.loaders l loader hl
    obtain ⟨loader'', hl'', hb', hle'⟩ := ht'.loaders l loader' hl'
    exact ⟨loader'', hl'', hb'.trans hb, Nat.le_trans hle hle'⟩
  instances := ht'.instances.trans ht.instances
  managers manager hm := by
    obtain ⟨manager', hm', he⟩ := ht'.managers manager hm
    obtain ⟨manager'', hm'', he'⟩ := ht.managers manager' hm'
    exact ⟨manager'', hm'', he'.trans he⟩

theorem Tends.mono (ht : h₁.Tends A h₂) (hab : ∀ l a, A l a → B l a) : h₁.Tends B h₂ := by
  obtain ⟨entries, hj, hh⟩ := ht.journal
  refine { ht with
    journal := ⟨entries, hj, fun l a => (hh l a).imp id fun hA => ⟨hab l a hA.1, hA.2⟩⟩
    channel := fun c live e hc => ?_ }
  obtain ⟨live', e', hc', he, hlive⟩ := ht.channel c live e hc
  exact ⟨live', e', hc', he, fun l a hm hB => hlive l a hm fun hA => hB (hab l a hA)⟩

instance : Frame (Tends A) where
  refl := .refl
  trans := .trans

instance [Abiding P] : Frame (TendsIf P A) where
  refl h _ := .refl h
  trans ht ht' hp := (ht hp).trans (ht' (Abiding.keep (ht hp) hp))

theorem Tends.interpAt (ht : h₁.Tends A h₂) (hk : h₁.interpAt link = some k) :
    h₂.interpAt link = some k := by
  cases link with
  | direct n => exact hk
  | channel c =>
    obtain ⟨live, e, hc, rfl⟩ := interpAt_channel_iff.1 hk
    obtain ⟨live', e', hc', he, -⟩ := ht.channel c live e hc
    rw [interpAt_channel hc', he]

instance : Abiding (HasOpened l a) where
  keep := Tends.hasOpened

instance : Abiding (BelongsTo l a link) where
  keep ht hp := by
    obtain ⟨k, hk, hm⟩ := hp
    exact ⟨k, ht.interpAt hk, hm.of_recalls ht.recalls⟩

/-- Images have no part in it. -/
theorem tends_of_quiet (hq : h.machine.Quiet h'.machine) (hc : h'.channels = h.channels)
    (hl : h'.loaders = h.loaders) (hi : h'.instances = h.instances)
    (hm : h'.managers = h.managers) : h.Tends A h' where
  recalls := hq.recalls
  journal := ⟨[], hq.journal.trans (List.append_nil _).symm, fun _ _ => .inl rfl⟩
  channel _ live e hce := ⟨live, e, by rw [hc, hce], rfl, fun _ _ _ _ => rfl⟩
  loaders _ loader hll := ⟨loader, by rw [hl, hll], rfl, Nat.le_refl _⟩
  instances := hi
  managers manager hmm := ⟨manager, hm ▸ hmm, rfl⟩

/-- Interpreters alone take part, and their images are told. -/
theorem tends_of_machine {m : Machine} {entries : List JournalEntry}
    (hr : h.machine.Recalls m) (hj : m.journal = h.machine.journal ++ entries)
    (hh : ∀ l a, history l a entries = [] ∨ A l a ∧ h.HasOpened l a) :
    h.Tends A { h with machine := m } :=
  { Tends.refl h with
    recalls := hr
    journal := ⟨entries, hj, hh⟩ }

/-- An endpoint and its channel took a step. The channel may be closed if no image outside `A` made the
interpreter. -/
theorem tends_of_channel {c : Nat} {live live' : Bool} {e e' : Endpoint} {m : Machine}
    (hc : h.channels[c]? = some ⟨live, .exported e⟩) (ht : h.Tends A { h with machine := m })
    (he : e'.interp = e.interp)
    (hlive : ∀ l a, h.MadeBy l a e.interp → ¬ A l a → live' = live) :
    h.Tends A { h with machine := m, channels := h.channels.set c ⟨live', .exported e'⟩ } := by
  refine { ht with channel := fun c' live₁ e₁ hc' => ?_ }
  by_cases hcc : c = c'
  · subst hcc
    obtain ⟨rfl, rfl⟩ : live = live₁ ∧ e = e₁ := by
      rw [hc] at hc'
      cases hc'
      exact ⟨rfl, rfl⟩
    exact ⟨live', e', List.getElem?_set_self (List.getElem?_eq_some_iff.1 hc).1, he, hlive⟩
  · exact ⟨live₁, e₁, (List.getElem?_set_ne hcc).trans hc', rfl, fun _ _ _ _ => rfl⟩

/-- A step of a channel, where the step of an endpoint is known. What a script does is no image's
business. -/
theorem tends_onChannel {c : Nat} {f : ChannelStep α}
    (hf : ∀ live e, h.channels[c]? = some ⟨live, .exported e⟩ →
      let x := (f (Endpoint.image h.texts) ⟨live, (h.machine, e)⟩).2
      h.Tends A { h with machine := x.peer.1 } ∧ x.peer.2.interp = e.interp ∧
        ∀ l a, h.MadeBy l a e.interp → ¬ A l a → x.live = live) :
    h.Tends A (runOn h (onChannel c f)).2 := by
  unfold onChannel
  rw [runOn_of]
  split
  · exact .refl h
  · rename_i live e hc
    obtain ⟨ht, he, hlive⟩ := hf live e hc
    exact tends_of_channel hc ht he hlive
  · rename_i live s hc
    refine { Tends.refl h with channel := fun c' live' e' hc' => ?_ }
    have hne : c ≠ c' := by
      rintro rfl
      rw [hc] at hc'
      cases hc'
    exact ⟨live', e', (List.getElem?_set_ne hne).trans hc', rfl, fun _ _ _ _ => rfl⟩

theorem tends_onChannel_of_quiet {c : Nat} {f : ChannelStep α}
    (hf : ∀ live e, Channel.Quiet ⟨live, (h.machine, e)⟩
      (f (Endpoint.image h.texts) ⟨live, (h.machine, e)⟩).2) :
    h.Tends A (runOn h (onChannel c f)).2 :=
  tends_onChannel fun live e _ =>
    ⟨tends_of_quiet (hf live e).machine rfl rfl rfl rfl, (hf live e).interp,
      fun _ _ _ _ => (hf live e).live⟩

instance : Daily (Tends A) where
  openSession l h := by
    cases l with
    | direct n => exact tends_of_quiet (Machine.quiet_openSession n _) rfl rfl rfl rfl
    | channel c => exact tends_onChannel_of_quiet fun live e => Channel.quiet_call _ .openSession _
  perform l key op h := by
    cases l with
    | direct n => exact tends_of_quiet (Machine.quiet_perform _ n key op _) rfl rfl rfl rfl
    | channel c =>
      exact tends_onChannel_of_quiet fun live e => Channel.quiet_call _ (.act key op) _
  closeSession l key h := by
    cases l with
    | direct n => exact tends_of_quiet (Machine.quiet_closeSession n key _) rfl rfl rfl rfl
    | channel c =>
      exact tends_onChannel_of_quiet fun live e => Channel.quiet_call _ (.closeSession key) _
  setResolver l r h := by
    cases l with
    | direct n => exact tends_of_quiet (Machine.quiet_setResolver n r _) rfl rfl rfl rfl
    | channel c => exact tends_onChannel_of_quiet fun live e => Channel.quiet_setResolver _ r _
  books h _ _ _ _ _ _ := tends_of_quiet (.refl _) rfl rfl rfl rfl
  counts h m manager nextObject hm := by
    refine { Tends.refl h with managers := fun manager' hmem => ?_ }
    rcases List.mem_or_eq_of_mem_set hmem with hmem | rfl
    · exact ⟨manager', hmem, rfl⟩
    · exact ⟨manager, List.mem_of_getElem? hm, rfl⟩

/-- Channels are added. -/
theorem tends_of_channels {channels : List (Channel Peer)} (hc : h.channels <+: channels) :
    h.Tends A { h with channels } := by
  obtain ⟨added, rfl⟩ := hc
  refine { Tends.refl h with channel := fun c live e hc => ?_ }
  refine ⟨live, e, ?_, rfl, fun _ _ _ _ => rfl⟩
  exact (List.getElem?_append_left (List.getElem?_eq_some_iff.1 hc).1).trans hc

theorem tends_addChannel (peer : Peer) : Within (Tends A) (addChannel peer) :=
  fun _ => tends_of_channels (List.prefix_append _ _)

end Host

namespace Machine

variable {m : Machine} {n : Nat}

/-- The image of an interpreter is told that it was finalized, and nobody else is. -/
theorem finalize_journal (n : Nat) (m : Machine) :
    ∃ entries, (m.finalize n).2.journal = m.journal ++ entries ∧ ∀ l a, history l a entries = [] ∨
      ∃ i, m.interps[n]? = some i ∧ i.observer = some ⟨l, a⟩ := by
  cases hi : m.interps[n]? with
  | none =>
    simp only [finalize, hi]
    exact ⟨[], (List.append_nil _).symm, fun _ _ => .inl rfl⟩
  | some i =>
    obtain ⟨-, -, hj⟩ := finalize_some hi
    refine ⟨_, hj, fun l a => ?_⟩
    cases ho : i.observer with
    | none => exact .inl rfl
    | some o =>
      by_cases he : o = ⟨l, a⟩
      · exact .inr ⟨i, rfl, ho.trans (congrArg some he)⟩
      · refine .inl ((history_images l o.loader a o.image [.finalized]).trans (if_neg fun hla => he ?_))
        rw [← hla.1, ← hla.2]

end Machine

namespace Host

variable {A : LoaderId → Nat → Prop} {P : Host → Prop} {h : Host} {l : LoaderId} {a : Nat}
  {link : Link}

/-- An interpreter is finalized. If an image made it, that image was opened and is in `A`. -/
theorem tends_machine_finalize {m : Machine} {k : Nat} (hq : h.machine.Quiet m)
    (hlen : m.interps.length = h.machine.interps.length)
    (hk : ∀ l a, h.MadeBy l a k → A l a ∧ h.HasOpened l a) :
    h.Tends A { h with machine := (m.finalize k).2 } := by
  obtain ⟨entries, hj, hh⟩ := m.finalize_journal k
  refine tends_of_machine (hq.recalls.trans (m.recalls_finalize k))
    (hj.trans (congrArg (· ++ entries) hq.journal)) fun l a => (hh l a).imp id fun hm => hk l a ?_
  obtain ⟨i, hi, ho⟩ := hm
  -- It is an interpreter that was there before.
  have hlt : k < h.machine.interps.length := hlen ▸ (List.getElem?_eq_some_iff.1 hi).1
  have hi₀ : h.machine.interps[k]? = some h.machine.interps[k] := List.getElem?_eq_getElem hlt
  obtain ⟨i', hi', hs⟩ := hq.recalls k _ hi₀
  obtain rfl := Option.some.inj (hi.symm.trans hi')
  exact ⟨_, hi₀, hs.observer.symm.trans ho⟩

theorem tends_finalize
    (hl : ∀ k l a, h.interpAt link = some k → h.MadeBy l a k → A l a ∧ h.HasOpened l a) :
    h.Tends A (runOn h link.finalize).2 := by
  cases link with
  | direct n => exact tends_machine_finalize (.refl _) rfl fun l a => hl n l a rfl
  | channel c =>
    refine tends_onChannel fun live e hc => ?_
    have hmade (l : LoaderId) (a : Nat) := hl e.interp l a (interpAt_channel hc)
    cases live with
    | false => exact ⟨.refl h, rfl, fun _ _ _ _ => rfl⟩
    | true =>
      exact ⟨tends_machine_finalize (Machine.quiet_closeSessions _ _ _)
        (Machine.length_closeSessions _ _ _) hmade, rfl,
        fun l a hm hA => absurd (hmade l a hm).1 hA⟩

/-- Something is put down about an image. -/
theorem tends_record (hA : A l a) (event : ImageEvent) :
    Within (TendsIf (HasOpened l a) A) (record (.image l a event)) := by
  intro h ho
  refine tends_of_machine (.refl _) rfl fun l' a' => ?_
  by_cases he : l = l' ∧ a = a'
  · obtain ⟨rfl, rfl⟩ := he
    exact .inr ⟨hA, ho⟩
  · exact .inl ((history_images l' l a' a [event]).trans (if_neg he))

theorem tends_finalize_belongs (hA : A l a) :
    Within (TendsIf (fun h => h.HasOpened l a ∧ h.BelongsTo l a link) A) link.finalize := by
  rintro h ⟨ho, k, hk, i, hi, hobserver⟩
  refine tends_finalize fun k' l' a' hk' hm => ?_
  obtain ⟨i', hi', hobserver'⟩ := hm
  obtain rfl := Option.some.inj (hk.symm.trans hk')
  obtain rfl := Option.some.inj (hi.symm.trans hi')
  cases hobserver.symm.trans hobserver'
  exact ⟨hA, ho⟩

end Host

end InstancePool
