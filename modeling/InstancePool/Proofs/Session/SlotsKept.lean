import InstancePool.Host.Boundary
import InstancePool.Proofs.Host.RecordInvariants
import InstancePool.Proofs.Interp.SessionSlots
import InstancePool.Proofs.Instance.LoadSteps

/-!
What the actions of a host do to the sessions that it has open. All but a few leave every session with
the slots that it had: they may open sessions of their own, which have keys of their own.
-/

namespace InstancePool

open HostM

namespace Host

/-- The channel of a link is closed. -/
def Cut (h : Host) (l : Link) : Prop :=
  ∃ c e, l = .channel c ∧ h.channels[c]? = some ⟨false, .exported e⟩

/-- There is a channel to what a link leads to. -/
def Known (h : Host) : Link → Prop
  | .direct _ => True
  | .channel c => c < h.channels.length

/-- No endpoint serves a session whose key is yet to be given out. -/
def KeysGiven (h : Host) : Prop :=
  ∀ (c : Nat) (live : Bool) (e : Endpoint), h.channels[c]? = some ⟨live, .exported e⟩ →
    ∀ key ∈ e.served, key.rank < h.machine.given

/-- A session that was opened through a link has the given slots, unless its channel is closed. No
other channel serves it. -/
structure Issued (h : Host) (l : Link) (key : SessionKey) (slots : List ObjectIndex) : Prop where
  old : key.rank < h.machine.given
  leads : ∃ k, h.interpAt l = some k
  alone : ∀ c live e, h.channels[c]? = some ⟨live, .exported e⟩ → key ∈ e.served → l = .channel c
  slots : h.Cut l ∨ h.Served l key ∧ h.slotsAt l key = some slots

/-- From a host to a later one: the sessions are as they were, except those with keys in `K`. -/
structure Carries (K : SessionKey → Prop) (h h' : Host) : Prop where
  numbered : h.KeysGiven → h'.KeysGiven
  issued : ∀ l key slots, ¬ K key → h.Issued l key slots → h'.Issued l key slots

/-- The keys suffice for the sessions that were opened in between. -/
def Fits (h h' : Host) : Prop :=
  h.machine.given + (h'.machine.nextKey - h.machine.nextKey).toNat < 2 ^ 64

/-- A manager has the instances that it had, or is new. Their number fits into 64 bits. -/
def Enlists (h h' : Host) : Prop :=
  ∀ manager ∈ h'.managers, manager.instances.length < 2 ^ 64 ∨
    ∃ manager' ∈ h.managers, manager'.instances = manager.instances

/-- From a host to a later one, in which at most `n` sessions were opened that the host does not know.
As long as the keys suffice, the sessions that it knows are as they were, except those with keys in
`K`. -/
structure Keeps (n : Nat) (K : SessionKey → Prop) (h h' : Host) : Prop where
  sessions : h'.sessions = h.sessions
  nextSession : h'.nextSession = h.nextSession
  enlists : h.Enlists h'
  leads : ∀ l, h.Known l → h'.Known l ∧ h'.interpAt l = h.interpAt l
  opened : ∃ j ≤ n, h'.machine.nextKey = h.machine.nextKey + UInt64.ofNat j ∧
    (h.machine.given + j < 2 ^ 64 → h.Carries K h')

variable {α : Type} {n n' : Nat} {K L : SessionKey → Prop} {h h' h₁ h₂ h₃ : Host}

theorem fits_iff {j : Nat} (hn : h'.machine.nextKey = h.machine.nextKey + UInt64.ofNat j)
    (hj : j < 2 ^ 64) : h.Fits h' ↔ h.machine.given + j < 2 ^ 64 := by
  have hsub : (h'.machine.nextKey - h.machine.nextKey).toNat = j := by
    have hlt := h.machine.nextKey.toNat_lt
    simp only [hn, UInt64.toNat_sub, UInt64.toNat_add, UInt64.toNat_ofNat']
    omega
  rw [Fits, hsub]

theorem given_of_fits (hfit : h.Fits h') :
    h'.machine.given = h.machine.given + (h'.machine.nextKey - h.machine.nextKey).toNat := by
  refine Machine.given_add ?_ hfit
  rw [UInt64.ofNat_toNat, UInt64.add_comm, UInt64.sub_add_cancel]

theorem enlists_of_eq (hm : h'.managers = h.managers) : h.Enlists h' :=
  fun manager hmem => .inr ⟨manager, hm ▸ hmem, rfl⟩

theorem Enlists.trans (he : h₁.Enlists h₂) (he' : h₂.Enlists h₃) : h₁.Enlists h₃ := by
  intro manager hmem
  rcases he' manager hmem with hlt | ⟨manager', hmem', heq⟩
  · exact .inl hlt
  · rw [← heq]
    exact he manager' hmem'

theorem known_iff {l : Link} :
    h.Known l ↔ ∀ c, l = .channel c → c < h.channels.length := by
  cases l with
  | direct k => exact iff_of_true trivial fun c hc => (by cases hc)
  | channel c =>
    refine ⟨fun hl c' hc => ?_, fun hl => hl c rfl⟩
    cases hc
    exact hl

/-- It does not matter what the host keeps besides. -/
theorem Issued.of_same {l : Link} {key : SessionKey} {slots : List ObjectIndex}
    (hi : h.Issued l key slots) (hm : h'.machine = h.machine) (hc : h'.channels = h.channels) :
    h'.Issued l key slots := by
  refine ⟨hm ▸ hi.old, interpAt_congr hc l ▸ hi.leads, hc ▸ hi.alone, hi.slots.imp ?_ ?_⟩
  · rintro ⟨c, e, rfl, he⟩
    exact ⟨c, e, rfl, hc ▸ he⟩
  · rintro ⟨hserved, hslots⟩
    refine ⟨fun c he => hc ▸ hserved c he, ?_⟩
    rw [slotsAt, interpAt_congr hc, hm]
    exact hslots

theorem known_of_interpAt {l : Link} {k : Nat} (hl : h.interpAt l = some k) : h.Known l := by
  rw [known_iff]
  rintro c rfl
  by_cases hc : c < h.channels.length
  · exact hc
  · simp only [interpAt, List.getElem?_eq_none (Nat.le_of_not_lt hc)] at hl
    cases hl

/-- The endpoints serve what they served and what was opened, and the slots of the sessions that the host
knows are where they were. -/
theorem keeps_intro {j : Nat} (hj : j ≤ n) (hs : h'.sessions = h.sessions)
    (hns : h'.nextSession = h.nextSession) (he : h.Enlists h')
    (hleads : ∀ l, h.Known l → h'.Known l ∧ h'.interpAt l = h.interpAt l)
    (hn : h'.machine.nextKey = h.machine.nextKey + UInt64.ofNat j)
    (hback : ∀ (c : Nat) (live' : Bool) (e' : Endpoint),
      h'.channels[c]? = some ⟨live', .exported e'⟩ → ∀ key ∈ e'.served,
      (∃ (live : Bool) (e : Endpoint), h.channels[c]? = some ⟨live, .exported e⟩ ∧ key ∈ e.served) ∨
        key = ⟨h.machine.nextKey⟩ ∧ j = 1)
    (hslots : ∀ l key slots, ¬ K key → h.Issued l key slots →
      h'.Cut l ∨ h'.Served l key ∧ h'.slotsAt l key = some slots) : h.Keeps n K h' := by
  refine ⟨hs, hns, he, hleads, j, hj, hn, fun hfit => ?_⟩
  have hgiven : h'.machine.given = h.machine.given + j := Machine.given_add hn hfit
  refine ⟨fun hnum c live' e' he key hk => ?_, fun l key slots hk hi => ?_⟩
  · rw [hgiven]
    rcases hback c live' e' he key hk with ⟨live, e, hc, hserved⟩ | ⟨rfl, rfl⟩
    · exact Nat.lt_of_lt_of_le (hnum c live e hc key hserved) (Nat.le_add_right _ _)
    · exact Nat.lt_succ_self _
  · obtain ⟨k, hat⟩ := hi.leads
    refine ⟨?_, ⟨k, ?_⟩, fun c live' e' he hserved => ?_, hslots l key slots hk hi⟩
    · rw [hgiven]
      exact Nat.lt_of_lt_of_le hi.old (Nat.le_add_right _ _)
    · rw [(hleads l (known_of_interpAt hat)).2, hat]
    · rcases hback c live' e' he key hserved with ⟨live, e, hc, hserved⟩ | ⟨rfl, -⟩
      · exact hi.alone c live e hc hserved
      · exact absurd rfl (Machine.ne_nextKey hi.old)

/-- Slots are found again if the link leads where it led. -/
theorem slotsAt_of_retains {l : Link} {key : SessionKey} {slots : List ObjectIndex}
    (hat : h'.interpAt l = h.interpAt l) (hr : h.machine.Retains key h'.machine)
    (hs : h.slotsAt l key = some slots) : h'.slotsAt l key = some slots := by
  obtain ⟨k, hk, hk'⟩ := Option.bind_eq_some_iff.1 hs
  rw [slotsAt, hat, hk]
  exact hr k slots hk'

/-- What else changes is of no account, as long as the channels are the same. -/
theorem keeps_of_machine {j : Nat} (hj : j ≤ n) (hs : h'.sessions = h.sessions)
    (hns : h'.nextSession = h.nextSession) (he : h.Enlists h') (hc : h'.channels = h.channels)
    (hn : h'.machine.nextKey = h.machine.nextKey + UInt64.ofNat j)
    (hr : ∀ key, key.rank < h.machine.given → ¬ K key → h.machine.Retains key h'.machine) :
    h.Keeps n K h' := by
  refine keeps_intro hj hs hns he (fun l hl => ⟨?_, interpAt_congr hc l⟩) hn
    (fun c live e he key hk => ?_) fun l key slots hk hi => ?_
  · rw [known_iff] at hl ⊢
    rw [hc]
    exact hl
  · rw [hc] at he
    exact .inl ⟨live, e, he, hk⟩
  · refine hi.slots.imp ?_ ?_
    · rintro ⟨c, e, rfl, he⟩
      exact ⟨c, e, rfl, by rw [hc, he]⟩
    · rintro ⟨hserved, hslots⟩
      refine ⟨fun c he => ?_, slotsAt_of_retains (interpAt_congr hc l) (hr key hi.old hk) hslots⟩
      rw [hc]
      exact hserved c he

theorem Keeps.refl (h : Host) : h.Keeps n K h :=
  keeps_of_machine (Nat.zero_le n) rfl rfl (enlists_of_eq rfl) rfl (UInt64.add_zero _).symm
    fun key _ _ => .refl key _

/-- The sessions that the second part touches are touched as a whole, or were opened by the first. -/
theorem Keeps.trans (hk : h₁.Keeps n K h₂) (hk' : h₂.Keeps n' L h₃)
    (hl : ∀ key, key.rank < h₁.machine.given → L key → K key) : h₁.Keeps (n + n') K h₃ := by
  obtain ⟨j, hj, hnext, hcarry⟩ := hk.opened
  obtain ⟨j', hj', hnext', hcarry'⟩ := hk'.opened
  refine ⟨hk'.sessions.trans hk.sessions, hk'.nextSession.trans hk.nextSession,
    hk.enlists.trans hk'.enlists, fun l hl => ?_, j + j', Nat.add_le_add hj hj', ?_, fun hfit => ?_⟩
  · obtain ⟨hl₂, hat₂⟩ := hk.leads l hl
    obtain ⟨hl₃, hat₃⟩ := hk'.leads l hl₂
    exact ⟨hl₃, hat₃.trans hat₂⟩
  · rw [hnext', hnext, UInt64.ofNat_add, UInt64.add_assoc]
  · have hgiven : h₂.machine.given = h₁.machine.given + j := Machine.given_add hnext (by omega)
    have hc := hcarry (by omega)
    have hc' := hcarry' (by omega)
    exact ⟨fun hnum => hc'.numbered (hc.numbered hnum), fun l key slots hn hi =>
      hc'.issued l key slots (fun hkey => hn (hl key hi.old hkey)) (hc.issued l key slots hn hi)⟩

theorem Keeps.carries (hk : h.Keeps n K h') (hn : n < 2 ^ 64) (hfit : h.Fits h') :
    h.Carries K h' := by
  obtain ⟨j, hj, hnext, hcarry⟩ := hk.opened
  exact hcarry ((fits_iff hnext (by omega)).1 hfit)

theorem Keeps.nextKey_eq (hk : h.Keeps 0 K h') : h'.machine.nextKey = h.machine.nextKey := by
  obtain ⟨j, hj, hnext, -⟩ := hk.opened
  obtain rfl := Nat.le_zero.1 hj
  exact hnext.trans (UInt64.add_zero _)

/-- There is always room for no session. -/
theorem fits_of_nextKey_eq (hn : h'.machine.nextKey = h.machine.nextKey) : h.Fits h' := by
  refine (fits_iff (j := 0) (hn.trans (UInt64.add_zero _).symm) (by decide)).2 ?_
  exact UInt64.toNat_lt _

theorem Keeps.mono (hk : h.Keeps n K h') (hn : n ≤ n')
    (hl : ∀ key, key.rank < h.machine.given → K key → L key) : h.Keeps n' L h' := by
  obtain ⟨j, hj, hnext, hcarry⟩ := hk.opened
  refine ⟨hk.sessions, hk.nextSession, hk.enlists, hk.leads, j, Nat.le_trans hj hn, hnext, fun hfit => ?_⟩
  have hc := hcarry hfit
  exact ⟨hc.numbered, fun l key slots hn hi =>
    hc.issued l key slots (fun hkey => hn (hl key hi.old hkey)) hi⟩

instance : Aside (Keeps 0 K) where
  refl := .refl
  trans hk hk' := hk.trans hk' fun _ _ => id
  supplies _ _ _ _ := keeps_of_machine (Nat.le_refl 0) rfl rfl (enlists_of_eq rfl) rfl
    (UInt64.add_zero _).symm fun key _ _ => .refl key _
  record _ _ := keeps_of_machine (Nat.le_refl 0) rfl rfl (enlists_of_eq rfl) rfl
    (UInt64.add_zero _).symm fun _ _ _ _ _ => id

/-- One action after another, when what the second one does depends on what came before. -/
theorem Keeps.bind_rel {β : Type} {m n n' : Nat} {x : HostM α} {f : α → HostM β}
    (hx : h.Keeps n K (runOn h x).2)
    (hf : ∀ a h', runOn h x = (.ok a, h') → h'.Keeps n' K (runOn h' (f a)).2) (hm : n + n' ≤ m) :
    h.Keeps m K (runOn h (x >>= f)).2 := by
  rw [runOn_bind]
  rcases hr : runOn h x with ⟨e | a, h₁⟩
  · rw [hr] at hx
    exact hx.mono (by omega) fun _ _ => id
  · rw [hr] at hx
    exact (hx.trans (hf a h₁ hr) fun _ _ => id).mono hm fun _ _ => id

theorem Keeps.bind {β : Type} {m n n' : Nat} {x : HostM α} {f : α → HostM β}
    (hx : Within (Keeps n K) x) (hf : ∀ a, Within (Keeps n' K) (f a)) (hm : n + n' ≤ m) :
    Within (Keeps m K) (x >>= f) :=
  fun h => bind_rel (hx h) (fun a h' _ => hf a h') hm

/-- The rest of the books is of no account. -/
theorem keeps_of_books (hm : h'.machine = h.machine) (hc : h'.channels = h.channels)
    (hs : h'.sessions = h.sessions) (hns : h'.nextSession = h.nextSession) (he : h.Enlists h') :
    h.Keeps n K h' := by
  refine keeps_of_machine (Nat.zero_le n) hs hns he hc ?_ fun key _ _ => ?_
  · rw [hm]
    exact (UInt64.add_zero _).symm
  · rw [hm]
    exact .refl key _

/-- An endpoint and its channel took a step. -/
theorem keeps_of_minds {c opened : Nat} {live live' : Bool} {e e' : Endpoint} {m' : Machine}
    (hc : h.channels[c]? = some ⟨live, .exported e⟩) (ho : opened ≤ n)
    (hm : Channel.Minds K opened ⟨live, (h.machine, e)⟩ ⟨live', (m', e')⟩) :
    h.Keeps n K { h with machine := m', channels := h.channels.set c ⟨live', .exported e'⟩ } := by
  have hlt : c < h.channels.length := (List.getElem?_eq_some_iff.1 hc).1
  have hself : (h.channels.set c ⟨live', .exported e'⟩)[c]? = some ⟨live', .exported e'⟩ :=
    List.getElem?_set_self hlt
  have hother (c' : Nat) (hne : c ≠ c') :
      (h.channels.set c ⟨live', .exported e'⟩)[c']? = h.channels[c']? := List.getElem?_set_ne hne
  have hat (l : Link) : interpAt { h with
      machine := m', channels := h.channels.set c ⟨live', .exported e'⟩ } l = h.interpAt l := by
    cases l with
    | direct k => rfl
    | channel c' =>
      by_cases he : c = c'
      · subst he
        rw [interpAt_channel hself, interpAt_channel hc, hm.interp]
      · simp only [interpAt, hother c' he]
  refine keeps_intro ho rfl rfl (enlists_of_eq rfl) (fun l hl => ⟨?_, hat l⟩) hm.nextKey
    (fun c' live'' e'' he key hk => ?_) fun l key slots hkey hi => ?_
  · rw [known_iff] at hl ⊢
    simpa only [List.length_set] using hl
  · by_cases hcc : c = c'
    · subst hcc
      rw [hself] at he
      cases he
      exact (hm.served key hk).imp_left fun hs => ⟨live, e, hc, hs⟩
    · rw [hother c' hcc] at he
      exact .inl ⟨live'', e'', he, hk⟩
  -- The session is at this channel, or elsewhere.
  · by_cases hl : l = .channel c
    · subst hl
      rcases hi.slots with ⟨c', e'', hc', hcut⟩ | ⟨hserved, hslots⟩
      · cases hc'
        rw [hc] at hcut
        cases hcut
        obtain rfl : live' = false := hm.closed rfl
        exact .inl ⟨c, e', rfl, hself⟩
      · obtain ⟨e'', he, hs⟩ := hserved c rfl
        rw [hc] at he
        cases he
        rcases hm.here key hs hi.old hkey with hdead | ⟨hlive, hs', hr⟩
        · obtain rfl : live' = false := hdead
          exact .inl ⟨c, e', rfl, hself⟩
        · obtain rfl : live' = true := hlive
          refine .inr ⟨fun c' hc' => ?_, slotsAt_of_retains (hat _) hr hslots⟩
          cases hc'
          exact ⟨e', hself, hs'⟩
    · have hne (c' : Nat) (hc' : l = .channel c') : c ≠ c' := by
        rintro rfl
        exact hl hc'
      have haway : h.machine.Retains key m' :=
        hm.away key (fun hs => hl (hi.alone c live e hc hs)) hi.old hkey
      refine hi.slots.imp ?_ ?_
      · rintro ⟨c', e'', rfl, hcut⟩
        exact ⟨c', e'', rfl, (hother c' (hne c' rfl)).trans hcut⟩
      · rintro ⟨hserved, hslots⟩
        refine ⟨fun c' hc' => ?_, slotsAt_of_retains (hat l) haway hslots⟩
        obtain ⟨e'', he, hs⟩ := hserved c' hc'
        exact ⟨e'', (hother c' (hne c' hc')).trans he, hs⟩

/-- The channels to interpreters are those that there were, and maybe new ones that serve no session. -/
theorem keeps_of_channels {cs : List (Channel Peer)} (hlen : h.channels.length ≤ cs.length)
    (hold : ∀ c < h.channels.length, ∀ (live : Bool) (e : Endpoint),
      cs[c]? = some ⟨live, .exported e⟩ ↔ h.channels[c]? = some ⟨live, .exported e⟩)
    (hnew : ∀ (c : Nat) (live : Bool) (e : Endpoint), h.channels.length ≤ c →
      cs[c]? = some ⟨live, .exported e⟩ → e.served = []) : h.Keeps n K { h with channels := cs } := by
  have hback (c : Nat) (live : Bool) (e : Endpoint) (hc : h.channels[c]? = some ⟨live, .exported e⟩) :
      cs[c]? = some ⟨live, .exported e⟩ :=
    (hold c (List.getElem?_eq_some_iff.1 hc).1 live e).2 hc
  -- A link that the host knows leads where it led.
  have hat (l : Link) (hl : h.Known l) : interpAt { h with channels := cs } l = h.interpAt l := by
    cases l with
    | direct k => rfl
    | channel c =>
      have hiff (k : Nat) : interpAt { h with channels := cs } (.channel c) = some k ↔
          h.interpAt (.channel c) = some k := by
        rw [interpAt_channel_iff, interpAt_channel_iff]
        simp only [hold c hl]
      exact Option.ext hiff
  refine keeps_intro (Nat.zero_le n) rfl rfl (enlists_of_eq rfl) (fun l hl => ⟨?_, hat l hl⟩)
    (UInt64.add_zero _).symm (fun c live e he key hk => ?_) fun l key slots _ hi => ?_
  · rw [known_iff] at hl ⊢
    exact fun c hc => Nat.lt_of_lt_of_le (hl c hc) hlen
  · by_cases hc : c < h.channels.length
    · exact .inl ⟨live, e, (hold c hc live e).1 he, hk⟩
    · rw [hnew c live e (Nat.le_of_not_lt hc) he] at hk
      exact absurd hk List.not_mem_nil
  · obtain ⟨k, hk⟩ := hi.leads
    refine hi.slots.imp ?_ ?_
    · rintro ⟨c, e, rfl, he⟩
      exact ⟨c, e, rfl, hback c false e he⟩
    · rintro ⟨hserved, hslots⟩
      refine ⟨fun c hc => ?_, slotsAt_of_retains (hat l (known_of_interpAt hk)) (.refl key _) hslots⟩
      obtain ⟨e, he, hs⟩ := hserved c hc
      exact ⟨e, hback c true e he, hs⟩

/-- A step of a channel opens as many sessions as the step of the image, and touches the same. -/
theorem keeps_onChannel {c : Nat} {f : ChannelStep α}
    (hf : ∀ live e, h.channels[c]? = some ⟨live, .exported e⟩ →
      ∃ opened ≤ n, Channel.Minds K opened ⟨live, (h.machine, e)⟩
        (f (Endpoint.image h.texts) ⟨live, (h.machine, e)⟩).2) :
    h.Keeps n K (runOn h (onChannel c f)).2 := by
  unfold onChannel
  rw [runOn_of]
  split
  · exact .refl h
  · rename_i live e hc
    obtain ⟨opened, ho, hm⟩ := hf live e hc
    exact keeps_of_minds hc ho hm
  · rename_i live s hc
    have hlt : c < h.channels.length := (List.getElem?_eq_some_iff.1 hc).1
    refine keeps_of_channels (Nat.le_of_eq List.length_set.symm) (fun c' _ live' e => ?_)
      fun c' live' e hle he => ?_
    · by_cases hcc : c = c'
      · subst hcc
        rw [List.getElem?_set_self hlt, hc]
        refine iff_of_false (fun he => ?_) fun he => ?_
        · cases he
        · cases he
      · rw [List.getElem?_set_ne hcc]
    · have hlt' := (List.getElem?_eq_some_iff.1 he).1
      rw [List.length_set] at hlt'
      omega

/-- A new channel serves no session. -/
theorem keeps_addChannel {peer : Peer} (hp : ∀ e, peer = .exported e → e.served = []) :
    Within (Keeps n K) (addChannel peer) := by
  intro h
  simp only [addChannel, runOn_of]
  refine keeps_of_channels (by simp only [List.length_append, Nat.le_add_right])
    (fun c hc live e => by rw [List.getElem?_append_left hc]) fun c live e hle he => ?_
  rw [List.getElem?_append_right hle] at he
  have hmem := List.mem_of_getElem? he
  rw [List.mem_singleton] at hmem
  cases hmem
  exact hp e rfl

/-- The session `key` at the other end of a link may be used or closed. A script is no interpreter's
business. -/
def Uses (l : Link) (key : SessionKey) (h h' : Host) : Prop :=
  h.Known l → h.Keeps 0 (fun key' => key' = key ∧ ∃ k, h.interpAt l = some k) h'

instance {l : Link} {key : SessionKey} : Frame (Uses l key) where
  refl h _ := .refl h
  trans hu hu' hl := by
    obtain ⟨hl₂, hat⟩ := (hu hl).leads l hl
    exact (hu hl).trans (hu' hl₂) fun key' _ hk => ⟨hk.1, hat ▸ hk.2⟩

end Host

/-- An image that refuses to open a session does so through a channel, too. -/
theorem Channel.openSession_refused (source : TextSource) {m : Machine} {e : Endpoint}
    {cause : Error} (ho : (m.openSession e.interp).1 = .error cause) :
    ∃ f, (Channel.openSession (Endpoint.image source) ⟨true, (m, e)⟩).1 = .error f := by
  have hs : Endpoint.serve source .openSession (m, e) = (.error cause.toFault, (m, e)) := by
    have hm := Machine.openSession_error ho
    simp only [Endpoint.serve]
    rcases hx : m.openSession e.interp with ⟨result, m'⟩
    rw [hx] at ho hm
    obtain rfl : result = .error cause := ho
    obtain rfl : m' = m := hm
    rfl
  have hb : Wire.encodeRequest .openSession = .ok (Wire.bytesOfNat32 0) := rfl
  have hd : Wire.decodeRequest (Wire.bytesOfNat32 0) = .ok .openSession := by
    have h0 := Wire.length_bytesOfNat32_le 0
    have hread := Wire.decodeRequest_encodeRequest hb (by omega) []
    rwa [List.append_nil] at hread
  obtain ⟨f, hf⟩ := hear_error Request.openSession.name cause.toFault
  refine ⟨f, ?_⟩
  simp only [Channel.openSession, call_hear hb, hd, hs, hf, extract]

namespace Link

open Host

variable {α : Type} {K : SessionKey → Prop} {h h' : Host} {l : Link} {key : SessionKey}

theorem keeps_openSession (l : Link) : Within (Keeps 1 K) l.openSession := by
  intro h
  cases l with
  | direct n =>
    simp only [openSession, ofMachine, runOn_of]
    cases ho : (h.machine.openSession n).1 with
    | error cause =>
      rw [Machine.openSession_error ho]
      exact .refl h
    | ok key =>
      exact keeps_of_machine (Nat.le_refl 1) rfl rfl (enlists_of_eq rfl) rfl
        (Machine.openSession_result ho).2.1 fun key hold _ => Machine.retains_openSession hold
  | channel c =>
    refine keeps_onChannel fun live e _ => ?_
    obtain ⟨opened, ho, hm⟩ := Channel.minds_call h.texts .openSession ⟨live, (h.machine, e)⟩
    exact ⟨opened, ho, hm.mono fun key hk => hk.elim⟩

/-- A session that was opened has the next key and has handed out nothing. -/
theorem openSession_issues (hr : runOn h l.openSession = (.ok key, h')) :
    h'.Known l ∧ ∀ k, h'.interpAt l = some k → key = ⟨h.machine.nextKey⟩ ∧
      (h.Fits h' → h.KeysGiven → h'.Issued l key []) := by
  cases l with
  | direct n =>
    refine ⟨trivial, fun k hk => ?_⟩
    simp only [openSession, ofMachine, runOn_of] at hr
    obtain ⟨ho, rfl⟩ := Prod.mk.inj hr
    obtain ⟨hkey, hnext, hslots⟩ := Machine.openSession_result ho
    refine ⟨hkey, fun hfit hnum => ⟨?_, ⟨n, rfl⟩, fun c live e hc hs => ?_, .inr ⟨?_, hslots⟩⟩⟩
    · rw [Machine.given_add hnext ((fits_iff hnext (by decide)).1 hfit), hkey]
      exact Nat.lt_succ_self _
    -- Every key that is served is older than the new one.
    · exact absurd hkey (Machine.ne_nextKey (hnum c live e hc key hs))
    · intro c hc
      cases hc
  | channel c =>
    simp only [openSession, onChannel, runOn_of] at hr
    cases hc : h.channels[c]? with
    | none =>
      rw [hc] at hr
      cases hr
    | some channel =>
      have hlt : c < h.channels.length := (List.getElem?_eq_some_iff.1 hc).1
      obtain ⟨live, peer⟩ := channel
      rw [hc] at hr
      cases peer with
      | scripted script =>
        -- A script may answer with any key, but it leads to no interpreter.
        obtain ⟨-, rfl⟩ := Prod.mk.inj hr
        refine ⟨known_iff.2 fun c' hc' => ?_, fun k hk => ?_⟩
        · cases hc'
          simpa only [List.length_set] using hlt
        · simp only [interpAt, List.getElem?_set_self hlt] at hk
          cases hk
      | exported e =>
        cases live with
        | false => cases hr
        | true =>
          simp only [] at hr
          cases ho : (h.machine.openSession e.interp).1 with
          | error cause =>
            obtain ⟨f, hf⟩ := Channel.openSession_refused h.texts ho
            rw [hf] at hr
            cases hr
          | ok key' =>
            obtain ⟨i, hi, hf⟩ := Machine.openSession_interp ho
            obtain ⟨-, hnext, hslots⟩ := Machine.openSession_result ho
            rw [Channel.openSession_endpoint hi hf] at hr
            obtain ⟨hkey, rfl⟩ := Prod.mk.inj hr
            obtain rfl : ⟨h.machine.nextKey⟩ = key := Except.ok.inj hkey
            have hself := List.getElem?_set_self (a := (⟨true, .exported
              { e with served := e.served ++ [⟨h.machine.nextKey⟩] }⟩ : Channel Peer)) hlt
            refine ⟨known_iff.2 fun c' hc' => ?_, fun k hk => ⟨rfl, fun hfit hnum =>
              ⟨?_, ⟨k, hk⟩, fun c' live' e' hc' hs => ?_, .inr ⟨fun c' hc' => ?_, ?_⟩⟩⟩⟩
            · cases hc'
              simpa only [List.length_set] using hlt
            · rw [Machine.given_add hnext ((fits_iff hnext (by decide)).1 hfit)]
              exact Nat.lt_succ_self _
            · by_cases hcc : c = c'
              · rw [hcc]
              · rw [List.getElem?_set_ne hcc] at hc'
                exact absurd rfl (Machine.ne_nextKey (hnum c' live' e' hc' _ hs))
            · cases hc'
              exact ⟨_, hself, List.mem_append_right _ List.mem_cons_self⟩
            · obtain ⟨rfl, -, -⟩ := Machine.openSession_result ho
              rw [slotsAt, interpAt_channel hself]
              exact hslots

/-- An operation touches its session, if there is an interpreter at the other end. -/
theorem keeps_perform (key : SessionKey) (op : Op) (l : Link) (h : Host) :
    h.Keeps 0 (fun key' => key' = key ∧ ∃ k, h.interpAt l = some k)
      (runOn h (l.perform key op)).2 := by
  cases l with
  | direct n =>
    exact keeps_of_machine (Nat.le_refl 0) rfl rfl (enlists_of_eq rfl) rfl
      (Machine.perform_nextKey.trans (UInt64.add_zero _).symm) fun key' _ hne =>
        Machine.retains_perform fun he => hne ⟨he, n, rfl⟩
  | channel c =>
    refine keeps_onChannel fun live e hc => ?_
    obtain ⟨opened, ho, hm⟩ := Channel.minds_call h.texts (.act key op) ⟨live, (h.machine, e)⟩
    exact ⟨opened, ho, hm.mono fun key' hk => ⟨hk, e.interp, interpAt_channel hc⟩⟩

theorem keeps_closeSession (key : SessionKey) (l : Link) (h : Host) :
    h.Keeps 0 (fun key' => key' = key ∧ ∃ k, h.interpAt l = some k)
      (runOn h (l.closeSession key)).2 := by
  cases l with
  | direct n =>
    exact keeps_of_machine (Nat.le_refl 0) rfl rfl (enlists_of_eq rfl) rfl
      (Machine.closeSession_nextKey.trans (UInt64.add_zero _).symm) fun key' _ hne =>
        Machine.retains_closeSession fun he => hne ⟨he, n, rfl⟩
  | channel c =>
    refine keeps_onChannel fun live e hc => ?_
    obtain ⟨opened, ho, hm⟩ := Channel.minds_call h.texts (.closeSession key) ⟨live, (h.machine, e)⟩
    exact ⟨opened, ho, hm.mono fun key' hk => ⟨hk, e.interp, interpAt_channel hc⟩⟩

theorem keeps_setResolver (r : Resolver) (l : Link) : Within (Keeps 0 K) (l.setResolver r) := by
  intro h
  cases l with
  | direct n =>
    exact keeps_of_machine (Nat.le_refl 0) rfl rfl (enlists_of_eq rfl) rfl
      ((Machine.setResolver_nextKey r).trans (UInt64.add_zero _).symm) fun key _ _ =>
        Machine.retains_setResolver r
  | channel c =>
    exact keeps_onChannel fun live e _ => ⟨0, Nat.le_refl 0, Channel.minds_setResolver h.texts r _⟩

/-- Finalizing an interpreter leaves its sessions as they are. A channel is closed, and its sessions
with it. -/
theorem keeps_finalize (l : Link) : Within (Keeps 0 K) l.finalize := by
  intro h
  cases l with
  | direct n =>
    exact keeps_of_machine (Nat.le_refl 0) rfl rfl (enlists_of_eq rfl) rfl
      (Machine.finalize_nextKey.trans (UInt64.add_zero _).symm) fun key _ _ =>
        Machine.retains_finalize
  | channel c =>
    exact keeps_onChannel fun live e _ => ⟨0, Nat.le_refl 0, Channel.minds_finalize h.texts _⟩

theorem uses_perform (key : SessionKey) (op : Op) (l : Link) :
    Within (Uses l key) (l.perform key op) :=
  fun h _ => keeps_perform key op l h

theorem uses_performRef (key : SessionKey) (op : Op) (l : Link) :
    Within (Uses l key) (l.performRef key op) :=
  (uses_perform key op l).bind fun _ => within_settle _

/-- What is done in a session that was opened for it is no other session's business. -/
theorem keeps_withSession {f : SessionKey → HostM α} (hf : ∀ key, Within (Uses l key) (f key)) :
    Within (Keeps 1 K) (l.withSession f) := by
  intro h
  unfold withSession
  rw [runOn_bind]
  have hopen := keeps_openSession (K := K) l h
  rcases hr : runOn h l.openSession with ⟨e | key, h₁⟩
  · rw [hr] at hopen
    exact hopen
  · rw [hr] at hopen
    obtain ⟨hl, hkey⟩ := openSession_issues hr
    have huses : Within (Uses l key) (ensuring (f key) (l.closeSession key)) :=
      (hf key).ensuring fun h _ => keeps_closeSession key l h
    refine hopen.trans (huses h₁ hl) fun key' hold hk => ?_
    obtain ⟨rfl, k, hk⟩ := hk
    exact absurd (hkey k hk).1 (Machine.ne_nextKey hold)

end Link

end InstancePool
