import InstancePool.Proofs.Image.Journal
import InstancePool.Proofs.Session.NoneLeftOpen

/-!
The sessions that an interpreter has open are the sessions that the host has on it. What users do besides
opening and closing sessions leaves their number as it was, and so does an opening that fails. Once all
sessions of a host are closed, none is open.
-/

namespace InstancePool

open HostM Host

theorem Table.entries_eq_nil {κ ν : Type} [DecidableEq κ] {t : Table κ ν} (ht : ∀ k, t.get? k = none) :
    t.entries = [] := by
  rw [List.eq_nil_iff_forall_not_mem]
  intro e he
  cases (Table.get?_of_mem he).symm.trans (ht e.1)

namespace Machine

variable {source : TextSource} {m m' m'' : Machine} {n : Nat} {i i' : Interp}

/-- From a machine to a later one: its interpreters are there, and none of them was finalized. -/
def Lasts (m m' : Machine) : Prop :=
  ∀ (k : Nat) (i : Interp), m.interps[k]? = some i →
    ∃ i', m'.interps[k]? = some i' ∧ i'.finalized = i.finalized

theorem Lasts.refl (m : Machine) : m.Lasts m := fun _ i hi => ⟨i, hi, rfl⟩

theorem Lasts.trans (hl : m.Lasts m') (hl' : m'.Lasts m'') : m.Lasts m'' := by
  intro k i hi
  obtain ⟨i', hi', hf⟩ := hl k i hi
  obtain ⟨i'', hi'', hf'⟩ := hl' k i' hi'
  exact ⟨i'', hi'', hf'.trans hf⟩

theorem lasts_set (hi : m.interps[n]? = some i) (hm : m'.interps = m.interps.set n i')
    (hf : i'.finalized = i.finalized) : m.Lasts m' :=
  interps_set (P := fun _ j j' => j'.finalized = j.finalized) hi hm hf fun _ _ => rfl

theorem lasts_openSession (n : Nat) (m : Machine) : m.Lasts (m.openSession n).2 := by
  unfold openSession
  cases hi : m.interps[n]? with
  | none => exact .refl m
  | some i =>
    simp only []
    split
    · exact .refl m
    · exact lasts_set hi rfl rfl

theorem lasts_perform (source : TextSource) (n : Nat) (key : SessionKey) (op : Op) (m : Machine) :
    m.Lasts (m.perform source n key op).2 := by
  cases hi : m.interps[n]? with
  | none =>
    simp only [perform, hi]
    exact .refl m
  | some i =>
    rw [perform_eq hi]
    obtain ⟨_, _, _, _, he⟩ := Engine.perform_interp source key op ⟨m.heap, i⟩
    exact lasts_set hi rfl (by rw [he])

theorem lasts_closeSession (n : Nat) (key : SessionKey) (m : Machine) :
    m.Lasts (m.closeSession n key) := by
  unfold closeSession
  cases hi : m.interps[n]? with
  | none => exact .refl m
  | some i => exact lasts_set hi rfl rfl

theorem lasts_setResolver (n : Nat) (r : Resolver) (m : Machine) :
    m.Lasts (m.setResolver n r) := by
  unfold setResolver
  cases hi : m.interps[n]? with
  | none => exact .refl m
  | some i => exact lasts_set hi rfl rfl

end Machine

namespace Channel

/-- From a channel of an endpoint to a later state of it: the endpoint is one of the same interpreter, and
no interpreter was finalized. -/
structure Lasts (c c' : Channel (Machine × Endpoint)) : Prop where
  machine : c.peer.1.Lasts c'.peer.1
  interp : c'.peer.2.interp = c.peer.2.interp

theorem Lasts.refl (c : Channel (Machine × Endpoint)) : c.Lasts c := ⟨.refl _, rfl⟩

theorem lasts_serve (source : TextSource) (r : Request) (live : Bool) (m : Machine) (e : Endpoint) :
    Lasts ⟨live, (m, e)⟩ ⟨live, (Endpoint.serve source r (m, e)).2⟩ := by
  cases r with
  | openSession =>
    have hm := Machine.lasts_openSession e.interp m
    simp only [Endpoint.serve]
    rcases h : m.openSession e.interp with ⟨cause | key, m'⟩
    · rw [h] at hm
      exact ⟨hm, rfl⟩
    · rw [h] at hm
      exact ⟨hm, rfl⟩
  | closeSession key =>
    simp only [Endpoint.serve]
    split
    · exact ⟨Machine.lasts_closeSession _ key m, rfl⟩
    · exact .refl _
  | act key op =>
    simp only [Endpoint.serve]
    split
    · exact ⟨Machine.lasts_perform source _ key op m, rfl⟩
    · exact .refl _

theorem lasts_call (source : TextSource) (r : Request) (live : Bool) (m : Machine) (e : Endpoint) :
    Lasts ⟨live, (m, e)⟩ (call (Endpoint.image source) r ⟨live, (m, e)⟩).2 := by
  rcases call_cases source r ⟨live, (m, e)⟩ with he | ⟨bytes, r', rfl, -, -, he⟩
  · rw [he]
    exact .refl _
  · rw [he]
    exact lasts_serve source r' true m e

theorem lasts_setResolver (source : TextSource) (r : Resolver) (live : Bool) (m : Machine)
    (e : Endpoint) : Lasts ⟨live, (m, e)⟩ (setResolver (Endpoint.image source) r ⟨live, (m, e)⟩) := by
  unfold setResolver
  split
  · exact ⟨Machine.lasts_setResolver _ _ _, rfl⟩
  · exact .refl _

end Channel

namespace Host

variable {α : Type} {h h' h'' : Host} {k : Nat} {log log' : List (SessionId × Ref)}

/-- From a host to a later one: links lead where they led, and no interpreter was finalized. -/
structure Lasts (h h' : Host) : Prop where
  machine : h.machine.Lasts h'.machine
  interpAt : ∀ l, h'.interpAt l = h.interpAt l

theorem lasts_of_machine (hm : h.machine.Lasts h'.machine) (hc : h'.channels = h.channels) :
    h.Lasts h' := ⟨hm, interpAt_congr hc⟩

theorem lasts_onChannel {c : Nat} {f : ChannelStep α}
    (hf : ∀ live e, Channel.Lasts ⟨live, (h.machine, e)⟩
      (f (Endpoint.image h.texts) ⟨live, (h.machine, e)⟩).2) :
    h.Lasts (runOn h (onChannel c f)).2 := by
  unfold onChannel
  rw [runOn_of]
  split
  · exact lasts_of_machine (.refl _) rfl
  · rename_i live e hc
    have hlt : c < h.channels.length := (List.getElem?_eq_some_iff.1 hc).1
    obtain ⟨hm, he⟩ := hf live e
    refine ⟨hm, interpAt_set ?_⟩
    rw [interpAt_channel hc, interpAt_channel (List.getElem?_set_self hlt), he]
  · rename_i live s hc
    have hlt : c < h.channels.length := (List.getElem?_eq_some_iff.1 hc).1
    refine ⟨.refl _, interpAt_set ?_⟩
    simp only [interpAt, List.getElem?_set_self hlt, hc]

instance : Daily Lasts where
  refl h := lasts_of_machine (.refl _) rfl
  trans hl hl' := ⟨hl.machine.trans hl'.machine, fun l => (hl'.interpAt l).trans (hl.interpAt l)⟩
  openSession l h := by
    cases l with
    | direct n => exact lasts_of_machine (Machine.lasts_openSession n _) rfl
    | channel c => exact lasts_onChannel fun live e => Channel.lasts_call _ .openSession live _ e
  perform l key op h := by
    cases l with
    | direct n => exact lasts_of_machine (Machine.lasts_perform _ n key op _) rfl
    | channel c => exact lasts_onChannel fun live e => Channel.lasts_call _ (.act key op) live _ e
  closeSession l key h := by
    cases l with
    | direct n => exact lasts_of_machine (Machine.lasts_closeSession n key _) rfl
    | channel c => exact lasts_onChannel fun live e => Channel.lasts_call _ (.closeSession key) live _ e
  setResolver l r h := by
    cases l with
    | direct n => exact lasts_of_machine (Machine.lasts_setResolver n r _) rfl
    | channel c => exact lasts_onChannel fun live e => Channel.lasts_setResolver _ r live _ e
  books h _ _ _ _ _ _ := lasts_of_machine (.refl _) rfl
  counts h m manager nextObject hm := lasts_of_machine (.refl _) rfl

/-- An interpreter is there, and is not finalized. -/
def Running (h : Host) (k : Nat) : Prop := ∃ i, h.machine.interps[k]? = some i ∧ i.finalized = false

/-- How many sessions an interpreter has open. -/
def openSessions? (h : Host) (k : Nat) : Option Nat := (h.machine.interps[k]?).map Interp.openSessions

/-- The sessions of a host on an interpreter, however they reach it. -/
def sessionsAt (h : Host) (k : Nat) : List SessionId :=
  (h.sessions.entries.filter fun e => h.interpAt e.2.link = some k).map Prod.fst

theorem Lasts.running (hl : h.Lasts h') (hk : h.Running k) : h'.Running k := by
  obtain ⟨i, hi, hf⟩ := hk
  obtain ⟨i', hi', hf'⟩ := hl.machine k i hi
  exact ⟨i', hi', hf'.trans hf⟩

theorem Running.not_ended (hk : h.Running k) : ¬ h.machine.Ended k := by
  rintro ⟨i, hi, hf⟩
  obtain ⟨i', hi', hf'⟩ := hk
  obtain rfl := Option.some.inj (hi.symm.trans hi')
  cases hf.symm.trans hf'

/-- The keys that are open in an interpreter are the keys of the sessions on it, one for one. -/
theorem Tidy.keys_perm {i : Interp} (ht : h.Tidy) (hk : h.Kept log) (hi : h.machine.interps[k]? = some i)
    (hf : i.finalized = false) : i.sessions.keys.Perm
      ((h.sessions.entries.filter fun e => h.interpAt e.2.link = some k).map fun e => e.2.key) := by
  have hrunning : ¬ h.machine.Ended k := Running.not_ended ⟨i, hi, hf⟩
  have hmem {e : SessionId × Session}
      (he : e ∈ h.sessions.entries.filter fun e => h.interpAt e.2.link = some k) :
      h.sessions.get? e.1 = some e.2 ∧ h.interpAt e.2.link = some k := by
    rw [List.mem_filter, decide_eq_true_eq] at he
    exact ⟨Table.get?_of_mem he.1, he.2⟩
  refine (List.perm_ext_iff_of_nodup i.sessions.nodup ?_).2 fun key => ⟨fun hkey => ?_, fun hkey => ?_⟩
  · have hfirst := (List.filter_sublist (p := fun e : SessionId × Session =>
      h.interpAt e.2.link = some k)).map Prod.fst |>.nodup h.sessions.nodup
    rw [List.Nodup, List.pairwise_map] at hfirst ⊢
    refine hfirst.imp_of_mem fun {e e'} he he' hne hkey => hne ?_
    obtain ⟨hs, hat⟩ := hmem he
    obtain ⟨hs', hat'⟩ := hmem he'
    exact hk.apart e.1 e'.1 e.2 e'.2 k k hs hs' hat hat' hkey
  -- An open session is one of the host.
  · obtain ⟨entry, hentry, rfl⟩ := List.mem_map.1 hkey
    have hopen : h.machine.HasOpen k entry.1 := by
      rw [Machine.hasOpen_iff hi, Table.get?_of_mem hentry]
      rfl
    obtain ⟨x, hx, hat, hkey⟩ := (ht.covers.opens k _ hopen).resolve_left hrunning
    rw [← hkey]
    obtain ⟨e, he, rfl⟩ := List.mem_map.1 hx
    exact List.mem_map.2 ⟨e, List.mem_filter.2 ⟨he, decide_eq_true hat⟩, rfl⟩
  -- A session of the host is open, since the channel to a running interpreter is not closed.
  · obtain ⟨e, he, rfl⟩ := List.mem_map.1 hkey
    obtain ⟨hs, hat⟩ := hmem he
    obtain ⟨slots, hissued, -⟩ := hk.issued e.1 e.2 k hs hat
    rcases hissued.slots with hcut | ⟨-, hslots⟩
    · have hx : (e.2.link, e.2.key) ∈ h.book := List.mem_map_of_mem (Table.mem_of_get? hs)
      exact absurd ((ht.covers.seated _ hx k hat).2 hcut) hrunning
    · obtain ⟨k', i', hat', hi', hopen⟩ := slotsAt_eq_some.1 hslots
      obtain rfl := Option.some.inj (hat.symm.trans hat')
      obtain rfl := Option.some.inj (hi.symm.trans hi')
      exact List.mem_map_of_mem (Table.mem_of_get? hopen)

theorem Tidy.openSessions_eq (ht : h.Tidy) (hk : h.Kept log) (hr : h.Running k) :
    h.openSessions? k = some (h.sessionsAt k).length := by
  obtain ⟨i, hi, hf⟩ := hr
  have hlen := (ht.keys_perm hk hi hf).length_eq
  rw [Table.keys, List.length_map, List.length_map] at hlen
  rw [openSessions?, hi, sessionsAt, List.length_map, ← hlen]
  rfl

theorem length_sessionsAt (h : Host) (k : Nat) :
    (h.sessionsAt k).length = (h.book.filter fun x => h.interpAt x.1 = some k).length := by
  rw [sessionsAt, book, List.filter_map, List.length_map, List.length_map]
  rfl

/-- As long as the host has the same sessions, no count changes. -/
theorem Lasts.openSessions_eq (hl : h.Lasts h') (ht : h.Tidy) (hk : h.Kept log) (ht' : h'.Tidy)
    (hk' : h'.Kept log') (hb : h'.book.Perm h.book) (hr : h.Running k) :
    h'.openSessions? k = h.openSessions? k := by
  rw [ht.openSessions_eq hk hr, ht'.openSessions_eq hk' (hl.running hr), length_sessionsAt,
    length_sessionsAt]
  simp only [hl.interpAt]
  rw [(hb.filter _).length_eq]

/-- An errand leaves no session open and closes none, whether it succeeds or fails. -/
theorem Tidy.openSessions_errand {a : Action} (ht : h.Tidy) (hk : h.Kept log) (ha : a.Errand)
    (hfit : h.Fits (h.step a)) (hr : h.Running k) :
    (h.step a).openSessions? k = h.openSessions? k := by
  have htidies : h.Tidies (h.step a) := tidies_errand ha h
  have heveryday : a.Everyday := by
    cases a <;> trivial
  have hproper : (Deed.act a).Proper h := by
    cases a <;> trivial
  have hlasts : h.Lasts (h.step a) := within_everyday heveryday h
  exact hlasts.openSessions_eq ht hk (ht.of_tidies htidies) (hk.doing hproper hfit)
    (.of_eq htidies.book_eq) hr

/-- The ways to open a session. -/
inductive Opening : HostM SessionId → Prop
  | balanced (m : ManagerId) (t : Thread) : Opening (openBalanced m t)
  | pinned (m : ManagerId) (n : InstanceId) : Opening (openPinned m n)
  | alone (n : InstanceId) : Opening (openAlone n)
  | replica (n : ReplicaId) (on : Option InstanceId) (t : Thread) : Opening (openReplica n on t)
  | bare (link : Link) : Opening (openBare link)

/-- What fails to open a session leaves none open. -/
theorem Tidy.openSessions_refused {x : HostM SessionId} {e : Error} (ht : h.Tidy) (hk : h.Kept log)
    (hx : Opening x) (hrun : runOn h x = (.error e, h')) (hfit : h.Fits h') (hr : h.Running k) :
    h'.openSessions? k = h.openSessions? k := by
  have hplain (ho : Opened x h) (hn : Enters x h) (hl : Within Lasts x) :
      h'.openSessions? k = h.openSessions? k := by
    have hk' := hk.opened ho (hrun ▸ hfit)
    have hl' := hl h
    rw [hrun] at hk' hl'
    cases hn with
    | refused e₁ h₁ hr₁ hh =>
      cases hrun.symm.trans hr₁
      exact hl'.openSessions_eq ht hk (ht.of_tidies hh) hk' (.of_eq hh.book_eq) hr
    | kept session h₁ hr₁ => cases hrun.symm.trans hr₁
  cases hx with
  | balanced m t =>
    exact hplain (opened_openBalanced m t) (enters_openBalanced m t) (routine_openBalanced m t)
  | pinned m n => exact hplain (opened_openPinned m n) (enters_openPinned m n) (routine_openPinned m n)
  | alone n => exact hplain (opened_openAlone n) (enters_openAlone n) (routine_openOn n (.alone n))
  | bare link => exact hplain (opened_openBare link) (enters_openBare link) (routine_openBare link)
  | replica n on t =>
    have hl' : h.Lasts (runOn h (Host.openReplica n on t)).2 := routine_openReplica n on t h
    obtain ⟨ht', hbook⟩ := ht.openReplica n on t
    rw [hrun] at hl' ht' hbook
    rcases hk.openReplica n on t (hrun ▸ hfit) with
      ⟨e₁, h₁, hr₁, hk'⟩ | ⟨s, session, r, h₁, hr₁, -⟩
    · cases hrun.symm.trans hr₁
      exact hl'.openSessions_eq ht hk ht' hk' (hbook e rfl) hr
    · cases hrun.symm.trans hr₁

theorem get?_closeSession (h : Host) (s s' : SessionId) :
    (h.doing (.act (.closeSession s))).sessions.get? s' =
      if s' = s then none else h.sessions.get? s' := by
  rcases find_cases (fun h => h.sessions.get? s) h with ⟨hnone, hr⟩ | ⟨session, hsome, -⟩
  · have hrun : runOn h (closeSession s) = (.error .unknownHandle, h) := by
      rw [closeSession, getSession, runOn_bind_error hr]
    have hsame : h.doing (.act (.closeSession s)) = h := congrArg Prod.snd hrun
    rw [hsame]
    split
    · rename_i he
      rw [he, hnone]
    · rfl
  · have herase : (h.doing (.act (.closeSession s))).sessions = h.sessions.erase s :=
      (closeSession_keeps hsome).sessions
    rw [herase, Table.get?_erase]

/-- Sessions are closed one after another, in any order. -/
theorem Tidy.closeSessions (ids : List SessionId) (ht : h.Tidy) :
    let h' := h.afterDeeds (ids.map fun s => .act (.closeSession s))
    h'.Tidy ∧ h.Lasts h' ∧
      ∀ s, h'.sessions.get? s = if s ∈ ids then none else h.sessions.get? s := by
  induction ids generalizing h with
  | nil => exact ⟨ht, Frame.refl h, fun s => (if_neg List.not_mem_nil).symm⟩
  | cons s ids ih =>
    have hl : h.Lasts (h.doing (.act (.closeSession s))) := routine_closeSession s h
    have ht₁ : (h.doing (.act (.closeSession s))).Tidy := ht.closeSession s
    obtain ⟨ht', hl', hs'⟩ := ih ht₁
    refine ⟨ht', Frame.trans hl hl', fun s' => (hs' s').trans ?_⟩
    rw [get?_closeSession]
    by_cases he : s' = s
    · rw [if_pos he, ite_self, if_pos (he ▸ List.mem_cons_self)]
    · rw [if_neg he]
      simp only [List.mem_cons, he, false_or]

theorem Running.openSessions_eq_zero (hr : h.Running k) (hn : ∀ key, ¬ h.machine.HasOpen k key) :
    h.openSessions? k = some 0 := by
  obtain ⟨i, hi, -⟩ := hr
  have hnone (key : SessionKey) : i.sessions.get? key = none := by
    have hkey := hn key
    rwa [Machine.hasOpen_iff hi, Bool.not_eq_true, Option.isSome_eq_false_iff, Option.isNone_iff_eq_none]
      at hkey
  rw [openSessions?, hi, Option.map_some, Interp.openSessions, Table.size, Table.entries_eq_nil hnone]
  rfl

/-- Where the host has no session, none is open, and no endpoint serves one. -/
theorem Tidy.openSessions_vacant (ht : h.Tidy) (hs : ∀ s, h.sessions.get? s = none) :
    (∀ k, h.Running k → h.openSessions? k = some 0) ∧
      ∀ (c : Nat) (e : Endpoint), h.channels[c]? = some ⟨true, .exported e⟩ → e.served = [] := by
  have hbook : h.book = [] := by rw [book, Table.entries_eq_nil hs, List.map_nil]
  have hcovers := ht.covers
  rw [hbook] at hcovers
  refine ⟨fun k hk => hk.openSessions_eq_zero fun key ho => ?_, fun c e hc =>
    (hcovers.served c e hc).eq_nil⟩
  obtain ⟨x, hx, -⟩ := (hcovers.opens k key ho).resolve_left hk.not_ended
  exact List.not_mem_nil hx

/-- No session is left open on an interpreter that is new. -/
theorem Tidy.openSessions_new (ht : h.Tidy) (hh : h.Tidies h')
    (hleads : ∀ l, h.Known l → h'.interpAt l = h.interpAt l) (hr : h'.Running k)
    (hle : h.machine.interps.length ≤ k) : h'.openSessions? k = some 0 := by
  refine hr.openSessions_eq_zero fun key ho => ?_
  obtain ⟨x, hx, hat, -⟩ := ((ht.of_tidies hh).covers.opens k key ho).resolve_left hr.not_ended
  rw [hh.book_eq] at hx
  rw [hleads x.1 (ht.covers.known x hx)] at hat
  exact Nat.not_lt.2 hle (ht.covers.seated x hx k hat).1

/-- Instances are in use, with interpreters from `K` on. -/
def InUse (K : Nat) (ns : List InstanceId) (h : Host) : Prop :=
  ∀ n ∈ ns, ∃ l k, h.linkOf n = some l ∧ h.Serves l k ∧ K ≤ k

variable {K n : Nat} {ns : List InstanceId} {spec : ManagerSpec} {registry number count : Nat}

/-- One more instance is in use, and the others are as they were. -/
theorem InUse.loadMember (hu : InUse K ns h) (hK : K ≤ h.machine.interps.length)
    (hr : runOn h (loadMember spec registry number) = (.ok n, h')) :
    InUse K (ns ++ [n]) h' ∧ K ≤ h'.machine.interps.length := by
  obtain ⟨i, h₁, hload, hr⟩ := bind_ok hr
  obtain ⟨u, h₂, hadopt, hr⟩ := bind_ok hr
  obtain ⟨l, k, hl, hserves, hle, -⟩ := Instance.load_ok hload
  have hspares := ((Instance.below_load _ _ _).of_eq hload h.above_length).2
  have hadopts := (i.within_adopt (S := fun _ => True) (T := fun _ => True) registry).of_eq
    (onFailure_ok hadopt)
  have hinstances : h₂.instances = h.instances := hadopts.instances.trans hspares.instances
  have hlen : K ≤ h₂.machine.interps.length :=
    Nat.le_trans hK (Nat.le_trans hspares.machine.length_le hadopts.machine.length_le)
  cases hr
  refine ⟨fun n' hn' => ?_, hlen⟩
  rcases List.mem_append.1 hn' with hn' | hn'
  -- To load and adopt a member spares the interpreters of the others.
  · obtain ⟨l', k', hl', hserves', hle'⟩ := hu n' hn'
    have hold : h₁.Serves l' k' := by
      refine hserves'.of_spares hspares hserves'.lt fun c hc => ?_
      obtain ⟨e, he⟩ := hserves'.live c hc
      exact (List.getElem?_eq_some_iff.1 he).1
    have hlink : Host.linkOf { h₂ with instances := h₂.instances ++ [i] } n' = some l' := by
      rw [linkOf, hinstances, List.getElem?_append_left (linkOf_lt hl')]
      exact hl'
    exact ⟨l', k', hlink, (hold.of_spares hadopts trivial fun _ _ => trivial).congr rfl rfl, hle'⟩
  · rw [List.mem_singleton.1 hn']
    have hlink : Host.linkOf { h₂ with instances := h₂.instances ++ [i] } h₂.instances.length =
        some l := by
      rw [linkOf, List.getElem?_concat_length]
      exact hl
    exact ⟨l, k, hlink, (hserves.of_spares hadopts trivial fun _ _ => trivial).congr rfl rfl,
      Nat.le_trans hK hle⟩

theorem InUse.loadMembers (hu : InUse K ns h) (hK : K ≤ h.machine.interps.length)
    {ns' : List InstanceId}
    (hr : runOn h (loadMembers spec registry ns number count) = (.ok ns', h')) : InUse K ns' h' := by
  induction count generalizing ns number h with
  | zero =>
    cases hr
    exact hu
  | succ count ih =>
    obtain ⟨n, h₁, hm, hr⟩ := bind_ok hr
    obtain ⟨hu₁, hK₁⟩ := hu.loadMember hK (onFailure_ok hm)
    exact ih hu₁ hK₁ hr

/-- The instances of a manager that was started are in use, and no session is open on them. -/
theorem Tidy.openSessions_started {m : ManagerId} (ht : h.Tidy) (hn : spec.count < 2 ^ 64)
    (hr : runOn h (buildManager spec) = (.ok m, h')) :
    ∃ manager, h'.managers[m]? = some manager ∧ manager.instances.length = spec.count ∧
      ∀ n ∈ manager.instances,
        ∃ k, h'.seat n = some k ∧ h'.Running k ∧ h'.openSessions? k = some 0 := by
  have htidies := tidies_buildManager spec h
  have hkeeps := keeps_buildManager (K := fun _ => False) hn h
  rw [hr] at htidies hkeeps
  rcases buildManager_cases spec h with ⟨e, h₁, hr₁, -⟩ | ⟨registry, b, h₀, h₁, hs₀, hm, -, hr₁⟩
  · cases hr.symm.trans hr₁
  · obtain ⟨hm', rfl⟩ := Prod.mk.inj (hr.symm.trans hr₁)
    cases hm'
    have hu : InUse h.machine.interps.length _ h₁ :=
      InUse.loadMembers (fun n hn => by cases hn) hs₀.machine.length_le hm
    refine ⟨_, List.getElem?_concat_length, List.length_range', fun n hmem => ?_⟩
    obtain ⟨l, k, hl, hserves, hle⟩ := hu n hmem
    exact ⟨k, seat_eq.2 ⟨l, hl, (hserves.congr rfl rfl).interpAt⟩, hserves.interp,
      ht.openSessions_new htidies (fun l hl => (hkeeps.leads l hl).2) hserves.interp hle⟩

/-- No session is left behind. After every run in which the keys suffice, the sessions that an interpreter
has open are those that the host has on it, and those that a channel serves are those that were opened
through it. None is open on the instances of a new manager; an errand, and an opening that fails, leave all
counts as they were; and once all sessions of the host are closed, in any order, none is open. -/
theorem sessions_accounted (deeds : List Deed) (hd : AllHosted {} deeds)
    (hn : Host.opened {} deeds < 2 ^ 64) :
    let h := Host.afterDeeds {} deeds
    (∀ k, h.Running k → h.openSessions? k = some (h.sessionsAt k).length) ∧
      (∀ (c : Nat) (e : Endpoint), h.channels[c]? = some ⟨true, .exported e⟩ →
        e.served.Perm (keysThrough h.book (.channel c))) ∧
      (∀ (spec : ManagerSpec) (m : ManagerId) (h' : Host), spec.count < 2 ^ 64 →
        runOn h (buildManager spec) = (.ok m, h') →
        ∃ manager, h'.managers[m]? = some manager ∧ manager.instances.length = spec.count ∧
          ∀ n ∈ manager.instances,
            ∃ k, h'.seat n = some k ∧ h'.Running k ∧ h'.openSessions? k = some 0) ∧
      (∀ a : Action, a.Errand → h.Fits (h.step a) → ∀ k, h.Running k →
        (h.step a).openSessions? k = h.openSessions? k) ∧
      (∀ (x : HostM SessionId) (e : Error) (h' : Host), Opening x → runOn h x = (.error e, h') →
        h.Fits h' → ∀ k, h.Running k → h'.openSessions? k = h.openSessions? k) ∧
      ∀ ids : List SessionId, (∀ s, h.sessions.get? s ≠ none → s ∈ ids) →
        let h' := h.afterDeeds (ids.map fun s => .act (.closeSession s))
        (∀ k, h.Running k → h'.openSessions? k = some 0) ∧
          ∀ (c : Nat) (e : Endpoint), h'.channels[c]? = some ⟨true, .exported e⟩ → e.served = [] := by
  intro h
  have ht : h.Tidy := tidy_empty.afterDeeds hd
  have hk : h.Kept (Host.returned {} deeds) :=
    kept_empty.afterDeeds hd.proper (Nat.lt_of_le_of_lt (Nat.le_of_eq (Nat.zero_add _)) hn)
  refine ⟨fun k hr => ht.openSessions_eq hk hr, fun c e hc => ht.covers.served c e hc,
    fun spec m h' hspec hrun => ht.openSessions_started hspec hrun,
    fun a ha hfit k hr => ht.openSessions_errand hk ha hfit hr,
    fun x e h' hx hrun hfit k hr => ht.openSessions_refused hk hx hrun hfit hr, fun ids hids => ?_⟩
  -- With all of them closed the book of the host is empty.
  obtain ⟨ht', hl, hs⟩ := ht.closeSessions ids
  obtain ⟨hopen, hserved⟩ := ht'.openSessions_vacant fun s => by
    rw [hs]
    split
    · rfl
    · rename_i hno
      exact Classical.byContradiction fun hsome => hno (hids s hsome)
  exact ⟨fun k hr => hopen k (hl.running hr), hserved⟩

end Host

/-- A run with a manager of two instances behind boundaries, and with an interpreter beside them. There is
a session on an instance, in which a value was made, and one on the interpreter. -/
def Deed.tenants : List Deed :=
  [.act (.addSource (.stock { rule := (Stock.simulated 0 none).rule })),
    .act (.addLoader (.simulated { throughChannel := true })), .act (.addEnvironment {}),
    .act (.buildManager { count := 2, image := { source := 0, loader := 0 }, environment := 0 }),
    .act (.openBalanced 0 none), .act (.perform 0 (.eval "[1]")),
    .act (.createReplica 0 ⟨⟨3⟩, 0⟩), .addInterp, .openBare (.direct 2)]

/-- One session is open on the first instance of the tenants and one on the interpreter. It stays so when
the value is dropped, and when a session is asked for on an instance of nobody; when both are closed, none
is open. -/
theorem Host.sessions_accounted_tenants :
    let h := Host.afterDeeds {} Deed.tenants
    h.openSessions? 0 = some 1 ∧ h.openSessions? 2 = some 1 ∧
      (∃ e, h.channels[0]? = some ⟨true, .exported e⟩ ∧ e.served = [⟨3⟩]) ∧
      (∃ m h', runOn h (buildManager
          { count := 1, image := { source := 0, loader := 0 }, environment := 0 }) = (.ok m, h') ∧
        ∃ manager, h'.managers[m]? = some manager ∧
          ∀ n ∈ manager.instances, ∃ k, h'.seat n = some k ∧ h'.openSessions? k = some 0) ∧
      (h.step (.dropReplica 0)).openSessions? 0 = some 1 ∧
      (∃ e h', runOn h (openPinned 0 7) = (.error e, h') ∧ h'.openSessions? 0 = some 1) ∧
      (h.afterDeeds [.act (.closeSession 1), .act (.closeSession 0)]).openSessions? 0 = some 0 := by
  intro h
  have hd : Host.AllHosted {} Deed.tenants :=
    ⟨trivial, trivial, trivial, (by decide : 2 < 2 ^ 64), trivial, trivial, trivial, trivial, trivial,
      trivial⟩
  have hopened : Host.opened {} Deed.tenants = 4 := by decide +kernel
  have hrun (k : Nat) (hk : (h.machine.interps[k]?).map Interp.finalized = some false) : h.Running k :=
    Option.map_eq_some_iff.1 hk
  have hfirst : h.Running 0 := hrun 0 (by decide +kernel)
  have hthird : h.Running 2 := hrun 2 (by decide +kernel)
  obtain ⟨hcount, hserved, hbuild, herrand, hrefused, hclosed⟩ :=
    Host.sessions_accounted Deed.tenants hd (by rw [hopened]; decide)
  have hone : h.openSessions? 0 = some 1 :=
    (hcount 0 hfirst).trans (congrArg some (by decide +kernel))
  have hkeys : h.sessions.keys = [0, 1] := by decide +kernel
  refine ⟨hone, (hcount 2 hthird).trans (congrArg some (by decide +kernel)), ?_, ?_, ?_, ?_, ?_⟩
  · have hat : h.interpAt (.channel 0) = some 0 := by decide +kernel
    obtain ⟨live, e, hc, -⟩ := interpAt_channel_iff.1 hat
    have hlive : h.channels[0]?.map Channel.live = some true := by decide +kernel
    rw [hc] at hlive
    obtain rfl : live = true := Option.some.inj hlive
    have hthrough : keysThrough h.book (.channel 0) = [⟨3⟩] := by decide +kernel
    have hperm := hserved 0 e hc
    rw [hthrough] at hperm
    exact ⟨e, hc, List.perm_singleton.1 hperm⟩
  · have hbuilt : (runOn h (buildManager
        { count := 1, image := { source := 0, loader := 0 }, environment := 0 })).1.toOption = some 1 := by
      decide +kernel
    have hr := runOn_of_toOption hbuilt
    obtain ⟨manager, hm, -, hnone⟩ := hbuild _ 1 _ (by decide) hr
    refine ⟨1, _, hr, manager, hm, fun n hn => ?_⟩
    obtain ⟨k, hk, -, hzero⟩ := hnone n hn
    exact ⟨k, hk, hzero⟩
  · refine (herrand (.dropReplica 0) trivial ?_ 0 hfirst).trans hone
    unfold Host.Fits
    decide +kernel
  · have hfit : h.Fits (runOn h (openPinned 0 7)).2 := by
      unfold Host.Fits
      decide +kernel
    have hfails : (runOn h (openPinned 0 7)).1.toOption = none := by decide +kernel
    rcases hr : runOn h (openPinned 0 7) with ⟨e | s, h'⟩
    · rw [hr] at hfit
      exact ⟨e, h', rfl, (hrefused _ e h' (.pinned 0 7) hr hfit 0 hfirst).trans hone⟩
    · rw [hr] at hfails
      cases hfails
  · refine (hclosed [1, 0] fun s hs => ?_).1 0 hfirst
    cases hget : h.sessions.get? s with
    | none => exact absurd hget hs
    | some session =>
      have hmem : s ∈ h.sessions.keys := List.mem_map_of_mem (Table.mem_of_get? hget)
      rw [hkeys] at hmem
      exact (List.Perm.swap 1 0 []).mem_iff.1 hmem

end InstancePool
