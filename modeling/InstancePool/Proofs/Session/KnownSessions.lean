import InstancePool.Proofs.Session.SlotsKept
import InstancePool.Proofs.Image.JournalFrame

/-!
Which sessions are open. Those that are known, each by its link and its key, cover all that are: no
interpreter has another one until it is finalized, and a channel serves those that were opened through it,
one for one. Each use of a link keeps it so, once what it opens is known and what it closes is forgotten.
-/

namespace InstancePool

open HostM

namespace Machine

variable {X : Nat → SessionKey → Prop} {source : TextSource} {m m' m'' : Machine} {n k : Nat}
  {i i' : Interp} {key : SessionKey} {op : Op}

/-- A session is open in an interpreter. -/
def HasOpen (m : Machine) (k : Nat) (key : SessionKey) : Prop := (m.slots k key).isSome

/-- An interpreter was finalized. -/
def Ended (m : Machine) (k : Nat) : Prop := ∃ i, m.interps[k]? = some i ∧ i.finalized = true

/-- From a machine to a later one: no session was opened but those in `X`. -/
structure Admits (X : Nat → SessionKey → Prop) (m m' : Machine) : Prop where
  length_le : m.interps.length ≤ m'.interps.length
  ended : ∀ k, m.Ended k → m'.Ended k
  opens : ∀ k key, m'.HasOpen k key → m.HasOpen k key ∨ X k key

theorem hasOpen_iff (hi : m.interps[k]? = some i) : m.HasOpen k key ↔ (i.sessions.get? key).isSome := by
  rw [HasOpen, slots_eq hi]

theorem Admits.refl (m : Machine) : m.Admits X m :=
  ⟨Nat.le_refl _, fun _ he => he, fun _ _ => .inl⟩

theorem Admits.trans (ha : m.Admits X m') (ha' : m'.Admits X m'') : m.Admits X m'' where
  length_le := Nat.le_trans ha.length_le ha'.length_le
  ended k he := ha'.ended k (ha.ended k he)
  opens k key ho := by
    rcases ha'.opens k key ho with ho | hX
    · exact ha.opens k key ho
    · exact .inr hX

/-- The interpreters are the same. -/
theorem admits_of_eq (hm : m'.interps = m.interps) : m.Admits X m' where
  length_le := Nat.le_of_eq (congrArg List.length hm.symm)
  ended k he := by rwa [Ended, hm]
  opens k key ho := by
    rw [HasOpen, slots, hm] at ho
    exact .inl ho

/-- One interpreter was replaced. -/
theorem admits_of_set (hi : m.interps[n]? = some i) (hm : m'.interps = m.interps.set n i')
    (hf : i.finalized = true → i'.finalized = true)
    (hs : ∀ key, (i'.sessions.get? key).isSome → (i.sessions.get? key).isSome ∨ X n key) :
    m.Admits X m' where
  length_le := Nat.le_of_eq (by rw [hm, List.length_set])
  ended k he := by
    obtain ⟨j, hj, hfinal⟩ := he
    rw [Ended, hm]
    by_cases hk : n = k
    · subst hk
      obtain rfl := Option.some.inj (hi.symm.trans hj)
      exact ⟨i', List.getElem?_set_self (List.getElem?_eq_some_iff.1 hi).1, hf hfinal⟩
    · exact ⟨j, (List.getElem?_set_ne hk).trans hj, hfinal⟩
  opens k key ho := by
    by_cases hk : n = k
    · subst hk
      have hi' : m'.interps[n]? = some i' := by
        rw [hm, List.getElem?_set_self (List.getElem?_eq_some_iff.1 hi).1]
      rw [hasOpen_iff hi'] at ho
      rw [hasOpen_iff hi]
      exact hs key ho
    · rw [HasOpen, slots, hm, List.getElem?_set_ne hk] at ho
      exact .inl ho

theorem admits_create (searchPaths : List String) (failFinalize : Bool) (observer : Option Observer)
    (m : Machine) : m.Admits X (m.create searchPaths failFinalize observer).2 where
  length_le := by
    rw [create, List.length_append]
    exact Nat.le_add_right _ _
  ended k he := by
    obtain ⟨i, hi, hf⟩ := he
    exact ⟨i, (List.getElem?_append_left (List.getElem?_eq_some_iff.1 hi).1).trans hi, hf⟩
  opens k key ho := by
    simp only [HasOpen, slots, create] at ho ⊢
    rw [List.getElem?_append] at ho
    split at ho
    · exact .inl ho
    -- No session is open in a new interpreter.
    · rw [List.getElem?_singleton] at ho
      split at ho
      · cases ho
      · cases ho

theorem admits_openSession (n : Nat) (m : Machine) :
    m.Admits (fun k key => k = n ∧ key = ⟨m.nextKey⟩) (m.openSession n).2 := by
  unfold openSession
  cases hi : m.interps[n]? with
  | none => exact .refl m
  | some i =>
    simp only []
    split
    · exact .refl m
    · refine admits_of_set hi rfl (fun hf => hf) fun key hs => ?_
      rw [Table.get?_insert] at hs
      split at hs
      · rename_i he
        exact .inr ⟨rfl, he⟩
      · exact .inl hs

theorem admits_perform (source : TextSource) (n : Nat) (key : SessionKey) (op : Op) (m : Machine) :
    m.Admits X (m.perform source n key op).2 := by
  cases hi : m.interps[n]? with
  | none =>
    simp only [perform, hi]
    exact .refl m
  | some i =>
    rw [perform_eq hi]
    refine admits_of_set hi rfl (fun hf => ?_) fun key' hs => .inl ?_
    · obtain ⟨_, _, _, _, he⟩ := Engine.perform_interp source key op ⟨m.heap, i⟩
      rw [he]
      exact hf
    -- What is written back is the session that it was performed in, and only if that was open.
    · by_cases he : key' = key
      · subst he
        cases hk : i.sessions.get? key' with
        | some slots => rfl
        | none =>
          simp only [Engine.perform, hk] at hs
          cases hs
      · rwa [Engine.perform_others he] at hs

theorem admits_closeSession (n : Nat) (key : SessionKey) (m : Machine) :
    m.Admits X (m.closeSession n key) := by
  unfold closeSession
  cases hi : m.interps[n]? with
  | none => exact .refl m
  | some i =>
    refine admits_of_set hi rfl (fun hf => hf) fun key' hs => ?_
    rw [Table.get?_erase] at hs
    split at hs
    · cases hs
    · exact .inl hs

theorem admits_closeSessions (n : Nat) (keys : List SessionKey) (m : Machine) :
    m.Admits X (keys.foldl (fun m key => m.closeSession n key) m) := by
  induction keys generalizing m with
  | nil => exact .refl m
  | cons key keys ih => exact (admits_closeSession n key m).trans (ih _)

theorem not_hasOpen_closeSession (n : Nat) (key : SessionKey) (m : Machine) :
    ¬ (m.closeSession n key).HasOpen n key := by
  unfold closeSession
  cases hi : m.interps[n]? with
  | none =>
    rw [HasOpen, slots, hi]
    exact Bool.false_ne_true
  | some i =>
    have hlt : n < m.interps.length := (List.getElem?_eq_some_iff.1 hi).1
    rw [hasOpen_iff (List.getElem?_set_self hlt), Table.get?_erase, if_pos rfl]
    exact Bool.false_ne_true

theorem admits_setResolver (n : Nat) (r : Resolver) (m : Machine) :
    m.Admits X (m.setResolver n r) := by
  unfold setResolver
  cases hi : m.interps[n]? with
  | none => exact .refl m
  | some i => exact admits_of_set hi rfl (fun hf => hf) fun _ => .inl

theorem admits_finalize (n : Nat) (m : Machine) : m.Admits X (m.finalize n).2 := by
  cases hi : m.interps[n]? with
  | none =>
    simp only [finalize, hi]
    exact .refl m
  | some i => exact admits_of_set hi (finalize_some hi).2.1 (fun _ => rfl) fun _ => .inl

theorem ended_finalize (hlt : n < m.interps.length) : (m.finalize n).2.Ended n := by
  have hi := List.getElem?_eq_getElem hlt
  refine ⟨{ m.interps[n] with finalized := true }, ?_, rfl⟩
  rw [(finalize_some hi).2.1, List.getElem?_set_self hlt]

end Machine

namespace Channel

variable {source : TextSource} {m : Machine} {e : Endpoint} {live : Bool} {key : SessionKey}

/-- A request that is short is served as it was sent. -/
theorem call_serves {r : Request} {bytes : List UInt8} (hb : Wire.encodeRequest r = .ok bytes)
    (hl : bytes.length < 2 ^ 64) (s : Machine × Endpoint) :
    (call (Endpoint.image source) r ⟨true, s⟩).2 = ⟨true, (Endpoint.serve source r s).2⟩ := by
  have hd := Wire.decodeRequest_encodeRequest hb hl []
  rw [List.append_nil] at hd
  rw [call_hear hb, hd]

theorem openSession_cases (source : TextSource) (live : Bool) (m : Machine) (e : Endpoint) :
    (∃ f, openSession (Endpoint.image source) ⟨live, (m, e)⟩ = (.error f, ⟨live, (m, e)⟩)) ∨
      live = true ∧ ∃ i, m.interps[e.interp]? = some i ∧ i.finalized = false ∧
        openSession (Endpoint.image source) ⟨live, (m, e)⟩ = (.ok ⟨m.nextKey⟩, ⟨true,
          ((m.openSession e.interp).2, { e with served := e.served ++ [⟨m.nextKey⟩] })⟩) := by
  cases live with
  | false => exact .inl ⟨.closed, rfl⟩
  | true =>
    cases ho : (m.openSession e.interp).1 with
    | ok key =>
      obtain ⟨i, hi, hf⟩ := Machine.openSession_interp ho
      exact .inr ⟨rfl, i, hi, hf, openSession_endpoint hi hf⟩
    | error cause =>
      obtain ⟨f, hf⟩ := openSession_refused source ho
      -- The refusal goes back over the channel, which stays as it was.
      have hstate : (openSession (Endpoint.image source) ⟨true, (m, e)⟩).2 = ⟨true, (m, e)⟩ := by
        have h0 := Wire.length_bytesOfNat32_le 0
        refine (call_serves (r := .openSession) rfl (by omega) (m, e)).trans ?_
        have hm := Machine.openSession_error ho
        simp only [Endpoint.serve]
        rcases hx : m.openSession e.interp with ⟨result, m'⟩
        rw [hx] at ho hm
        obtain rfl : result = .error cause := ho
        obtain rfl : m' = m := hm
        rfl
      exact .inl ⟨f, Prod.ext hf hstate⟩

/-- A session that is not served cannot be closed. -/
theorem closeSession_unserved (hn : live = true → key ∉ e.served) :
    closeSession (Endpoint.image source) key ⟨live, (m, e)⟩ = ⟨live, (m, e)⟩ := by
  cases live with
  | false => rfl
  | true =>
    have h1 := Wire.length_bytesOfNat32_le 1
    have hk := Wire.length_bytesOfKey_le key
    refine (call_serves (r := .closeSession key) rfl ?_ (m, e)).trans ?_
    · rw [List.length_append]
      omega
    · simp only [Endpoint.serve, if_neg (hn rfl)]

/-- Of an operation the image sees nothing, or one like it is performed. -/
theorem perform_peer (source : TextSource) (key : SessionKey) (op : Op) (live : Bool) (m : Machine)
    (e : Endpoint) :
    (perform (Endpoint.image source) key op ⟨live, (m, e)⟩).2 = ⟨live, (m, e)⟩ ∨
      ∃ op', (perform (Endpoint.image source) key op ⟨live, (m, e)⟩).2 =
        ⟨live, ((m.perform source e.interp key op').2, e)⟩ := by
  rcases call_cases source (.act key op) ⟨live, (m, e)⟩ with he | ⟨bytes, r, rfl, hb, hd, he⟩
  · exact .inl he
  · obtain ⟨op', rfl⟩ : ∃ op', r = .act key op' := by
      rcases Wire.decodeRequest_of_encode hb hd with rfl | ⟨key', o, o', ho, rfl, -⟩
      · exact ⟨op, rfl⟩
      · cases ho
        exact ⟨o', rfl⟩
    by_cases hk : key ∈ e.served
    · refine .inr ⟨op', he.trans ?_⟩
      simp only [Endpoint.serve, if_pos hk]
    · refine .inl (he.trans ?_)
      simp only [Endpoint.serve, if_neg hk]

/-- From a channel of an endpoint to a later state of it: no session is opened, and those that are served
are as they were; or the channel is closed, and the interpreter finalized. -/
structure Settles (c c' : Channel (Machine × Endpoint)) : Prop where
  interp : c'.peer.2.interp = c.peer.2.interp
  machine : c.peer.1.Admits (fun _ _ => False) c'.peer.1
  served : c'.live = true → c.live = true ∧ c'.peer.2.served = c.peer.2.served
  closed : c'.live = false → c.live = true → c.peer.2.interp < c.peer.1.interps.length →
    c'.peer.1.Ended c.peer.2.interp

theorem settles_of_machine {m' : Machine} (hm : m.Admits (fun _ _ => False) m') :
    Settles ⟨live, (m, e)⟩ ⟨live, (m', e)⟩ where
  interp := rfl
  machine := hm
  served hl := ⟨hl, rfl⟩
  closed hn hl := by cases hl.symm.trans hn

theorem settles_perform (source : TextSource) (key : SessionKey) (op : Op) (live : Bool) (m : Machine)
    (e : Endpoint) : Settles ⟨live, (m, e)⟩
      (perform (Endpoint.image source) key op ⟨live, (m, e)⟩).2 := by
  rcases perform_peer source key op live m e with hp | ⟨op', hp⟩
  · rw [hp]
    exact settles_of_machine (.refl m)
  · rw [hp]
    exact settles_of_machine (Machine.admits_perform source e.interp key op' m)

theorem settles_setResolver (source : TextSource) (r : Resolver) (live : Bool) (m : Machine)
    (e : Endpoint) : Settles ⟨live, (m, e)⟩
      (setResolver (Endpoint.image source) r ⟨live, (m, e)⟩) := by
  unfold setResolver
  split
  · exact settles_of_machine (Machine.admits_setResolver e.interp _ m)
  · exact settles_of_machine (.refl m)

theorem settles_finalizeImage (live : Bool) (m : Machine) (e : Endpoint) :
    Settles ⟨live, (m, e)⟩ ⟨false, (Endpoint.finalize (m, e)).2⟩ where
  interp := rfl
  machine := (Machine.admits_closeSessions e.interp e.served m).trans (Machine.admits_finalize _ _)
  served hl := by cases hl
  closed _ _ hlt := by
    refine Machine.ended_finalize ?_
    rwa [Machine.length_closeSessions]

theorem settles_finalize (source : TextSource) (live : Bool) (m : Machine) (e : Endpoint) :
    Settles ⟨live, (m, e)⟩ (finalize (Endpoint.image source) ⟨live, (m, e)⟩).2 := by
  unfold finalize
  split
  · exact settles_finalizeImage live m e
  · exact settles_of_machine (.refl m)

end Channel

/-- The keys of the sessions that were opened through a link. -/
def keysThrough (p : List (Link × SessionKey)) (l : Link) : List SessionKey :=
  (p.filter fun x => x.1 = l).map Prod.snd

/-- All sessions that are open are among those in `p`, short of interpreters that were finalized. A channel
that is not closed serves those in `p` that were opened through it. -/
structure Host.Covers (p : List (Link × SessionKey)) (h : Host) : Prop where
  known : ∀ x ∈ p, h.Known x.1
  seated : ∀ x ∈ p, ∀ k, h.interpAt x.1 = some k →
    k < h.machine.interps.length ∧ (h.Cut x.1 → h.machine.Ended k)
  opens : ∀ k key, h.machine.HasOpen k key →
    h.machine.Ended k ∨ ∃ x ∈ p, h.interpAt x.1 = some k ∧ x.2 = key
  served : ∀ (c : Nat) (e : Endpoint), h.channels[c]? = some ⟨true, .exported e⟩ →
    e.served.Perm (keysThrough p (.channel c))

theorem keysThrough_append (p q : List (Link × SessionKey)) (l : Link) :
    keysThrough (p ++ q) l = keysThrough p l ++ keysThrough q l := by
  rw [keysThrough, List.filter_append, List.map_append]
  rfl

theorem keysThrough_cons (l l' : Link) (key : SessionKey) (p : List (Link × SessionKey)) :
    keysThrough ((l, key) :: p) l' = if l = l' then key :: keysThrough p l' else keysThrough p l' := by
  simp only [keysThrough, List.filter_cons, decide_eq_true_eq]
  split <;> rfl

namespace Host

variable {α : Type} {p q : List (Link × SessionKey)} {h h' : Host} {l : Link} {key : SessionKey}

theorem Covers.perm (hc : h.Covers p) (hp : p.Perm q) : h.Covers q where
  known x hx := hc.known x (hp.mem_iff.2 hx)
  seated x hx := hc.seated x (hp.mem_iff.2 hx)
  opens k key ho := by
    rcases hc.opens k key ho with he | ⟨x, hx, hat⟩
    · exact .inl he
    · exact .inr ⟨x, hp.mem_iff.1 hx, hat⟩
  served c e he := (hc.served c e he).trans ((hp.filter _).map _)

theorem Covers.congr (hc : h.Covers p) (hm : h'.machine = h.machine) (hch : h'.channels = h.channels) :
    h'.Covers p := by
  obtain ⟨_, _, _, _, _, _, _, _, _, _, _, _, _⟩ := h'
  obtain rfl : _ = h.machine := hm
  obtain rfl : _ = h.channels := hch
  exact ⟨hc.known, hc.seated, hc.opens, hc.served⟩

/-- From a host to a later one: a link that is known leads where it led, and its channel is closed only
if the interpreter that it leads to is finalized. -/
structure Routes (h h' : Host) : Prop where
  leads : ∀ l, h.Known l → h'.Known l ∧ h'.interpAt l = h.interpAt l
  cut : ∀ l k, h.interpAt l = some k → k < h.machine.interps.length → h'.Cut l →
    h.Cut l ∨ h'.machine.Ended k

theorem Covers.stays_seated {X : Nat → SessionKey → Prop} {x : Link × SessionKey} {k : Nat}
    (hp : h.Covers p) (hr : h.Routes h') (hm : h.machine.Admits X h'.machine) (hx : x ∈ p)
    (hk : h'.interpAt x.1 = some k) :
    k < h'.machine.interps.length ∧ (h'.Cut x.1 → h'.machine.Ended k) := by
  rw [(hr.leads x.1 (hp.known x hx)).2] at hk
  obtain ⟨hlt, hcut⟩ := hp.seated x hx k hk
  refine ⟨Nat.lt_of_lt_of_le hlt hm.length_le, fun hc => ?_⟩
  rcases hr.cut x.1 k hk hlt hc with hc | he
  · exact hm.ended k (hcut hc)
  · exact he

/-- Sessions in `q` were opened, and those in `p` are as they were. -/
theorem Covers.add (hp : h.Covers p) (hr : h.Routes h')
    (hm : h.machine.Admits (fun k key => ∃ x ∈ q, h'.interpAt x.1 = some k ∧ x.2 = key) h'.machine)
    (hq : ∀ x ∈ q, h'.Known x.1 ∧ ∀ k, h'.interpAt x.1 = some k →
      k < h'.machine.interps.length ∧ ¬ h'.Cut x.1)
    (hserved : ∀ (c : Nat) (e' : Endpoint), h'.channels[c]? = some ⟨true, .exported e'⟩ →
      (∃ e, h.channels[c]? = some ⟨true, .exported e⟩ ∧
        e'.served.Perm (keysThrough q (.channel c) ++ e.served)) ∨
      ¬ h.Known (.channel c) ∧ e'.served = keysThrough q (.channel c)) :
    h'.Covers (q ++ p) where
  known x hx := by
    rcases List.mem_append.1 hx with hx | hx
    · exact (hq x hx).1
    · exact (hr.leads x.1 (hp.known x hx)).1
  seated x hx k hk := by
    rcases List.mem_append.1 hx with hx | hx
    · obtain ⟨hlt, hcut⟩ := (hq x hx).2 k hk
      exact ⟨hlt, fun hc => absurd hc hcut⟩
    · exact hp.stays_seated hr hm hx hk
  opens k key ho := by
    rcases hm.opens k key ho with ho | ⟨x, hx, hat⟩
    · rcases hp.opens k key ho with he | ⟨x, hx, hk, hkey⟩
      · exact .inl (hm.ended k he)
      · rw [← (hr.leads x.1 (hp.known x hx)).2] at hk
        exact .inr ⟨x, List.mem_append_right q hx, hk, hkey⟩
    · exact .inr ⟨x, List.mem_append_left p hx, hat⟩
  served c e' he' := by
    rw [keysThrough_append]
    rcases hserved c e' he' with ⟨e, he, hperm⟩ | ⟨hnew, hkeys⟩
    · exact hperm.trans ((hp.served c e he).append_left _)
    -- Nothing that was known before was opened through a new channel.
    · have hnone : keysThrough p (.channel c) = [] := by
        rw [keysThrough, List.map_eq_nil_iff, List.filter_eq_nil_iff]
        intro x hx hl
        rw [decide_eq_true_eq] at hl
        exact hnew (hl ▸ hp.known x hx)
      rw [hkeys, hnone, List.append_nil]

/-- No session was opened or closed. -/
theorem Covers.of_routes (hp : h.Covers p) (hr : h.Routes h')
    (hm : h.machine.Admits (fun _ _ => False) h'.machine)
    (hserved : ∀ (c : Nat) (e' : Endpoint), h'.channels[c]? = some ⟨true, .exported e'⟩ →
      (∃ e, h.channels[c]? = some ⟨true, .exported e⟩ ∧ e'.served = e.served) ∨
      ¬ h.Known (.channel c) ∧ e'.served = []) : h'.Covers p := by
  refine hp.add (q := []) hr ⟨hm.length_le, hm.ended, fun k key ho => ?_⟩ (fun x hx => ?_)
    fun c e' he' => ?_
  · exact (hm.opens k key ho).imp_right False.elim
  · cases hx
  · refine (hserved c e' he').imp_left ?_
    rintro ⟨e, he, hsame⟩
    exact ⟨e, he, .of_eq hsame⟩

/-- The session `key` was closed. -/
theorem Covers.remove (hp : h.Covers ((l, key) :: p)) (hr : h.Routes h')
    (hm : h.machine.Admits (fun _ _ => False) h'.machine)
    (hgone : ∀ k, h.interpAt l = some k → h'.machine.Ended k ∨ ¬ h'.machine.HasOpen k key)
    (hserved : ∀ (c : Nat) (e' : Endpoint), h'.channels[c]? = some ⟨true, .exported e'⟩ →
      ∃ e, h.channels[c]? = some ⟨true, .exported e⟩ ∧
        e'.served = if l = .channel c then e.served.erase key else e.served) : h'.Covers p where
  known x hx := (hr.leads x.1 (hp.known x (List.mem_cons_of_mem _ hx))).1
  seated x hx k hk := hp.stays_seated hr hm (List.mem_cons_of_mem _ hx) hk
  opens k key' ho := by
    rcases hp.opens k key' ((hm.opens k key' ho).resolve_right id) with he | ⟨x, hx, hk, rfl⟩
    · exact .inl (hm.ended k he)
    -- It was the one that is closed now, or another one that is known still.
    · rcases List.mem_cons.1 hx with rfl | hx'
      · rcases hgone k hk with he | hn
        · exact .inl he
        · exact absurd ho hn
      · rw [← (hr.leads x.1 (hp.known x hx)).2] at hk
        exact .inr ⟨x, hx', hk, rfl⟩
  served c e' he' := by
    obtain ⟨e, he, hserved⟩ := hserved c e' he'
    have hperm := hp.served c e he
    rw [keysThrough_cons] at hperm
    rw [hserved]
    split
    · rename_i hl
      rw [if_pos hl] at hperm
      simpa only [List.erase_cons_head] using hperm.erase key
    · rename_i hl
      rwa [if_neg hl] at hperm

theorem routes_of_channels (hc : h'.channels = h.channels) : h.Routes h' where
  leads l hl := by
    rw [known_iff, hc, ← known_iff]
    exact ⟨hl, interpAt_congr hc l⟩
  cut l k _ _ hcut := by
    obtain ⟨c, e, rfl, he⟩ := hcut
    exact .inl ⟨c, e, rfl, hc ▸ he⟩

/-- The channels are the same. -/
theorem Covers.of_machine (hp : h.Covers p) (hc : h'.channels = h.channels)
    (hm : h.machine.Admits (fun _ _ => False) h'.machine) : h'.Covers p :=
  hp.of_routes (routes_of_channels hc) hm fun _ e' he' => .inl ⟨e', hc ▸ he', rfl⟩

/-- If a channel leads where it led, so does every link. -/
theorem interpAt_set {c : Nat} {channel : Channel Peer} {m : Machine}
    (hlead : interpAt { h with machine := m, channels := h.channels.set c channel } (.channel c) =
      h.interpAt (.channel c)) (l : Link) :
    interpAt { h with machine := m, channels := h.channels.set c channel } l = h.interpAt l := by
  cases l with
  | direct n => rfl
  | channel c' =>
    by_cases hcc : c = c'
    · subst hcc
      exact hlead
    · simp only [interpAt, List.getElem?_set_ne hcc]

/-- A channel leads where it led, and is closed only if its interpreter is finalized. -/
theorem routes_set {c : Nat} {channel : Channel Peer} {m : Machine}
    (hlead : interpAt { h with machine := m, channels := h.channels.set c channel } (.channel c) =
      h.interpAt (.channel c))
    (hcut : ∀ k, h.interpAt (.channel c) = some k → k < h.machine.interps.length →
      channel.live = false → h.Cut (.channel c) ∨ m.Ended k) :
    h.Routes { h with machine := m, channels := h.channels.set c channel } where
  leads l hl := by
    refine ⟨?_, interpAt_set hlead l⟩
    cases l with
    | direct n => trivial
    | channel c' => exact Nat.lt_of_lt_of_eq hl List.length_set.symm
  cut l k hk hlen hclosed := by
    obtain ⟨c', e', rfl, he'⟩ := hclosed
    rcases getElem?_set_cases he' with ⟨rfl, hset⟩ | ⟨-, he'⟩
    · exact hcut k hk hlen (congrArg Channel.live hset)
    · exact .inl ⟨c', e', rfl, he'⟩


/-- A script has no sessions of interpreters. -/
theorem Covers.script {c : Nat} {live : Bool} {s : Script} (channel : Channel Script) (hp : h.Covers p)
    (hc : h.channels[c]? = some ⟨live, .scripted s⟩) :
    Covers p { h with channels := h.channels.set c ⟨channel.live, .scripted channel.peer⟩ } := by
  have hlt : c < h.channels.length := (List.getElem?_eq_some_iff.1 hc).1
  have hnone : h.interpAt (.channel c) = none := by simp only [interpAt, hc]
  refine hp.of_routes (routes_set ?_ fun k hk => ?_) (.refl _) fun c' e' he' => .inl ⟨e', ?_, rfl⟩
  · simp only [interpAt, List.getElem?_set_self hlt, hc]
  · cases hnone.symm.trans hk
  · rcases getElem?_set_cases he' with ⟨-, hset⟩ | ⟨-, he'⟩
    · cases congrArg Channel.peer hset
    · exact he'

/-- An endpoint keeps what it serves, or its channel is closed. -/
theorem Covers.channel {c : Nat} {live live' : Bool} {e e' : Endpoint} {m : Machine} (hp : h.Covers p)
    (hc : h.channels[c]? = some ⟨live, .exported e⟩)
    (hs : Channel.Settles ⟨live, (h.machine, e)⟩ ⟨live', (m, e')⟩) :
    Covers p { h with machine := m, channels := h.channels.set c ⟨live', .exported e'⟩ } := by
  have hlt : c < h.channels.length := (List.getElem?_eq_some_iff.1 hc).1
  refine hp.of_routes (routes_set ?_ fun k hk hlen hn => ?_) hs.machine fun c' e'' he'' => .inl ?_
  · rw [interpAt_channel hc, interpAt_channel (List.getElem?_set_self hlt), hs.interp]
  · obtain rfl := Option.some.inj ((interpAt_channel hc).symm.trans hk)
    cases live with
    | false => exact .inl ⟨c, e, rfl, hc⟩
    | true => exact .inr (hs.closed hn rfl hlen)
  · rcases getElem?_set_cases he'' with ⟨rfl, hset⟩ | ⟨-, he''⟩
    · cases hset
      obtain ⟨rfl, hserved⟩ := hs.served rfl
      exact ⟨e, hc, hserved⟩
    · exact ⟨e'', he'', rfl⟩

theorem covers_onChannel {c : Nat} {f : ChannelStep α} (hp : h.Covers p)
    (hf : ∀ live e, h.channels[c]? = some ⟨live, .exported e⟩ →
      Channel.Settles ⟨live, (h.machine, e)⟩
        (f (Endpoint.image h.texts) ⟨live, (h.machine, e)⟩).2) :
    (runOn h (onChannel c f)).2.Covers p := by
  unfold onChannel
  rw [runOn_of]
  split
  · exact hp
  · rename_i live e hc
    exact hp.channel hc (hf live e hc)
  · rename_i live s hc
    exact hp.script _ hc

/-- A session of an interpreter was opened without a channel. -/
theorem Covers.opened_direct {n : Nat} (hp : h.Covers p) (ho : (h.machine.openSession n).1 = .ok key) :
    Covers ((.direct n, key) :: p) { h with machine := (h.machine.openSession n).2 } := by
  obtain ⟨i, hi, -⟩ := Machine.openSession_interp ho
  obtain ⟨rfl, -, -⟩ := Machine.openSession_result ho
  have ha := Machine.admits_openSession n h.machine
  refine hp.add (q := [(.direct n, ⟨h.machine.nextKey⟩)]) (routes_of_channels rfl)
    ⟨ha.length_le, ha.ended, fun k key ho => ?_⟩ (fun x hx => ?_) fun c e he => .inl ⟨e, he, .refl _⟩
  · refine (ha.opens k key ho).imp_right ?_
    rintro ⟨rfl, rfl⟩
    exact ⟨_, List.mem_singleton_self _, rfl, rfl⟩
  · rw [List.mem_singleton.1 hx]
    refine ⟨trivial, fun k hk => ?_⟩
    obtain rfl := Option.some.inj hk
    refine ⟨Nat.lt_of_lt_of_le (List.getElem?_eq_some_iff.1 hi).1 ha.length_le, ?_⟩
    rintro ⟨c, e, hc, -⟩
    cases hc

/-- An endpoint opened a session. -/
theorem Covers.opened_channel {c : Nat} {e : Endpoint} (hp : h.Covers p)
    (hc : h.channels[c]? = some ⟨true, .exported e⟩) (hlen : e.interp < h.machine.interps.length) :
    Covers ((.channel c, ⟨h.machine.nextKey⟩) :: p) { h with
      machine := (h.machine.openSession e.interp).2
      channels := h.channels.set c
        ⟨true, .exported { e with served := e.served ++ [⟨h.machine.nextKey⟩] }⟩ } := by
  have hlt : c < h.channels.length := (List.getElem?_eq_some_iff.1 hc).1
  have hself := List.getElem?_set_self (a := (⟨true, .exported
    { e with served := e.served ++ [⟨h.machine.nextKey⟩] }⟩ : Channel Peer)) hlt
  have ha := Machine.admits_openSession e.interp h.machine
  have hat : interpAt { h with
      machine := (h.machine.openSession e.interp).2
      channels := h.channels.set c
        ⟨true, .exported { e with served := e.served ++ [⟨h.machine.nextKey⟩] }⟩ } (.channel c) =
      some e.interp := by rw [interpAt_channel hself]
  refine hp.add (q := [(.channel c, ⟨h.machine.nextKey⟩)])
    (routes_set ?_ fun _ _ _ hl => by cases hl)
    ⟨ha.length_le, ha.ended, fun k key ho => ?_⟩ (fun x hx => ?_) fun c' e' he' => .inl ?_
  · rw [hat, interpAt_channel hc]
  · refine (ha.opens k key ho).imp_right ?_
    rintro ⟨rfl, rfl⟩
    exact ⟨_, List.mem_singleton_self _, hat, rfl⟩
  · rw [List.mem_singleton.1 hx]
    refine ⟨Nat.lt_of_lt_of_eq hlt List.length_set.symm, fun k hk => ?_⟩
    obtain rfl := Option.some.inj (hat.symm.trans hk)
    refine ⟨Nat.lt_of_lt_of_le hlen ha.length_le, ?_⟩
    rintro ⟨c', e', hcc, he'⟩
    cases hcc
    cases hself.symm.trans he'
  -- Each endpoint serves what it served, and this one the new key besides.
  · rcases getElem?_set_cases he' with ⟨rfl, hset⟩ | ⟨hcc, he'⟩
    · cases hset
      refine ⟨e, hc, ?_⟩
      rw [keysThrough_cons, if_pos rfl]
      exact List.perm_append_comm
    · rw [keysThrough_cons, if_neg fun he => hcc (Link.channel.inj he)]
      exact ⟨e', he', .refl _⟩

/-- A session of a script is nowhere open. -/
theorem Covers.cons_script {c : Nat} {live : Bool} {s : Script} (hp : h.Covers p)
    (hc : h.channels[c]? = some ⟨live, .scripted s⟩) : h.Covers ((.channel c, key) :: p) := by
  have hnone : h.interpAt (.channel c) = none := by simp only [interpAt, hc]
  refine hp.add (q := [(.channel c, key)]) (routes_of_channels rfl) (.refl _) (fun x hx => ?_)
    fun c' e' he' => .inl ⟨e', he', ?_⟩
  · rw [List.mem_singleton.1 hx]
    refine ⟨(List.getElem?_eq_some_iff.1 hc).1, fun k hk => ?_⟩
    cases hnone.symm.trans hk
  · have hcc : c ≠ c' := by
      rintro rfl
      cases hc.symm.trans he'
    rw [keysThrough_cons, if_neg fun he => hcc (Link.channel.inj he)]
    exact .refl _

/-- An endpoint closed a session. -/
theorem Covers.closed_channel {c : Nat} {e : Endpoint} (hp : h.Covers ((.channel c, key) :: p))
    (hc : h.channels[c]? = some ⟨true, .exported e⟩) :
    Covers p { h with
      machine := h.machine.closeSession e.interp key
      channels := h.channels.set c ⟨true, .exported { e with served := e.served.erase key }⟩ } := by
  have hlt : c < h.channels.length := (List.getElem?_eq_some_iff.1 hc).1
  have hself := List.getElem?_set_self (a := (⟨true, .exported
    { e with served := e.served.erase key }⟩ : Channel Peer)) hlt
  refine hp.remove (routes_set ?_ fun _ _ _ hl => by cases hl)
    (Machine.admits_closeSession e.interp key h.machine) (fun k hk => .inr ?_) fun c' e' he' => ?_
  · rw [interpAt_channel hc, interpAt_channel hself]
  · obtain rfl := Option.some.inj ((interpAt_channel hc).symm.trans hk)
    exact Machine.not_hasOpen_closeSession e.interp key h.machine
  · rcases getElem?_set_cases he' with ⟨rfl, hset⟩ | ⟨hcc, he'⟩
    · cases hset
      exact ⟨e, hc, (if_pos rfl).symm⟩
    · exact ⟨e', he', (if_neg fun he => hcc (Link.channel.inj he)).symm⟩

/-- A session through a channel that is closed, or to a script, can be forgotten. -/
theorem Covers.of_ended (hp : h.Covers ((l, key) :: p))
    (hl : ∀ k, h.interpAt l = some k → h.machine.Ended k)
    (hc : ∀ c e, l = .channel c → h.channels[c]? ≠ some ⟨true, .exported e⟩) : h.Covers p :=
  hp.remove (routes_of_channels rfl) (.refl _) (fun k hk => .inl (hl k hk)) fun c e he =>
    ⟨e, he, (if_neg fun hcc => hc c e hcc he).symm⟩

theorem covers_addChannel {peer : Peer} (hp : h.Covers p)
    (hpeer : ∀ e, peer = .exported e → e.served = []) : (runOn h (addChannel peer)).2.Covers p := by
  have hlast {c : Nat} {channel : Channel Peer} (hc : (h.channels ++ [⟨true, peer⟩])[c]? = some channel) :
      h.channels[c]? = some channel ∨ ¬ h.Known (.channel c) ∧ channel = ⟨true, peer⟩ := by
    exact (getElem?_append_cases hc).imp_right fun hnew =>
      ⟨Nat.not_lt.2 hnew.1, List.mem_singleton.1 hnew.2⟩
  refine hp.of_routes ⟨fun l hl => ?_, fun l k hk _ hcut => .inl ?_⟩ (.refl _) fun c e' he' => ?_
  · exact (keeps_addChannel (n := 0) (K := fun _ => False) hpeer h).leads l hl
  · obtain ⟨c, e', rfl, he'⟩ := hcut
    rcases hlast he' with he' | ⟨-, he'⟩
    · exact ⟨c, e', rfl, he'⟩
    · cases he'
  · rcases hlast he' with he' | ⟨hn, he'⟩
    · exact .inl ⟨e', he', rfl⟩
    · cases he'
      exact .inr ⟨hn, hpeer e' rfl⟩

end Host

namespace Link

open Host

variable {α : Type} {p : List (Link × SessionKey)} {h h' : Host} {l : Link} {key : SessionKey}

theorem covers_perform (key : SessionKey) (op : Op) (l : Link) (hp : h.Covers p) :
    (runOn h (l.perform key op)).2.Covers p := by
  cases l with
  | direct n => exact hp.of_machine rfl (Machine.admits_perform h.texts n key op h.machine)
  | channel c => exact covers_onChannel hp fun live e _ => Channel.settles_perform h.texts key op live _ e

theorem covers_setResolver (r : Resolver) (l : Link) (hp : h.Covers p) :
    (runOn h (l.setResolver r)).2.Covers p := by
  cases l with
  | direct n => exact hp.of_machine rfl (Machine.admits_setResolver n r h.machine)
  | channel c => exact covers_onChannel hp fun live e _ => Channel.settles_setResolver h.texts r live _ e

theorem covers_finalize (l : Link) (hp : h.Covers p) : (runOn h l.finalize).2.Covers p := by
  cases l with
  | direct n => exact hp.of_machine rfl (Machine.admits_finalize n h.machine)
  | channel c => exact covers_onChannel hp fun live e _ => Channel.settles_finalize h.texts live _ e

/-- A session that could not be opened is none. -/
theorem covers_openSession_error {e : Error} (hp : h.Covers p)
    (hr : runOn h l.openSession = (.error e, h')) : h'.Covers p := by
  cases l with
  | direct n =>
    simp only [openSession, ofMachine, runOn_of] at hr
    obtain ⟨ho, rfl⟩ := Prod.mk.inj hr
    exact hp.of_machine rfl (Machine.admits_of_eq (by rw [Machine.openSession_error ho]))
  | channel c =>
    have hstep := covers_onChannel (h := h) (c := c) (p := p)
      (f := fun image ch => ch.openSession image) hp fun live e' hc => by
        rcases Channel.openSession_cases h.texts live h.machine e' with ⟨f, hf⟩ | ⟨rfl, i, hi, hfin, hf⟩
        · rw [hf]
          exact Channel.settles_of_machine (.refl _)
        · simp only [openSession, onChannel, runOn_of, hc, hf] at hr
          cases hr
    have hrun : runOn h (openSession (.channel c)) = (.error e, h') := hr
    rw [openSession] at hrun
    rwa [hrun] at hstep

/-- A session that was opened is one more. -/
theorem covers_openSession_ok (hp : h.Covers p) (hr : runOn h l.openSession = (.ok key, h')) :
    h'.Covers ((l, key) :: p) := by
  cases l with
  | direct n =>
    simp only [openSession, ofMachine, runOn_of] at hr
    obtain ⟨ho, rfl⟩ := Prod.mk.inj hr
    exact hp.opened_direct ho
  | channel c =>
    simp only [openSession, onChannel, runOn_of] at hr
    split at hr
    · cases hr
    · rename_i live e hc
      rcases Channel.openSession_cases h.texts live h.machine e with ⟨f, hf⟩ | ⟨rfl, i, hi, hfin, hf⟩
      · rw [hf] at hr
        cases hr
      · rw [hf] at hr
        cases hr
        exact hp.opened_channel hc (List.getElem?_eq_some_iff.1 hi).1
    · rename_i live s hc
      obtain ⟨-, rfl⟩ := Prod.mk.inj hr
      have hlt : c < h.channels.length := (List.getElem?_eq_some_iff.1 hc).1
      exact (hp.script _ hc).cons_script (List.getElem?_set_self hlt)

/-- A session that was closed is one less. -/
theorem covers_closeSession (hp : h.Covers ((l, key) :: p)) :
    (runOn h (l.closeSession key)).2.Covers p := by
  cases l with
  | direct n =>
    refine hp.remove (routes_of_channels rfl) (Machine.admits_closeSession n key h.machine)
      (fun k hk => .inr ?_) fun c e he => ⟨e, he, (if_neg fun hl => by cases hl).symm⟩
    obtain rfl := Option.some.inj hk
    exact Machine.not_hasOpen_closeSession n key h.machine
  | channel c =>
    have hknown : h.Known (.channel c) := hp.known _ List.mem_cons_self
    simp only [closeSession, onChannel, runOn_of]
    split
    · rename_i hc
      exact absurd (List.getElem?_eq_none_iff.1 hc) (Nat.not_le.2 hknown)
    · rename_i live e hc
      cases live with
      | true =>
        have hserved : key ∈ e.served := by
          rw [(hp.served c e hc).mem_iff, keysThrough_cons, if_pos rfl]
          exact List.mem_cons_self
        rw [Channel.closeSession_endpoint hserved]
        exact hp.closed_channel hc
      -- The request goes nowhere. But then the interpreter was finalized, and its sessions do not count.
      | false =>
        rw [Channel.closeSession_unserved fun hl => by cases hl]
        refine Covers.channel (hp.of_ended (fun k hk => ?_) fun c' e' hcc he' => ?_) hc
          (Channel.settles_of_machine (.refl _))
        · exact (hp.seated _ List.mem_cons_self k hk).2 ⟨c, e, rfl, hc⟩
        · cases hcc
          cases hc.symm.trans he'
    · rename_i live s hc
      refine Covers.script _ (hp.of_ended (fun k hk => ?_) fun c' e' hcc he' => ?_) hc
      · have hnone : h.interpAt (.channel c) = none := by simp only [interpAt, hc]
        cases hnone.symm.trans hk
      · cases hcc
        cases hc.symm.trans he'

end Link
end InstancePool
