import InstancePool.Proofs.Interp.NamespaceSharing

/-!
Which references the sessions of interpreters hand out. The slots of a session only grow, by one at a
time and through its own operations, and what an endpoint is asked to do in one session leaves the
slots of the others alone. Keys are given out in order.
-/

namespace InstancePool

/-- How many keys were given out before this one. -/
def SessionKey.rank (key : SessionKey) : Nat := (key.number - 1).toNat

namespace Engine

variable {source : TextSource} {key : SessionKey} {op : Op} {e : Engine}

/-- An operation in one session leaves the slots of the others alone. -/
theorem perform_others {key' : SessionKey} (hne : key' ≠ key) :
    (Engine.perform source key op e).2.interp.sessions.get? key' =
      e.interp.sessions.get? key' := by
  have hfind (name : String) :
      (e.findModule source name).2.interp.sessions = e.interp.sessions := by
    obtain ⟨heap, modules, he, -⟩ := findModule_cases source name e
    rw [he]
  have hp := perform_performed source key op e
  generalize Engine.perform source key op e = x at hp
  cases hp with
  | unknown | failed => rfl
  | missed => rw [hfind]
  | @found module name slots n hk => exact (Table.get?_insert_of_ne hne).trans (by rw [hfind])
  | done hk hd =>
    cases hd with
    | seen | bound | unloaded => rfl
    | handed | made | restored => exact Table.get?_insert_of_ne hne

/-- An operation either hands out nothing, and then the slots of its session are as they were, or it
hands out the next reference. -/
theorem perform_own (source : TextSource) (op : Op) {slots : List ObjectIndex}
    (hk : e.interp.sessions.get? key = some slots) :
    ((∀ r, (Engine.perform source key op e).1 ≠ .ok (.ref r)) ∧
        (Engine.perform source key op e).2.interp.sessions.get? key = some slots) ∨
      (Engine.perform source key op e).1 = .ok (.ref ⟨key, UInt32.ofNat slots.length⟩) ∧
        ∃ n, (Engine.perform source key op e).2.interp.sessions.get? key = some (slots ++ [n]) := by
  have hp := perform_performed source key op e
  generalize Engine.perform source key op e = x at hp
  cases hp with
  | unknown hn =>
    rw [hk] at hn
    cases hn
  | failed f => exact .inl ⟨fun r hr => (by cases hr), hk⟩
  | @missed module name f =>
    obtain ⟨heap, modules, he, -⟩ := findModule_cases source module e
    refine .inl ⟨fun r hr => (by cases hr), ?_⟩
    rw [he]
    exact hk
  | @found module name slots' n hk' =>
    obtain rfl := Option.some.inj (hk.symm.trans hk')
    exact .inr ⟨rfl, n, Table.get?_insert_self ..⟩
  | @done op slots' x hk' hd =>
    obtain rfl := Option.some.inj (hk.symm.trans hk')
    cases hd with
    | @seen op r hkind hr =>
      refine .inl ⟨fun r' he => hr ?_, hk⟩
      cases he
      rfl
    | bound | unloaded => exact .inl ⟨fun r hr => (by cases hr), hk⟩
    | handed | made | restored => exact .inr ⟨rfl, _, Table.get?_insert_self ..⟩

end Engine

namespace Machine

variable {source : TextSource} {m m' m'' : Machine} {n k : Nat} {i i' : Interp} {key : SessionKey}
  {op : Op}

/-- How many session keys were given out. -/
def given (m : Machine) : Nat := SessionKey.rank ⟨m.nextKey⟩

/-- The objects that a session of an interpreter handed out. -/
def slots (m : Machine) (k : Nat) (key : SessionKey) : Option (List ObjectIndex) :=
  (m.interps[k]?).bind fun i => i.sessions.get? key

/-- From a machine to a later one: the slots of a session are as they were, wherever it is. -/
def Retains (key : SessionKey) (m m' : Machine) : Prop :=
  ∀ k slots, m.slots k key = some slots → m'.slots k key = some slots

theorem Retains.refl (key : SessionKey) (m : Machine) : Retains key m m := fun _ _ => id

theorem Retains.trans (h : Retains key m m') (h' : Retains key m' m'') : Retains key m m'' :=
  fun k slots hs => h' k slots (h k slots hs)

theorem given_add {j : Nat} (hm : m'.nextKey = m.nextKey + UInt64.ofNat j)
    (hj : m.given + j < 2 ^ 64) : m'.given = m.given + j := by
  have hj' : j < 2 ^ 64 := by omega
  have htwo : (2 : Nat) ^ 64 = 18446744073709551616 := rfl
  unfold given SessionKey.rank at *
  simp only [hm, UInt64.toNat_sub, UInt64.toNat_add, UInt64.toNat_ofNat, UInt64.toNat_ofNat'] at *
  omega

/-- The next key was not given out before. -/
theorem ne_nextKey (hk : key.rank < m.given) : key ≠ ⟨m.nextKey⟩ := by
  rintro rfl
  exact Nat.lt_irrefl _ hk

theorem slots_eq (hi : m.interps[k]? = some i) : m.slots k key = i.sessions.get? key := by
  rw [slots, hi]
  rfl

/-- One interpreter was replaced by one that has the same slots for the session. -/
theorem retains_of_set (hi : m.interps[n]? = some i) (hm : m'.interps = m.interps.set n i')
    (hs : i'.sessions.get? key = i.sessions.get? key) : Retains key m m' := by
  have hlt : n < m.interps.length := (List.getElem?_eq_some_iff.1 hi).1
  intro k slots hk
  unfold Machine.slots at *
  by_cases he : n = k
  · subst he
    rw [hi, Option.bind_some] at hk
    rw [hm, List.getElem?_set_self hlt, Option.bind_some, hs, hk]
  · rw [hm, List.getElem?_set_ne he, hk]

theorem retains_openSession (hk : key.rank < m.given) :
    Retains key m (m.openSession n).2 := by
  unfold openSession
  split
  · exact .refl key m
  · rename_i i hi
    split
    · exact .refl key m
    · refine retains_of_set hi rfl ?_
      rw [Table.get?_insert_of_ne (ne_nextKey hk)]

theorem retains_perform {key' : SessionKey} (hne : key ≠ key') :
    Retains key m (m.perform source n key' op).2 := by
  unfold perform
  split
  · exact .refl key m
  · rename_i i hi
    exact retains_of_set hi rfl (Engine.perform_others hne)

theorem retains_closeSession {key' : SessionKey} (hne : key ≠ key') :
    Retains key m (m.closeSession n key') := by
  unfold closeSession
  split
  · exact .refl key m
  · rename_i i hi
    refine retains_of_set hi rfl ?_
    rw [Table.get?_erase, if_neg hne]

theorem retains_closeSessions {keys : List SessionKey} (hk : key ∉ keys) (m : Machine) :
    Retains key m (keys.foldl (fun m key => m.closeSession n key) m) := by
  induction keys generalizing m with
  | nil => exact .refl key m
  | cons key' keys ih =>
    have hne : key ≠ key' := fun he => hk (he ▸ List.mem_cons_self)
    exact (retains_closeSession hne).trans (ih (fun hm => hk (List.mem_cons_of_mem key' hm)) _)

theorem retains_setResolver (r : Resolver) : Retains key m (m.setResolver n r) := by
  unfold setResolver
  split
  · exact .refl key m
  · rename_i i hi
    exact retains_of_set hi rfl rfl

theorem retains_finalize : Retains key m (m.finalize n).2 := by
  unfold finalize
  split
  · exact .refl key m
  · rename_i i hi
    split
    · exact retains_of_set hi rfl rfl
    · exact retains_of_set hi rfl rfl

theorem retains_create (searchPaths : List String) (failFinalize : Bool)
    (observer : Option Observer) :
    Retains key m (m.create searchPaths failFinalize observer).2 := by
  intro k slots hk
  unfold Machine.slots at *
  obtain ⟨i, hi, hs⟩ := Option.bind_eq_some_iff.1 hk
  have hlt : k < m.interps.length := (List.getElem?_eq_some_iff.1 hi).1
  rw [create]
  simp only [List.getElem?_append_left hlt, hi, Option.bind_some, hs]

/-- A session that could be opened has the next key and has handed out nothing. -/
theorem openSession_result {key : SessionKey} (ho : (m.openSession n).1 = .ok key) :
    key = ⟨m.nextKey⟩ ∧ (m.openSession n).2.nextKey = m.nextKey + 1 ∧
      (m.openSession n).2.slots n key = some [] := by
  unfold openSession at ho ⊢
  split at ho
  · cases ho
  · rename_i i hi
    split at ho
    · cases ho
    · rename_i hf
      cases ho
      have hlt : n < m.interps.length := (List.getElem?_eq_some_iff.1 hi).1
      simp only [hf, if_false, true_and, Bool.false_eq_true]
      rw [slots_eq (List.getElem?_set_self hlt), Table.get?_insert_self]

theorem openSession_interp {key : SessionKey} (ho : (m.openSession n).1 = .ok key) :
    ∃ i, m.interps[n]? = some i ∧ i.finalized = false := by
  unfold openSession at ho
  split at ho
  · cases ho
  · rename_i i hi
    split at ho
    · cases ho
    · rename_i hf
      exact ⟨i, hi, Bool.eq_false_iff.2 hf⟩

theorem openSession_error {cause : Error} (ho : (m.openSession n).1 = .error cause) :
    (m.openSession n).2 = m := by
  unfold openSession at ho ⊢
  split
  · rfl
  · rename_i i hi
    rw [hi] at ho
    simp only [] at ho
    split at ho
    · rename_i hf
      rw [if_pos hf]
    · cases ho


@[simp] theorem perform_nextKey : (m.perform source n key op).2.nextKey = m.nextKey := by
  unfold perform
  split <;> rfl

@[simp] theorem closeSession_nextKey : (m.closeSession n key).nextKey = m.nextKey := by
  unfold closeSession
  split <;> rfl

@[simp] theorem setResolver_nextKey (r : Resolver) : (m.setResolver n r).nextKey = m.nextKey := by
  unfold setResolver
  split <;> rfl

@[simp] theorem finalize_nextKey : (m.finalize n).2.nextKey = m.nextKey := by
  unfold finalize
  split
  · rfl
  · split <;> rfl

theorem closeSessions_nextKey (keys : List SessionKey) (m : Machine) :
    (keys.foldl (fun m key => m.closeSession n key) m).nextKey = m.nextKey := by
  induction keys generalizing m with
  | nil => rfl
  | cons key keys ih => exact (ih _).trans closeSession_nextKey

end Machine

/-- The sessions that a request names. -/
def Request.Names : Request → SessionKey → Prop
  | .openSession, _ => False
  | .closeSession key, key' | .act key _, key' => key' = key

/-- How many sessions a request opens if it succeeds. -/
def Request.openings : Request → Nat
  | .openSession => 1
  | .closeSession _ | .act .. => 0

namespace Wire

theorem answers_eq_of_opIndex {o o' : Op} (h : opIndex o' = opIndex o) : o'.answers = o.answers := by
  cases o <;> cases o' <;> first | rfl | cases h

/-- Whatever becomes of a request in its written form, however long, it stays in its session and keeps its
number. -/
theorem decodeRequest_of_encode {r r' : Request} {bs : List UInt8} (h : encodeRequest r = .ok bs)
    (h' : decodeRequest bs = .ok r') :
    r' = r ∨ ∃ key op op', r = .act key op ∧ r' = .act key op' ∧ opIndex op' = opIndex op := by
  -- All but an operation is short, and so is read back.
  have hback (hl : bs.length < 2 ^ 64) : r' = r := by
    have hread := decodeRequest_encodeRequest h hl []
    rw [List.append_nil, h'] at hread
    exact Except.ok.inj hread
  cases r with
  | openSession =>
    refine .inl (hback ?_)
    obtain rfl := Except.ok.inj h
    have h0 := length_bytesOfNat32_le 0
    omega
  | closeSession key =>
    refine .inl (hback ?_)
    obtain rfl := Except.ok.inj h
    have h1 := length_bytesOfNat32_le 1
    have hk := length_bytesOfKey_le key
    rw [List.length_append]
    omega
  | act key o =>
    obtain ⟨rest, hrun⟩ := decodeRequest_ok h'
    simp only [encodeRequest, requestBytes] at h
    rcases hc : opBytes Value.maxDepth o with e | content
    · rw [hc] at h
      cases h
    · rw [hc] at h
      obtain rfl := Except.ok.inj h
      rw [request_act] at hrun
      have ho := (yields_op Value.maxDepth (opIndex o)).map (f := Request.act key)
        (Q := fun r => ∃ o', r = .act key o' ∧ opIndex o' = opIndex o) fun o' ho' => ⟨o', rfl, ho'⟩
      obtain ⟨o', rfl, ha⟩ := ho _ _ _ hrun
      exact .inr ⟨key, o, o', rfl, rfl, ha⟩

end Wire

/-- From a channel of an endpoint to a later state of it, in which `opened` sessions were opened: those
that were there are still served with the slots that they had, unless they are in `K`; or the channel is
closed. The slots of sessions that are not served are as they were. -/
structure Channel.Minds (K : SessionKey → Prop) (opened : Nat)
    (c c' : Channel (Machine × Endpoint)) : Prop where
  interp : c'.peer.2.interp = c.peer.2.interp
  nextKey : c'.peer.1.nextKey = c.peer.1.nextKey + UInt64.ofNat opened
  closed : c.live = false → c'.live = false
  served : ∀ key ∈ c'.peer.2.served, key ∈ c.peer.2.served ∨ key = ⟨c.peer.1.nextKey⟩ ∧ opened = 1
  here : ∀ key ∈ c.peer.2.served, key.rank < c.peer.1.given → ¬ K key →
    c'.live = false ∨ c'.live = c.live ∧ key ∈ c'.peer.2.served ∧ c.peer.1.Retains key c'.peer.1
  away : ∀ key, key ∉ c.peer.2.served → key.rank < c.peer.1.given → ¬ K key →
    c.peer.1.Retains key c'.peer.1

namespace Channel

variable {K L : SessionKey → Prop} {opened : Nat} {c c' : Channel (Machine × Endpoint)} {live : Bool}
  {m m' : Machine} {e : Endpoint}

theorem Minds.mono (h : Minds K opened c c') (hk : ∀ key, K key → L key) : Minds L opened c c' where
  interp := h.interp
  nextKey := h.nextKey
  closed := h.closed
  served := h.served
  here key hs hold hn := h.here key hs hold fun h => hn (hk key h)
  away key hs hold hn := h.away key hs hold fun h => hn (hk key h)

/-- The endpoint is as it was. -/
theorem minds_of_machine (hn : m'.nextKey = m.nextKey)
    (hr : ∀ key, ¬ K key → m.Retains key m') : Minds K 0 ⟨live, (m, e)⟩ ⟨live, (m', e)⟩ where
  interp := rfl
  nextKey := hn.trans (UInt64.add_zero _).symm
  closed := id
  served _ := .inl
  here key hs _ hk := .inr ⟨rfl, hs, hr key hk⟩
  away key _ _ hk := hr key hk

theorem Minds.refl (c : Channel (Machine × Endpoint)) : Minds K 0 c c :=
  minds_of_machine rfl fun key _ => .refl key _

/-- An endpoint touches the session that a request names, if it serves it. -/
theorem minds_serve (source : TextSource) (r : Request) (live : Bool) (m : Machine) (e : Endpoint) :
    ∃ opened ≤ r.openings, Minds (fun key => r.Names key ∧ key ∈ e.served) opened
      ⟨live, (m, e)⟩ ⟨live, (Endpoint.serve source r (m, e)).2⟩ := by
  cases r with
  | openSession =>
    simp only [Endpoint.serve]
    cases ho : (m.openSession e.interp).1 with
    | error cause =>
      have hm := Machine.openSession_error ho
      rcases hx : m.openSession e.interp with ⟨result, m'⟩
      rw [hx] at ho hm
      obtain rfl : result = .error cause := ho
      obtain rfl : m' = m := hm
      exact ⟨0, Nat.zero_le _, .refl _⟩
    | ok key =>
      obtain ⟨hkey, hnext, -⟩ := Machine.openSession_result ho
      have hretains (key : SessionKey) (hold : key.rank < m.given) :=
        Machine.retains_openSession (n := e.interp) hold
      rcases hx : m.openSession e.interp with ⟨result, m'⟩
      rw [hx] at ho hnext hretains
      obtain rfl : result = .ok key := ho
      refine ⟨1, Nat.le_refl 1, rfl, hnext, id, fun key' hs => ?_, fun key' hs hold _ => ?_,
        fun key' _ hold _ => hretains key' hold⟩
      · rcases List.mem_append.1 hs with hs | hs
        · exact .inl hs
        · exact .inr ⟨(List.mem_singleton.1 hs).trans hkey, rfl⟩
      · exact .inr ⟨rfl, List.mem_append_left _ hs, hretains key' hold⟩
  | closeSession key =>
    simp only [Endpoint.serve]
    split
    · rename_i hserved
      have hne (key' : SessionKey) (hn : ¬ (key' = key ∧ key' ∈ e.served)) : key' ≠ key :=
        fun he => hn ⟨he, he ▸ hserved⟩
      refine ⟨0, Nat.le_refl 0, rfl, ?_, id, fun key' hs => .inl (List.mem_of_mem_erase hs),
        fun key' hs _ hn => .inr ⟨rfl, ?_, Machine.retains_closeSession (hne key' hn)⟩,
        fun key' _ _ hn => Machine.retains_closeSession (hne key' hn)⟩
      · exact Machine.closeSession_nextKey.trans (UInt64.add_zero _).symm
      · exact (List.mem_erase_of_ne (hne key' hn)).2 hs
    · exact ⟨0, Nat.le_refl 0, .refl _⟩
  -- Every session but the one that is named keeps its slots.
  | act key op =>
    simp only [Endpoint.serve]
    split
    · rename_i hserved
      refine ⟨0, Nat.le_refl 0, minds_of_machine Machine.perform_nextKey fun key' hn =>
        Machine.retains_perform fun he => hn ⟨he, he ▸ hserved⟩⟩
    · exact ⟨0, Nat.le_refl 0, .refl _⟩

/-- Whatever bytes come in, sessions that are not served are not touched. -/
theorem minds_dispatch (source : TextSource) (bytes : List UInt8) (live : Bool) (m : Machine)
    (e : Endpoint) : ∃ opened ≤ 1, Minds (· ∈ e.served) opened
      ⟨live, (m, e)⟩ ⟨live, (Endpoint.dispatch source bytes (m, e)).2⟩ := by
  unfold Endpoint.dispatch
  cases Wire.decodeRequest bytes with
  | error cause =>
    simp only []
    split <;> exact ⟨0, Nat.zero_le 1, .refl _⟩
  | ok r =>
    have hr : r.openings ≤ 1 := by
      cases r <;> first | exact Nat.le_refl 1 | exact Nat.zero_le 1
    obtain ⟨opened, ho, hm⟩ := minds_serve source r live m e
    have hminds := hm.mono (L := (· ∈ e.served)) fun key hk => hk.2
    simp only []
    split <;> exact ⟨opened, Nat.le_trans ho hr, hminds⟩

/-- A call touches the session that it names. -/
theorem minds_call (source : TextSource) (r : Request) (c : Channel (Machine × Endpoint)) :
    ∃ opened ≤ r.openings, Minds r.Names opened c (c.call (Endpoint.image source) r).2 := by
  obtain ⟨live, m, e⟩ := c
  rcases call_cases source r ⟨live, (m, e)⟩ with he | ⟨bytes, r', rfl, hb, hd, he⟩
  · rw [he]
    exact ⟨0, Nat.zero_le _, .refl _⟩
  · have hsame : r'.Names = r.Names ∧ r'.openings = r.openings := by
      rcases Wire.decodeRequest_of_encode hb hd with rfl | ⟨key, op, op', rfl, rfl, -⟩
      · exact ⟨rfl, rfl⟩
      · exact ⟨rfl, rfl⟩
    obtain ⟨opened, ho, hm⟩ := minds_serve source r' true m e
    rw [he]
    exact ⟨opened, hsame.2 ▸ ho, hm.mono fun key hk => hsame.1 ▸ hk.1⟩

theorem minds_setResolver (source : TextSource) (r : Resolver) (c : Channel (Machine × Endpoint)) :
    Minds K 0 c (c.setResolver (Endpoint.image source) r) := by
  unfold setResolver
  split
  · exact minds_of_machine (Machine.setResolver_nextKey _) fun key _ =>
      Machine.retains_setResolver _
  · exact .refl c

/-- Finalization closes the channel, and with it the sessions that are served. -/
theorem minds_finalizeImage (live : Bool) (m : Machine) (e : Endpoint) :
    Minds K 0 ⟨live, (m, e)⟩ ⟨false, (Endpoint.finalize (m, e)).2⟩ where
  interp := rfl
  nextKey := (Machine.finalize_nextKey.trans (Machine.closeSessions_nextKey e.served m)).trans
    (UInt64.add_zero _).symm
  closed _ := rfl
  served _ hs := absurd hs List.not_mem_nil
  here _ _ _ _ := .inl rfl
  away _ hs _ _ := (Machine.retains_closeSessions hs m).trans Machine.retains_finalize

theorem minds_finalize (source : TextSource) (c : Channel (Machine × Endpoint)) :
    Minds K 0 c (c.finalize (Endpoint.image source)).2 := by
  unfold finalize
  split
  · exact minds_finalizeImage ..
  · exact .refl c

end Channel

end InstancePool
