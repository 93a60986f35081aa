import InstancePool.Proofs.Balancer.Counting
import InstancePool.Proofs.Interp.SessionSlots
import InstancePool.Proofs.Channel.Equivalence

/-!
Sessions that are open when their interpreter is finalized. A channel closes them with the interpreter, and
refuses every later call. In the process of the interpreter they go on as if it had not been finalized, and
only another session is refused. So the two ways part there: by each call in such a session, and by the
number of sessions that are open.
-/

namespace InstancePool

open HostM

/-- Whether a call asks for another session. -/
def Call.opens : Call → Bool
  | .openSession => true
  | _ => false

/-- What is left to be seen once the sessions with some keys are closed. -/
def View.closing (keys : List SessionKey) (v : View) : View :=
  { v with
    openSessions := v.openSessions - keys.length
    identity := fun r => if r.session ∈ keys then none else v.identity r }

namespace Client

/-- Finalizes the interpreter, whatever comes of it. -/
def finalize (c : Client) : Client := { c with host := (runOn c.host c.link.finalize).2 }

/-- The client after some calls. -/
def after (c : Client) (calls : List Call) : Client := calls.foldl (fun c call => (c.step call).2) c

/-- What the client sees of an interpreter. -/
def view? (c : Client) (n : Nat) : Option View := (c.host.engine? n).map Engine.view

/-- The keys of the sessions that are open. -/
def live (c : Client) : List SessionKey := c.sessions.filterMap id

/-- The sessions that are left after a call that opens none. -/
def remaining (sessions : List (Option SessionKey)) : Call → List (Option SessionKey)
  | .closeSession s => sessions.set s none
  | _ => sessions

variable {n : Nat} {c d : Client} {call : Call}

theorem set_of_key?_eq_none {s : Nat} (hs : c.key? s = none) : c.sessions.set s none = c.sessions := by
  unfold key? at hs
  cases hget : c.sessions[s]? with
  | none => exact List.set_eq_of_length_le (List.getElem?_eq_none_iff.1 hget)
  | some o =>
    rw [hget] at hs
    obtain rfl : o = none := hs
    obtain ⟨hlt, hsame⟩ := List.getElem?_eq_some_iff.1 hget
    rw [← hsame, List.set_getElem_self]

theorem sessions_step (hcall : call.opens = false) :
    (c.step call).2.sessions = remaining c.sessions call := by
  cases call with
  | openSession => cases hcall
  | closeSession s =>
    cases hkey : c.key? s with
    | none =>
      simp only [step, hkey]
      exact (set_of_key?_eq_none hkey).symm
    | some key => simp only [step, hkey, remaining]
  | setResolver | publish => rfl
  | perform s op =>
    cases hkey : c.key? s <;> simp only [step, hkey, remaining]

/-! ### Through a closed channel -/

/-- What leaves a closed channel as it is leaves the host as it is. -/
theorem onChannel_closed {α : Type} {h : Host} {k : Nat} {e : Endpoint} {r : Except Error α}
    (f : Host.ChannelStep α) (hc : h.channels[k]? = some ⟨false, .exported e⟩)
    (hf : f (Endpoint.image h.texts) ⟨false, (h.machine, e)⟩ = (r, ⟨false, (h.machine, e)⟩)) :
    Host.onChannel k f h = (r, h) := by
  obtain ⟨hlt, hsame⟩ := List.getElem?_eq_some_iff.1 hc
  rw [Host.onChannel_exported hc, hf]
  show (r, { h with channels := h.channels.set k ⟨false, .exported e⟩ }) = _
  rw [← hsame, List.set_getElem_self]

/-- A client with a closed channel, and what it sees. -/
structure Shut (n : Nat) (v : Option View) (c : Client) : Prop where
  channel : ∃ k e, c.link = .channel k ∧ c.host.channels[k]? = some ⟨false, .exported e⟩
  seen : c.view? n = v

/-- What a closed channel answers. -/
def refusal (c : Client) : Call → Option (Except Error Response)
  | .openSession => some (.error .closed)
  | .perform s _ => (c.key? s).map fun _ => .error .closed
  | _ => none

theorem Shut.step_openSession {v : Option View} (hs : Shut n v c) :
    c.step .openSession = (some (.error .closed), c) := by
  obtain ⟨k, e, hlink, hc⟩ := hs.channel
  have hopen : runOn c.host c.link.openSession = (.error .closed, c.host) := by
    rw [hlink]
    exact onChannel_closed (fun image ch => ch.openSession image) hc rfl
  simp only [Client.step, hopen]

theorem Shut.step {v : Option View} (hs : Shut n v c) (call : Call) :
    (c.step call).1 = c.refusal call ∧ Shut n v (c.step call).2 := by
  obtain ⟨k, e, hlink, hc⟩ := hs.channel
  -- A closed channel is not so much as asked.
  cases call with
  | openSession =>
    rw [hs.step_openSession]
    exact ⟨rfl, hs⟩
  | closeSession s =>
    cases hkey : c.key? s with
    | none =>
      simp only [Client.step, hkey]
      exact ⟨rfl, hs⟩
    | some key =>
      have hclose : runOn c.host (c.link.closeSession key) = (.ok (), c.host) := by
        rw [hlink]
        exact onChannel_closed (fun image ch => (.ok (), ch.closeSession image key)) hc rfl
      simp only [Client.step, hkey, hclose]
      exact ⟨rfl, ⟨k, e, hlink, hc⟩, hs.seen⟩
  | setResolver r =>
    have hset : runOn c.host (c.link.setResolver r) = (.ok (), c.host) := by
      rw [hlink]
      exact onChannel_closed (fun image ch => (.ok (), ch.setResolver image r)) hc rfl
    simp only [Client.step, hset]
    exact ⟨rfl, hs⟩
  | publish registries => exact ⟨rfl, ⟨k, e, hlink, hc⟩, hs.seen⟩
  | perform s op =>
    cases hkey : c.key? s with
    | none =>
      simp only [Client.step, refusal, hkey]
      exact ⟨rfl, hs⟩
    | some key =>
      have hperform : runOn c.host (c.link.perform key op) = (.error .closed, c.host) := by
        rw [hlink]
        exact onChannel_closed (fun image ch => ch.perform image key op) hc rfl
      simp only [Client.step, refusal, hkey, hperform]
      exact ⟨rfl, hs⟩

theorem eq_closed_of_refusal {answer : Except Error Response} (h : answer ∈ c.refusal call) :
    answer = .error .closed := by
  cases call with
  | openSession => exact (Option.some.inj h).symm
  | perform s op =>
    obtain ⟨key, -, hanswer⟩ := Option.map_eq_some_iff.1 h
    exact hanswer.symm
  | closeSession | setResolver | publish => cases h

/-! ### In the process of the interpreter -/

/-- The first client has an interpreter, and the second the same one once it was finalized. -/
structure Spent (n : Nat) (c d : Client) : Prop where
  link : c.link = .direct n ∧ d.link = .direct n
  sessions : d.sessions = c.sessions
  registries : d.host.registries = c.host.registries
  heap : d.host.machine.heap = c.host.machine.heap
  interp : ∃ i, c.host.machine.interps[n]? = some i ∧
    d.host.machine.interps[n]? = some { i with finalized := true }

theorem Spent.view_eq (hs : Spent n c d) : d.view? n = c.view? n := by
  obtain ⟨i, hi, hi'⟩ := hs.interp
  simp only [view?, Host.engine?, hi, hi', hs.heap, Option.map_some]
  rfl

/-- Another session is refused. -/
theorem Spent.step_openSession (hs : Spent n c d) : d.step .openSession = (some (.error .closed), d) := by
  obtain ⟨i, -, hi⟩ := hs.interp
  have hopen : runOn d.host d.link.openSession = (.error .closed, d.host) := by
    rw [hs.link.2]
    simp only [runOn, Link.openSession, ofMachine, of, Machine.openSession, hi, if_true]
  simp only [step, hopen]

/-- Every other call comes to the same. -/
theorem Spent.step (hs : Spent n c d) (hcall : call.opens = false) :
    (d.step call).1 = (c.step call).1 ∧ Spent n (c.step call).2 (d.step call).2 := by
  obtain ⟨i, hi, hi'⟩ := hs.interp
  have hn : n < c.host.machine.interps.length := (List.getElem?_eq_some_iff.1 hi).1
  have hn' : n < d.host.machine.interps.length := (List.getElem?_eq_some_iff.1 hi').1
  have hkey (s : Nat) : d.key? s = c.key? s := by rw [key?, key?, hs.sessions]
  obtain ⟨hlink, hlink'⟩ := hs.link
  cases call with
  | openSession => cases hcall
  | closeSession s =>
    cases hk : c.key? s with
    | none =>
      simp only [Client.step, hkey, hk]
      exact ⟨trivial, hs⟩
    | some key =>
      simp only [Client.step, hkey, hk, hlink, hlink', runOn, Link.closeSession, ofMachine, of,
        Machine.closeSession, hi, hi']
      exact ⟨trivial, ⟨rfl, rfl⟩, by rw [hs.sessions], hs.registries, hs.heap,
        { i with sessions := i.sessions.erase key }, List.getElem?_set_self hn, List.getElem?_set_self hn'⟩
  | setResolver r =>
    simp only [Client.step, hlink, hlink', runOn, Link.setResolver, ofMachine, of, Machine.setResolver, hi,
      hi']
    exact ⟨trivial, ⟨rfl, rfl⟩, hs.sessions, hs.registries, hs.heap,
      { i with resolver := some r }, List.getElem?_set_self hn, List.getElem?_set_self hn'⟩
  | publish registries => exact ⟨rfl, hs.link, hs.sessions, rfl, hs.heap, hs.interp⟩
  | perform s op =>
    cases hk : c.key? s with
    | none =>
      simp only [Client.step, hkey, hk]
      exact ⟨trivial, hs⟩
    | some key =>
      have htexts : d.host.texts = c.host.texts := Host.texts_eq_of_registries hs.registries
      -- That the interpreter is finalized matters to no operation.
      have hended : Engine.perform c.host.texts key op ⟨c.host.machine.heap, { i with finalized := true }⟩ =
          ((Engine.perform c.host.texts key op ⟨c.host.machine.heap, i⟩).1,
            (Engine.perform c.host.texts key op ⟨c.host.machine.heap, i⟩).2.ended) :=
        Engine.perform_ended _ ⟨_, i⟩ key op
      simp only [Client.step, hkey, hk, hlink, hlink', runOn, Link.perform, of, htexts, Machine.perform_eq hi,
        Machine.perform_eq hi', hs.heap, hended]
      exact ⟨trivial, ⟨rfl, rfl⟩, hs.sessions, hs.registries, rfl, _, List.getElem?_set_self hn,
        List.getElem?_set_self hn'⟩

/-- What is called after finalization comes to what would be called without it, but that no session is
opened. -/
theorem Spent.after (hs : Spent n c d) (calls : List Call) :
    Spent n (c.after (calls.filter fun call => !call.opens)) (d.after calls) := by
  induction calls generalizing c d with
  | nil => exact hs
  | cons call calls ih =>
    cases hopens : call.opens with
    | true =>
      cases call with
      | openSession =>
        have hsame : d.after (.openSession :: calls) = d.after calls := by
          rw [Client.after, List.foldl_cons, hs.step_openSession]
          rfl
        rw [hsame]
        exact ih hs
      | _ => cases hopens
    | false =>
      rw [List.filter_cons_of_pos (by rw [hopens]; rfl)]
      exact ih (hs.step hopens).2

/-! ### Which sessions are open -/

/-- A table that has the keys of another and some more. -/
theorem size_of_isSome {s t : Table SessionKey (List ObjectIndex)} {keys : List SessionKey}
    (hopen : ∀ key, (s.get? key).isSome ↔ key ∈ keys ∨ (t.get? key).isSome) (hdistinct : keys.Nodup)
    (hothers : ∀ key ∈ keys, t.get? key = none) : s.size = keys.length + t.size := by
  have hnodup : (keys ++ t.keys).Nodup := by
    refine List.nodup_append.2 ⟨hdistinct, t.nodup, fun key hlive key' hkey he => ?_⟩
    rw [← he, Table.mem_keys, hothers key hlive] at hkey
    cases hkey
  have hperm : s.keys.Perm (keys ++ t.keys) := by
    refine (List.perm_ext_iff_of_nodup s.nodup hnodup).2 fun key => ?_
    rw [← Table.keys, Table.mem_keys, hopen, List.mem_append, Table.mem_keys]
  have hlength := hperm.length_eq
  rwa [Table.keys, Table.keys, List.length_map, List.length_append, List.length_map] at hlength

/-- The sessions of an interpreter are those that the client has open, and those in `t`, which it did not
open itself. All have keys that were given out before, and there are keys for `left` more. -/
structure Accounts (n : Nat) (t : Table SessionKey (List ObjectIndex)) (left : Nat) (c : Client) : Prop where
  link : c.link = .direct n
  interp : ∃ i, c.host.machine.interps[n]? = some i ∧
    ∀ key, (i.sessions.get? key).isSome ↔ key ∈ c.live ∨ (t.get? key).isSome
  distinct : c.live.Nodup
  others : ∀ key ∈ c.live, t.get? key = none
  old : ∀ key, key ∈ c.live ∨ (t.get? key).isSome → key.rank < c.host.machine.given
  room : c.host.machine.given + left < 2 ^ 64

variable {t : Table SessionKey (List ObjectIndex)} {left : Nat}

theorem Accounts.openSessions_eq (ha : Accounts n t left c) {i : Interp}
    (hi : c.host.machine.interps[n]? = some i) : i.openSessions = c.live.length + t.size := by
  obtain ⟨j, hj, hopen⟩ := ha.interp
  obtain rfl := Option.some.inj (hi.symm.trans hj)
  exact size_of_isSome hopen ha.distinct ha.others

theorem Accounts.start {h : Host} {i : Interp} (hi : h.machine.interps[n]? = some i)
    (hold : ∀ key, (i.sessions.get? key).isSome → key.rank < h.machine.given)
    (hroom : h.machine.given + left < 2 ^ 64) : Accounts n i.sessions left (direct h n) where
  link := rfl
  interp := ⟨i, hi, fun _ => ⟨.inr, fun ho => ho.elim nofun id⟩⟩
  distinct := List.nodup_nil
  others := nofun
  old key ho := hold key (ho.elim nofun id)
  room := hroom

/-- An operation opens no session and closes none. -/
theorem perform_isSome (source : TextSource) (key key' : SessionKey) (op : Op) (e : Engine) :
    ((Engine.perform source key op e).2.interp.sessions.get? key').isSome =
      (e.interp.sessions.get? key').isSome := by
  by_cases he : key' = key
  · subst he
    cases hk : e.interp.sessions.get? key' with
    | none => simp only [Engine.perform, hk]
    | some slots =>
      rcases Engine.perform_own source op hk with ⟨-, hsame⟩ | ⟨-, m, hnext⟩
      · rw [hsame]
      · rw [hnext]
        rfl
  · rw [Engine.perform_others he]

/-- The interpreter was replaced by one with the same sessions. -/
theorem Accounts.of_same (ha : Accounts n t left c) {i j : Interp} {h : Host}
    (hi : c.host.machine.interps[n]? = some i) (hm : h.machine.interps = c.host.machine.interps.set n j)
    (hnext : h.machine.nextKey = c.host.machine.nextKey)
    (hs : ∀ key, (j.sessions.get? key).isSome = (i.sessions.get? key).isSome) :
    Accounts n t left { c with host := h } := by
  obtain ⟨i₀, hi₀, hopen⟩ := ha.interp
  obtain rfl := Option.some.inj (hi.symm.trans hi₀)
  have hgiven : h.machine.given = c.host.machine.given := by rw [Machine.given, hnext, Machine.given]
  refine ⟨ha.link, ⟨j, ?_, fun key => ?_⟩, ha.distinct, ha.others, fun key ho => ?_, ?_⟩
  · rw [hm, List.getElem?_set_self (List.getElem?_eq_some_iff.1 hi).1]
  · rw [hs]
    exact hopen key
  · rw [hgiven]
    exact ha.old key ho
  · rw [hgiven]
    exact ha.room

/-- There is a new session, and no other has its key. -/
theorem Accounts.opened (ha : Accounts n t (left + 1) c) {i : Interp} {m : Machine}
    (hi : c.host.machine.interps[n]? = some i)
    (hm : m.interps = c.host.machine.interps.set n
      { i with sessions := i.sessions.insert ⟨c.host.machine.nextKey⟩ [] })
    (hnext : m.nextKey = c.host.machine.nextKey + 1) :
    Accounts n t left { c with
      host := { c.host with machine := m }
      sessions := c.sessions ++ [some ⟨c.host.machine.nextKey⟩] } := by
  obtain ⟨i₀, hi₀, hopen⟩ := ha.interp
  obtain rfl := Option.some.inj (hi.symm.trans hi₀)
  let key : SessionKey := ⟨c.host.machine.nextKey⟩
  have hroom := ha.room
  have hgiven : m.given = c.host.machine.given + 1 := Machine.given_add (j := 1) hnext (by omega)
  -- Keys are given out in order, and those in the accounts are older.
  have hnew (key' : SessionKey) (ho : key' ∈ c.live ∨ (t.get? key').isSome) : key' ≠ key :=
    Machine.ne_nextKey (ha.old key' ho)
  have hlive (key' : SessionKey) :
      key' ∈ (c.sessions ++ [some key]).filterMap id ↔ key' ∈ c.live ∨ key' = key := by
    rw [List.filterMap_append, List.mem_append]
    exact or_congr Iff.rfl List.mem_singleton
  have hget : m.interps[n]? = some { i with sessions := i.sessions.insert key [] } := by
    rw [hm, List.getElem?_set_self (List.getElem?_eq_some_iff.1 hi).1]
  refine ⟨ha.link, ⟨_, hget, fun key' => ?_⟩, ?_, fun key' hk => ?_, fun key' ho => ?_, ?_⟩
  · rw [Table.get?_insert, live, hlive]
    by_cases he : key' = key
    · simp only [he, key, if_true, Option.isSome_some, or_true, true_or]
    · simp only [he, key, if_false, or_false]
      exact hopen key'
  · rw [live, List.filterMap_append]
    refine List.nodup_append.2 ⟨ha.distinct, List.nodup_cons.2 ⟨List.not_mem_nil, List.nodup_nil⟩,
      fun key' hk key'' hk' he => ?_⟩
    rw [he, List.mem_singleton.1 hk'] at hk
    exact hnew key (.inl hk) rfl
  · rcases (hlive key').1 hk with hk | rfl
    · exact ha.others key' hk
    · cases hget : t.get? key with
      | none => rfl
      | some slots => exact absurd rfl (hnew key (.inr (by rw [hget]; rfl)))
  · show key'.rank < m.given
    rw [hgiven]
    rw [live, hlive] at ho
    rcases ho with (ho | rfl) | ho
    · exact Nat.lt_succ_of_lt (ha.old key' (.inl ho))
    · exact Nat.lt_succ_self _
    · exact Nat.lt_succ_of_lt (ha.old key' (.inr ho))
  · show m.given + left < 2 ^ 64
    omega

theorem Accounts.step_openSession (ha : Accounts n t (left + 1) c) :
    Accounts n t left (c.step .openSession).2 := by
  obtain ⟨i, hi, -⟩ := ha.interp
  have hopen : runOn c.host c.link.openSession = ((c.host.machine.openSession n).1,
      { c.host with machine := (c.host.machine.openSession n).2 }) := by
    rw [ha.link]
    rfl
  cases hf : i.finalized with
  -- A session that is refused uses up what was left for it all the same.
  | true =>
    have hrefused : c.host.machine.openSession n = (.error .closed, c.host.machine) := by
      simp only [Machine.openSession, hi]
      exact if_pos hf
    rw [hrefused] at hopen
    simp only [Client.step, hopen]
    exact ⟨ha.link, ha.interp, ha.distinct, ha.others, ha.old, Nat.lt_of_succ_lt ha.room⟩
  | false =>
    have hgranted : c.host.machine.openSession n = (.ok ⟨c.host.machine.nextKey⟩,
        { c.host.machine.setInterp n
            { i with sessions := i.sessions.insert ⟨c.host.machine.nextKey⟩ [] } with
          nextKey := c.host.machine.nextKey + 1 }) := by
      simp only [Machine.openSession, hi]
      exact if_neg (Bool.eq_false_iff.1 hf)
    rw [hgranted] at hopen
    simp only [Client.step, hopen]
    exact ha.opened hi rfl rfl

theorem Accounts.step_closeSession (ha : Accounts n t left c) (s : Nat) :
    Accounts n t left (c.step (.closeSession s)).2 := by
  obtain ⟨i, hi, hopen⟩ := ha.interp
  have hn : n < c.host.machine.interps.length := (List.getElem?_eq_some_iff.1 hi).1
  cases hk : c.key? s with
  | none =>
    simp only [Client.step, hk]
    exact ha
  | some key =>
    obtain ⟨hs, hmem⟩ := Mirrors.mem_filterMap hk
    have hperm : c.live.Perm (key :: (c.sessions.set s none).filterMap id) := perm_filterMap_set hs
    obtain ⟨hkey, hrest⟩ := List.nodup_cons.1 (hperm.nodup_iff.1 ha.distinct)
    have hclosed : (runOn c.host (c.link.closeSession key)).2 = { c.host with
        machine := c.host.machine.setInterp n { i with sessions := i.sessions.erase key } } := by
      rw [ha.link]
      simp only [runOn, Link.closeSession, ofMachine, of, Machine.closeSession, hi]
    simp only [Client.step, hk, hclosed]
    -- The client has all its sessions but one.
    have hless : ∀ key', key' ∈ (c.sessions.set s none).filterMap id → key' ∈ c.live :=
      fun key' hk' => hperm.mem_iff.2 (List.mem_cons_of_mem _ hk')
    refine ⟨ha.link, ⟨_, List.getElem?_set_self hn, fun key' => ?_⟩, hrest,
      fun key' hk' => ha.others key' (hless key' hk'), fun key' ho => ha.old key' (ho.imp (hless key') id),
      ha.room⟩
    rw [Table.get?_erase]
    by_cases he : key' = key
    · subst he
      simp only [if_true, Option.isSome_none, Bool.false_eq_true, ha.others key' hmem, or_false, false_iff]
      exact hkey
    · rw [if_neg he, hopen, hperm.mem_iff, List.mem_cons]
      simp only [he, false_or]
      exact Iff.rfl

theorem Accounts.step (ha : Accounts n t left c) (hcall : call.opens = false) :
    Accounts n t left (c.step call).2 := by
  obtain ⟨i, hi, hopen⟩ := ha.interp
  cases call with
  | openSession => cases hcall
  | closeSession s => exact ha.step_closeSession s
  | setResolver r =>
    have hset : (runOn c.host (c.link.setResolver r)).2.machine = c.host.machine.setResolver n r := by
      rw [ha.link]
      rfl
    refine ha.of_same (j := { i with resolver := some r }) hi ?_ ?_ fun _ => rfl
    · rw [hset]
      simp only [Machine.setResolver, hi]
      rfl
    · rw [hset, Machine.setResolver_nextKey]
  | publish registries => exact ⟨ha.link, ha.interp, ha.distinct, ha.others, ha.old, ha.room⟩
  | perform s op =>
    cases hk : c.key? s with
    | none =>
      simp only [Client.step, hk]
      exact ha
    | some key =>
      have hperform : (runOn c.host (c.link.perform key op)).2.machine =
          (c.host.machine.perform c.host.texts n key op).2 := by
        rw [ha.link]
        rfl
      simp only [Client.step, hk]
      refine ha.of_same hi ?_ ?_ fun key' => perform_isSome c.host.texts key key' op ⟨c.host.machine.heap, i⟩
      · rw [hperform, Machine.perform_eq hi]
        rfl
      · rw [hperform, Machine.perform_nextKey]

theorem Accounts.after {calls : List Call} (ha : Accounts n t (calls.countP Call.opens + left) c) :
    Accounts n t left (c.after calls) := by
  induction calls generalizing c with
  | nil =>
    rw [List.countP_nil, Nat.zero_add] at ha
    exact ha
  | cons call calls ih =>
    rw [List.countP_cons] at ha
    cases hopens : call.opens with
    | true =>
      rw [hopens, if_pos rfl, Nat.add_right_comm] at ha
      cases call with
      | openSession => exact ih ha.step_openSession
      | _ => cases hopens
    | false =>
      rw [hopens, if_neg (by decide), Nat.add_zero] at ha
      exact ih (ha.step hopens)

/-! ### Finalization -/

theorem machine_finalize {m : Machine} {i : Interp} (hi : m.interps[n]? = some i) :
    (m.finalize n).2.interps[n]? = some { i with finalized := true } ∧ (m.finalize n).2.heap = m.heap := by
  have hn : n < m.interps.length := (List.getElem?_eq_some_iff.1 hi).1
  simp only [Machine.finalize, hi]
  cases i.observer <;> exact ⟨List.getElem?_set_self hn, rfl⟩

theorem get?_eraseAll (t : Table SessionKey (List ObjectIndex)) (keys : List SessionKey) (key : SessionKey) :
    (keys.foldl Table.erase t).get? key = if key ∈ keys then none else t.get? key := by
  induction keys generalizing t with
  | nil => rfl
  | cons key' keys ih =>
    rw [List.foldl_cons, ih, Table.get?_erase]
    simp only [List.mem_cons]
    by_cases he : key = key'
    · simp only [he, if_true, ite_self, true_or]
    · simp only [he, if_false, false_or]

theorem closeSessions_interp {m : Machine} {i : Interp} (hi : m.interps[n]? = some i)
    (keys : List SessionKey) :
    (keys.foldl (fun m key => m.closeSession n key) m).interps[n]? =
        some { i with sessions := keys.foldl Table.erase i.sessions } ∧
      (keys.foldl (fun m key => m.closeSession n key) m).heap = m.heap := by
  induction keys generalizing m i with
  | nil => exact ⟨hi, rfl⟩
  | cons key keys ih =>
    have hn : n < m.interps.length := (List.getElem?_eq_some_iff.1 hi).1
    have hclosed : m.closeSession n key = m.setInterp n { i with sessions := i.sessions.erase key } := by
      simp only [Machine.closeSession, hi]
    rw [List.foldl_cons, hclosed]
    exact ih (m := m.setInterp n { i with sessions := i.sessions.erase key }) (List.getElem?_set_self hn)

/-- In the process of the interpreter, finalization only marks it. -/
theorem spent_finalize {i : Interp} (hlink : c.link = .direct n) (hi : c.host.machine.interps[n]? = some i) :
    Spent n c c.finalize := by
  have hfinal : c.finalize = { c with host := { c.host with machine := (c.host.machine.finalize n).2 } } := by
    rw [finalize, hlink]
    rfl
  obtain ⟨hi', hheap⟩ := machine_finalize hi
  rw [hfinal]
  exact ⟨⟨hlink, hlink⟩, rfl, rfl, hheap, i, hi, hi'⟩

/-- A channel is closed, and the sessions that were opened through it with the interpreter. -/
theorem finalize_channel (hm : Mirrors n c d) : ∃ k, ∃ served : List SessionKey, ∃ i r,
    d.link = .channel k ∧ d.finalize.host.channels[k]? = some ⟨false, .exported ⟨n, []⟩⟩ ∧
      served.Perm c.live ∧ c.host.machine.interps[n]? = some i ∧
      d.finalize.view? n = some (Engine.view ⟨c.host.machine.heap,
        { i with resolver := r, sessions := served.foldl Table.erase i.sessions, finalized := true }⟩) := by
  obtain ⟨k, served, hlink, hc, hp⟩ := hm.channel
  obtain ⟨i, r, hi, -, he, -⟩ := hm.interp
  have hk : k < d.host.channels.length := (List.getElem?_eq_some_iff.1 hc).1
  have hi' : d.host.machine.interps[n]? = some { i with resolver := r } := by
    rw [he, Machine.withResolver_get hi]
  let m : Machine := served.foldl (fun m key => m.closeSession n key) d.host.machine
  have hfinal : d.finalize.host = { d.host with
      machine := (m.finalize n).2
      channels := d.host.channels.set k ⟨false, .exported ⟨n, []⟩⟩ } := by
    rw [finalize, hlink]
    show (Host.onChannel k (fun image ch => ch.finalize image) d.host).2 = _
    rw [Host.onChannel_exported hc]
    rfl
  obtain ⟨hclosed, hheap⟩ := closeSessions_interp hi' served
  obtain ⟨hended, hheap'⟩ := machine_finalize hclosed
  have hheap'' : (m.finalize n).2.heap = c.host.machine.heap := by
    rw [hheap', hheap, he]
    rfl
  refine ⟨k, served, i, r, hlink, ?_, hp, hi, ?_⟩
  · rw [hfinal]
    exact List.getElem?_set_self hk
  · simp only [view?, Host.engine?, hfinal, hheap'']
    rw [hended]
    rfl

theorem view_closing (heap : Heap) {i : Interp} {s : Table SessionKey (List ObjectIndex)}
    {keys : List SessionKey} (r : Option Resolver)
    (hget : ∀ key, s.get? key = if key ∈ keys then none else i.sessions.get? key)
    (hsize : s.size = i.openSessions - keys.length) :
    Engine.view ⟨heap, { i with resolver := r, sessions := s, finalized := true }⟩ =
      View.closing keys (Engine.view ⟨heap, i⟩) := by
  unfold Engine.view View.closing
  rw [View.mk.injEq]
  refine ⟨hsize, rfl, rfl, rfl, funext fun ref => ?_⟩
  rw [hget]
  split <;> rfl

theorem shut_finalize (hm : Mirrors n c d) (ha : Accounts n t left c) :
    Shut n ((c.view? n).map (View.closing c.live)) d.finalize := by
  obtain ⟨k, served, i, r, hlink, hc, hp, hi, hseen⟩ := finalize_channel hm
  obtain ⟨i', hi', hopen⟩ := ha.interp
  obtain rfl := Option.some.inj (hi.symm.trans hi')
  have hget (key : SessionKey) : (served.foldl Table.erase i.sessions).get? key =
      if key ∈ c.live then none else i.sessions.get? key := by
    rw [get?_eraseAll]
    simp only [hp.mem_iff]
  -- What is left open was opened by others.
  have hothers : (served.foldl Table.erase i.sessions).size = ([] : List SessionKey).length + t.size := by
    refine size_of_isSome (fun key => ?_) List.nodup_nil fun _ hk => absurd hk List.not_mem_nil
    rw [hget]
    split
    · rename_i hlive
      simp only [Option.isSome_none, ha.others key hlive, List.not_mem_nil, Bool.false_eq_true, or_self]
    · rename_i hlive
      simp only [hopen, hlive, false_or, List.not_mem_nil]
  refine ⟨⟨k, ⟨n, []⟩, hlink, hc⟩, ?_⟩
  rw [hseen, view_closing _ r hget]
  · simp only [view?, Host.engine?, hi, Option.map_some]
  · rw [hothers, ha.openSessions_eq hi, List.length_nil, Nat.zero_add, Nat.add_sub_cancel_left]

/-! ### The two ways -/

theorem mirrors_after {calls : List Call} (hm : Mirrors n c d) (hcalls : ∀ call ∈ calls, call.Fits)
    (hanswers : ∀ x ∈ c.trace n calls, ∀ answer ∈ x.1, AnswerFits answer) :
    Mirrors n (c.after calls) (d.after calls) := by
  induction calls generalizing c d with
  | nil => exact hm
  | cons call calls ih =>
    obtain ⟨-, hnext⟩ := hm.step (hcalls call List.mem_cons_self) (hanswers _ List.mem_cons_self)
    exact ih hnext (fun call' hcall' => hcalls call' (List.mem_cons_of_mem call hcall'))
      fun x hx => hanswers x (List.mem_cons_of_mem _ hx)

/-- Both ways lose the same sessions, and open none. -/
theorem after_finalize {e : Client} {v : Option View} (hs : Spent n e d) (hc : Shut n v c)
    (hsessions : c.sessions = d.sessions) (calls : List Call) :
    Shut n v (c.after calls) ∧ (c.after calls).sessions = (d.after calls).sessions := by
  induction calls generalizing c d e with
  | nil => exact ⟨hc, hsessions⟩
  | cons call calls ih =>
    cases hopens : call.opens with
    | true =>
      cases call with
      | openSession =>
        rw [Client.after, Client.after, List.foldl_cons, List.foldl_cons, hs.step_openSession,
          hc.step_openSession]
        exact ih hs hc hsessions
      | _ => cases hopens
    | false =>
      exact ih (hs.step hopens).2 (hc.step call).2
        (by rw [sessions_step hopens, sessions_step hopens, hsessions])

/-- An operation never fails because something is closed. -/
theorem Spent.perform_ne_closed {e : Client} (hs : Spent n e d) {s : Nat} {key : SessionKey} (op : Op)
    (hk : d.key? s = some key) : (d.step (.perform s op)).1 ≠ some (.error .closed) := by
  obtain ⟨i, -, hi⟩ := hs.interp
  have hperform : (runOn d.host (d.link.perform key op)).1 =
      (d.host.machine.perform d.host.texts n key op).1 := by
    rw [hs.link.2]
    rfl
  simp only [Client.step, hk, hperform, Machine.perform_eq hi]
  generalize (Engine.perform d.host.texts key op _).1 = answer
  intro he
  cases answer <;> cases he

/-- The two ways differ in each answer that a session gives, and in no other. -/
theorem answers_eq_iff {e : Client} {v : Option View} (hs : Spent n e d) (hc : Shut n v c)
    (hsessions : c.sessions = d.sessions) (call : Call) :
    (d.step call).1 = (c.step call).1 ↔ ∀ s op, call = .perform s op → d.key? s = none := by
  have hkey (s : Nat) : c.key? s = d.key? s := by rw [key?, key?, hsessions]
  rw [(hc.step call).1]
  cases call with
  | openSession =>
    rw [hs.step_openSession]
    exact ⟨fun _ s op he => (by cases he), fun _ => rfl⟩
  | closeSession s =>
    refine ⟨fun _ s op he => (by cases he), fun _ => ?_⟩
    rw [step]
    split <;> rfl
  | setResolver | publish => exact ⟨fun _ s op he => (by cases he), fun _ => rfl⟩
  | perform s op =>
    cases hk : d.key? s with
    | none =>
      rw [refusal, hkey, hk, step, hk]
      exact ⟨fun _ s' op' he => by cases he; exact hk, fun _ => rfl⟩
    | some key =>
      rw [refusal, hkey, hk]
      refine ⟨fun he => absurd he (hs.perform_ne_closed op hk), fun h => ?_⟩
      rw [h s op rfl] at hk
      cases hk

/-- Before its finalization and after it, the client sees the sessions of others, and its own as long as it
has them. -/
theorem Accounts.counts {e : Client} (ha : Accounts n t left e) (ha' : Accounts n t left c) :
    (c.view? n).map View.openSessions =
      (e.view? n).map fun v => (v.closing e.live).openSessions + c.live.length := by
  obtain ⟨i, hi, -⟩ := ha.interp
  obtain ⟨i', hi', -⟩ := ha'.interp
  simp only [view?, Host.engine?, hi, hi', Option.map_some, View.closing, Engine.view, ha.openSessions_eq hi,
    ha'.openSessions_eq hi']
  refine congrArg some ?_
  omega

/-- Two clients that made the same calls `later` after each finalized its interpreter, `d` in the process of
the interpreter and `c` through a channel. The first of them was `e` before that. -/
structure Parted (n : Nat) (e : Client) (later : List Call) (d c : Client) : Prop where
  /-- They have the same sessions. -/
  sessions : c.sessions = d.sessions
  /-- Whatever gets an answer through the channel is refused. -/
  refuses : ∀ call, ∀ answer ∈ (c.step call).1, answer = .error .closed
  /-- What is to be seen there is what finalization left, less the sessions that it closed. -/
  rests : c.view? n = (e.view? n).map (View.closing e.live)
  /-- In the process, another session is refused. -/
  full : (d.step .openSession).1 = some (.error .closed)
  /-- All else comes to what it would have come to without finalization. -/
  goesOn : ∀ call, call.opens = false →
    (d.step call).1 = ((e.after (later.filter fun call => !call.opens)).step call).1
  shows : d.view? n = (e.after (later.filter fun call => !call.opens)).view? n
  /-- So a call is answered in the same way unless it is made in a session, -/
  agrees_iff : ∀ call, (d.step call).1 = (c.step call).1 ↔ ∀ s op, call = .perform s op → d.key? s = none
  /-- and there are more sessions open in the process, by those that the client still has. -/
  counts : (d.view? n).map View.openSessions = (c.view? n).map fun v => v.openSessions + d.live.length

theorem finalized_parted (h : Host) (n : Nat) (i : Interp) (before later : List Call)
    (hi : h.machine.interps[n]? = some i) (hlive : i.finalized = false)
    (hcalls : ∀ call ∈ before, call.Fits)
    (hanswers : ∀ x ∈ (direct h n).trace n before, ∀ answer ∈ x.1, AnswerFits answer)
    (hold : ∀ key, (i.sessions.get? key).isSome → key.rank < h.machine.given)
    (hroom : h.machine.given + before.countP Call.opens < 2 ^ 64) :
    Parted n ((direct h n).after before) later (((direct h n).after before).finalize.after later)
      (((channelled h n).after before).finalize.after later) := by
  have hm := mirrors_after (Mirrors.start hi hlive) hcalls hanswers
  have ha : Accounts n i.sessions 0 ((direct h n).after before) := (Accounts.start hi hold hroom).after
  generalize (direct h n).after before = e at hm ha
  generalize (channelled h n).after before = e' at hm
  obtain ⟨j, hj, -⟩ := ha.interp
  have hspent := spent_finalize ha.link hj
  obtain ⟨hshut, hsessions⟩ := after_finalize hspent (shut_finalize hm ha) hm.sessions later
  have hlater := hspent.after later
  generalize e.finalize.after later = d at hlater hsessions
  generalize e'.finalize.after later = c at hshut hsessions
  have hnone : (later.filter fun call => !call.opens).countP Call.opens = 0 := by
    refine List.countP_eq_zero.2 fun call hcall => ?_
    have hkept := (List.mem_filter.1 hcall).2
    rw [Bool.not_eq_true'] at hkept
    exact Bool.eq_false_iff.1 hkept
  have hrest : Accounts n i.sessions 0 (e.after (later.filter fun call => !call.opens)) :=
    Accounts.after (by rw [hnone]; exact ha)
  have hlive' : (e.after (later.filter fun call => !call.opens)).live = d.live := by
    rw [live, live, hlater.sessions]
  refine ⟨hsessions, fun call answer h => eq_closed_of_refusal ((hshut.step call).1 ▸ h), hshut.seen,
    congrArg Prod.fst hlater.step_openSession, fun call hcall => (hlater.step hcall).1, hlater.view_eq,
    answers_eq_iff hlater hshut hsessions, ?_⟩
  rw [hlater.view_eq, hshut.seen, ha.counts hrest, hlive', Option.map_map]
  rfl

/-- A client with two sessions and an object. -/
def sampleBefore : List Call :=
  [.openSession, .openSession, .perform 0 (.restore ⟨7⟩ [5, 1, 2, 84])]

/-- What it does once its interpreter is finalized. -/
def sampleLater : List Call :=
  [.perform 1 (.eval "1"), .perform 0 (.unload ⟨7⟩), .closeSession 0, .perform 0 (.eval "1"), .openSession]

/-- In the process, the sessions answer as before and the object is dropped. -/
theorem finalized_parted_sample :
    Parted 0 ((direct Host.bare 0).after sampleBefore) sampleLater
        (((direct Host.bare 0).after sampleBefore).finalize.after sampleLater)
        (((channelled Host.bare 0).after sampleBefore).finalize.after sampleLater) ∧
      (((direct Host.bare 0).after sampleBefore).finalize.after sampleLater).live = [⟨2⟩] :=
  ⟨finalized_parted Host.bare 0 _ sampleBefore sampleLater rfl rfl (by decide +kernel) (by decide +kernel)
    nofun (by decide +kernel), by decide +kernel⟩

/-- The two ways do not agree: what is asked of a session, how many are open and what is loaded all differ
once the interpreter is finalized. -/
theorem finalized_trace_differs :
    let d := ((direct Host.bare 0).after sampleBefore).finalize.trace 0 sampleLater
    let c := ((channelled Host.bare 0).after sampleBefore).finalize.trace 0 sampleLater
    let see (x : Option (Except Error Response) × Option View) :=
      (x.1, x.2.map fun v => (v.openSessions, v.holds ⟨7⟩))
    d.map see = [(some (.ok (.ref ⟨⟨2⟩, 0⟩)), some (2, true)), (some (.ok (.bool true)), some (2, false)),
      (none, some (1, false)), (none, some (1, false)), (some (.error .closed), some (1, false))] ∧
    c.map see = [(some (.error .closed), some (0, true)), (some (.error .closed), some (0, true)),
      (none, some (0, true)), (none, some (0, true)), (some (.error .closed), some (0, true))] ∧
    d ≠ c := by
  intro d c see
  have hd : d.map see = [(some (.ok (.ref ⟨⟨2⟩, 0⟩)), some (2, true)),
      (some (.ok (.bool true)), some (2, false)), (none, some (1, false)), (none, some (1, false)),
      (some (.error .closed), some (1, false))] := by decide +kernel
  have hc : c.map see = [(some (.error .closed), some (0, true)), (some (.error .closed), some (0, true)),
      (none, some (0, true)), (none, some (0, true)), (some (.error .closed), some (0, true))] := by
    decide +kernel
  refine ⟨hd, hc, fun h => ?_⟩
  rw [h, hc] at hd
  exact absurd hd (by decide +kernel)

end Client
end InstancePool
