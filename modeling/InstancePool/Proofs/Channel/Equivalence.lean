import InstancePool.Host.Inventory
import InstancePool.Proofs.Channel.Transparency

/-!
The two ways to an interpreter, in the process itself and through a channel, cannot be told apart: the
same calls get the same answers and leave the same things to be seen.
-/

namespace InstancePool

/-- What can be seen of an interpreter from outside. -/
structure View where
  openSessions : Nat
  /-- Whether an object is loaded for an identifier. -/
  holds : ObjectId → Bool
  restores : Nat
  /-- The number of the instance, as its version namespace tells. -/
  tag : Option Value
  /-- The identity of the object that a reference means. -/
  identity : Ref → Option Nat

def Engine.view (e : Engine) : View where
  openSessions := e.interp.openSessions
  holds := e.interp.holds
  restores := e.interp.restores
  tag := e.tag?
  identity r := do
    let slots ← e.interp.sessions.get? r.session
    let n ← slots[r.slot.toNat]?
    pure (identity n)

/-- What a client of one interpreter does. It names its sessions by the order in which it opened
them. -/
inductive Call where
  | openSession
  | closeSession (s : Nat)
  | setResolver (r : Resolver)
  /-- The registries of the host change. -/
  | publish (registries : List Sources)
  | perform (s : Nat) (op : Op)

instance : DecidableEq (Except Error Response)
  | .ok r, .ok r' => decidable_of_iff (r = r') ⟨congrArg _, Except.ok.inj⟩
  | .error e, .error e' => decidable_of_iff (e = e') ⟨congrArg _, Except.error.inj⟩
  | .ok _, .error _ | .error _, .ok _ => isFalse nofun

/-- The value that a call carries is not nested too deep, and its parts fit in a memory. -/
def Call.Fits : Call → Prop
  | .perform _ op => op.nesting ≤ Value.maxDepth ∧ Wire.Addressable (Wire.opBytes Value.maxDepth op)
  | _ => True

instance : DecidablePred Call.Fits
  | .perform _ op => inferInstanceAs (Decidable (op.nesting ≤ Value.maxDepth ∧
      Wire.Addressable (Wire.opBytes Value.maxDepth op)))
  | .openSession | .closeSession _ | .setResolver _ | .publish _ =>
    inferInstanceAs (Decidable True)

/-- The value in an answer is not nested too deep, and the answer fits in a memory. -/
def AnswerFits : Except Error Response → Prop
  | .ok r => r.nesting ≤ Value.maxDepth ∧ Wire.Addressable (Wire.encodeReply (.ok r))
  | .error e => Wire.Addressable (Wire.encodeReply (.error e.toFault))

instance : DecidablePred AnswerFits
  | .ok r => inferInstanceAs (Decidable (r.nesting ≤ Value.maxDepth ∧
      Wire.Addressable (Wire.encodeReply (.ok r))))
  | .error e => inferInstanceAs (Decidable (Wire.Addressable (Wire.encodeReply (.error e.toFault))))

theorem AnswerFits.nesting {answer : Except Error Response} (h : AnswerFits answer) {r : Response}
    (hr : answer = .ok r) : r.nesting ≤ Value.maxDepth := by
  subst hr
  exact h.1

theorem AnswerFits.addressable {answer : Except Error Response} (h : AnswerFits answer) :
    Wire.Addressable (Wire.encodeReply (answer.mapError Error.toFault)) := by
  cases answer with
  | ok r => exact h.2
  | error e => exact h

/-- A client in its host. -/
structure Client where
  host : Host
  /-- How the interpreter is reached. -/
  link : Link
  /-- The sessions opened so far, in order; a closed one is gone. -/
  sessions : List (Option SessionKey) := []

namespace Client

/-- The key of an open session. -/
def key? (c : Client) (s : Nat) : Option SessionKey := c.sessions[s]?.join

/-- One call, with its answer if it has one. A call on a session that is not open cannot be made. -/
def step (c : Client) : Call → Option (Except Error Response) × Client
  | .openSession =>
    match HostM.runOn c.host c.link.openSession with
    | (.ok key, host) =>
      (some (.ok (.session key)), { c with host, sessions := c.sessions ++ [some key] })
    | (.error e, host) => (some (.error e), { c with host })
  | .closeSession s =>
    match c.key? s with
    | none => (none, c)
    | some key =>
      (none, { c with
        host := (HostM.runOn c.host (c.link.closeSession key)).2
        sessions := c.sessions.set s none })
  | .setResolver r => (none, { c with host := (HostM.runOn c.host (c.link.setResolver r)).2 })
  | .publish registries => (none, { c with host := { c.host with registries } })
  | .perform s op =>
    match c.key? s with
    | none => (none, c)
    | some key =>
      (some (HostM.runOn c.host (c.link.perform key op)).1,
        { c with host := (HostM.runOn c.host (c.link.perform key op)).2 })

/-- The answers to calls, each with what is to be seen of the `n`th interpreter after it. -/
def trace (n : Nat) : List Call → Client → List (Option (Except Error Response) × Option View)
  | [], _ => []
  | call :: calls, c =>
    ((c.step call).1, ((c.step call).2.host.engine? n).map Engine.view) ::
      trace n calls (c.step call).2

/-- A client in the process of the interpreter. -/
def direct (h : Host) (n : Nat) : Client := { host := h, link := .direct n }

/-- A client that reaches the interpreter through a new channel. -/
def channelled (h : Host) (n : Nat) : Client where
  host := (HostM.runOn h (Host.exportInterp n)).2
  link := .channel h.channels.length

end Client

/-- The interpreter `n` of a machine with another resolver. -/
def Machine.withResolver (m : Machine) (n : Nat) (i : Interp) (r : Option Resolver) : Machine :=
  m.setInterp n { i with resolver := r }

theorem Host.onChannel_exported {α : Type} {h : Host} {k : Nat} {live : Bool} {e : Endpoint}
    (hc : h.channels[k]? = some ⟨live, .exported e⟩) (f : Host.ChannelStep α) :
    Host.onChannel k f h =
      ((f (Endpoint.image h.texts) ⟨live, (h.machine, e)⟩).1, { h with
        machine := (f (Endpoint.image h.texts) ⟨live, (h.machine, e)⟩).2.peer.1
        channels := h.channels.set k ⟨(f (Endpoint.image h.texts) ⟨live, (h.machine, e)⟩).2.live,
          .exported (f (Endpoint.image h.texts) ⟨live, (h.machine, e)⟩).2.peer.2⟩ }) := by
  simp only [Host.onChannel, HostM.of, hc]

/-- Across the boundary a resolver finds the same texts. -/
theorem Host.texts_remote (h : Host) (r : Resolver) (name : String) :
    h.texts (some (.remote r)) name = h.texts (some r) name := by
  simp only [Host.texts, Option.bind_some, Resolver.lookup, Resolver.answer,
    Text.ofUtf8?_utf8Bytes]
  cases r.lookup (fun k => (h.registries[k]?).getD Table.empty) name with
  | none => rfl
  | some source =>
    simp only [Found.text?, if_true, List.getLast?_singleton, Option.map_some,
      Text.decodeLenient_utf8Bytes]

theorem Host.texts_eq_of_registries {h h' : Host} (hr : h'.registries = h.registries) :
    h'.texts = h.texts := by
  unfold Host.texts
  rw [hr]

namespace Machine

variable {m : Machine} {n : Nat} {i : Interp} {r : Option Resolver}

theorem withResolver_get (hi : m.interps[n]? = some i) :
    (m.withResolver n i r).interps[n]? = some { i with resolver := r } := by
  have hn : n < m.interps.length := (List.getElem?_eq_some_iff.1 hi).1
  simp only [withResolver, setInterp, List.getElem?_set_self hn]

end Machine

theorem Machine.perform_withResolver {source : TextSource} {m : Machine} {n : Nat} {i : Interp}
    {r : Option Resolver} (hi : m.interps[n]? = some i)
    (hr : ∀ name, source r name = source i.resolver name) (key : SessionKey) (op : Op) :
    ∃ i', (m.perform source n key op).2.interps[n]? = some i' ∧ i'.finalized = i.finalized ∧
      i'.resolver = i.resolver ∧
      (m.withResolver n i r).perform source n key op =
        ((m.perform source n key op).1, (m.perform source n key op).2.withResolver n i' r) := by
  have hn : n < m.interps.length := (List.getElem?_eq_some_iff.1 hi).1
  obtain ⟨modules, loaded, restores, sessions, he⟩ :=
    Engine.perform_interp source key op ⟨m.heap, i⟩
  refine ⟨(Engine.perform source key op ⟨m.heap, i⟩).2.interp, ?_, ?_, ?_, ?_⟩
  · simp only [Machine.perform_eq hi, setInterp, List.getElem?_set_self hn]
  · rw [he]
  · rw [he]
  · have hw := Engine.perform_withResolver ⟨m.heap, i⟩ r hr key op
    have hw' : Engine.perform source key op ⟨m.heap, { i with resolver := r }⟩ = _ := hw
    rw [Machine.perform_eq (withResolver_get hi), Machine.perform_eq hi]
    change (_, _) = _
    rw [show (m.withResolver n i r).heap = m.heap from rfl, hw']
    simp only [Engine.withResolver, withResolver, setInterp, List.set_set]

/-- Two clients that did the same calls, the first in the process of the interpreter `n`, the second
through a channel. Their interpreters differ in the resolver alone, and the endpoint serves the
sessions that are open. -/
structure Mirrors (n : Nat) (c c' : Client) : Prop where
  link : c.link = .direct n
  sessions : c'.sessions = c.sessions
  registries : c'.host.registries = c.host.registries
  channel : ∃ k served, c'.link = .channel k ∧
    c'.host.channels[k]? = some ⟨true, .exported ⟨n, served⟩⟩ ∧
    served.Perm (c.sessions.filterMap id)
  interp : ∃ i r, c.host.machine.interps[n]? = some i ∧ i.finalized = false ∧
    c'.host.machine = c.host.machine.withResolver n i r ∧
    ∀ (h : Host) (name : String), h.texts r name = h.texts i.resolver name

namespace Mirrors

variable {n : Nat} {c c' : Client}

theorem start {h : Host} {i : Interp} (hi : h.machine.interps[n]? = some i)
    (hf : i.finalized = false) : Mirrors n (Client.direct h n) (Client.channelled h n) where
  link := rfl
  sessions := rfl
  registries := rfl
  channel := ⟨h.channels.length, [], rfl, List.getElem?_concat_length .., .refl _⟩
  interp := by
    refine ⟨i, i.resolver, hi, hf, ?_, fun _ _ => rfl⟩
    have hs : h.machine.interps.set n i = h.machine.interps := by
      apply List.ext_getElem?
      intro k
      rw [List.getElem?_set]
      split
      · rename_i hk
        subst hk
        rw [hi]
        split
        · rfl
        · rename_i hn
          exact absurd (List.getElem?_eq_some_iff.1 hi).1 hn
      · rfl
    change h.machine = { h.machine with interps := h.machine.interps.set n i }
    rw [hs]

theorem view_eq (hm : Mirrors n c c') :
    (c'.host.engine? n).map Engine.view = (c.host.engine? n).map Engine.view := by
  obtain ⟨i, r, hi, -, he, -⟩ := hm.interp
  simp only [Host.engine?, he, Machine.withResolver_get hi, hi, Option.map_some]
  rfl

theorem mem_filterMap {c : Client} {s : Nat} {key : SessionKey} (hk : c.key? s = some key) :
    c.sessions[s]? = some (some key) ∧ key ∈ c.sessions.filterMap id := by
  have hs : c.sessions[s]? = some (some key) := by
    unfold Client.key? at hk
    cases h : c.sessions[s]? with
    | none => rw [h] at hk; cases hk
    | some o => rw [h] at hk; exact congrArg some hk
  exact ⟨hs, List.mem_filterMap.2 ⟨some key, List.mem_of_getElem? hs, rfl⟩⟩

end Mirrors

theorem perm_filterMap_set {sessions : List (Option SessionKey)} {s : Nat} {key : SessionKey}
    (hs : sessions[s]? = some (some key)) :
    (sessions.filterMap id).Perm (key :: (sessions.set s none).filterMap id) := by
  induction sessions generalizing s with
  | nil => cases hs
  | cons o rest ih =>
    cases s with
    | zero =>
      obtain rfl : o = some key := Option.some.inj hs
      exact .refl _
    | succ s =>
      have hrest := ih (s := s) hs
      cases o with
      | none => exact hrest
      | some k => exact (hrest.cons k).trans (.swap key k _)

theorem perm_erase_set {sessions : List (Option SessionKey)} {s : Nat} {key : SessionKey}
    {served : List SessionKey} (hp : served.Perm (sessions.filterMap id))
    (hs : sessions[s]? = some (some key)) :
    (served.erase key).Perm ((sessions.set s none).filterMap id) := by
  have h := (hp.trans (perm_filterMap_set hs)).erase key
  rwa [List.erase_cons_head] at h

namespace Mirrors

variable {n : Nat} {c c' : Client}

theorem step_openSession (hm : Mirrors n c c') :
    (c'.step .openSession).1 = (c.step .openSession).1 ∧
      Mirrors n (c.step .openSession).2 (c'.step .openSession).2 := by
  obtain ⟨k, served, hl', hc, hp⟩ := hm.channel
  obtain ⟨i, r, hi, hf, he, hr⟩ := hm.interp
  have hi' : c'.host.machine.interps[n]? = some { i with resolver := r } := by
    rw [he, Machine.withResolver_get hi]
  have hf' : ({ i with resolver := r } : Interp).finalized = false := hf
  have hkey : c'.host.machine.nextKey = c.host.machine.nextKey := by rw [he]; rfl
  have hk : k < c'.host.channels.length := (List.getElem?_eq_some_iff.1 hc).1
  have hn : n < c.host.machine.interps.length := (List.getElem?_eq_some_iff.1 hi).1
  -- Both sides take the same key, because the machines share the counter.
  have hd : HostM.runOn c.host c.link.openSession = (.ok ⟨c.host.machine.nextKey⟩,
      { c.host with machine := (c.host.machine.openSession n).2 }) := by
    rw [hm.link]
    simp only [HostM.runOn, Link.openSession, HostM.ofMachine, HostM.of, Machine.openSession, hi, hf]
    rfl
  have hch : HostM.runOn c'.host c'.link.openSession = (.ok ⟨c.host.machine.nextKey⟩,
      { c'.host with
        machine := (c'.host.machine.openSession n).2
        channels := c'.host.channels.set k
          ⟨true, .exported ⟨n, served ++ [⟨c.host.machine.nextKey⟩]⟩⟩ }) := by
    rw [hl', HostM.runOn, Link.openSession, Host.onChannel_exported hc,
      Channel.openSession_endpoint hi' hf', hkey]
  simp only [Client.step, hd, hch]
  refine ⟨trivial, hm.link, by rw [hm.sessions], hm.registries, ?_, ?_⟩
  · refine ⟨k, _, hl', List.getElem?_set_self hk, ?_⟩
    rw [List.filterMap_append]
    exact hp.append_right _
  · refine ⟨{ i with sessions := i.sessions.insert ⟨c.host.machine.nextKey⟩ [] }, r, ?_, hf, ?_, hr⟩
    · simp only [Machine.openSession, hi, hf, Bool.false_eq_true, if_false, Machine.setInterp,
        List.getElem?_set_self hn]
    · simp only [Machine.openSession, hi, hi', hf, Bool.false_eq_true, if_false, hkey]
      simp only [he, Machine.withResolver, Machine.setInterp, List.set_set]

theorem step_closeSession (hm : Mirrors n c c') (s : Nat) :
    (c'.step (.closeSession s)).1 = (c.step (.closeSession s)).1 ∧
      Mirrors n (c.step (.closeSession s)).2 (c'.step (.closeSession s)).2 := by
  have hkey : c'.key? s = c.key? s := by rw [Client.key?, Client.key?, hm.sessions]
  cases hk : c.key? s with
  | none =>
    simp only [Client.step, hkey, hk]
    exact ⟨trivial, hm⟩
  | some key =>
    obtain ⟨hs, hmem⟩ := mem_filterMap hk
    obtain ⟨k, served, hl', hc, hp⟩ := hm.channel
    obtain ⟨i, r, hi, hf, he, hr⟩ := hm.interp
    have hk' : k < c'.host.channels.length := (List.getElem?_eq_some_iff.1 hc).1
    have hn : n < c.host.machine.interps.length := (List.getElem?_eq_some_iff.1 hi).1
    have hi' : c'.host.machine.interps[n]? = some { i with resolver := r } := by
      rw [he, Machine.withResolver_get hi]
    -- The endpoint lets go of a session only if it serves it.
    have hserved : key ∈ served := hp.mem_iff.2 hmem
    have hd : (HostM.runOn c.host (c.link.closeSession key)).2 =
        { c.host with machine := c.host.machine.closeSession n key } := by
      rw [hm.link]
      rfl
    have hch : (HostM.runOn c'.host (c'.link.closeSession key)).2 =
        { c'.host with
          machine := c'.host.machine.closeSession n key
          channels := c'.host.channels.set k ⟨true, .exported ⟨n, served.erase key⟩⟩ } := by
      rw [hl', HostM.runOn, Link.closeSession, Host.onChannel_exported hc,
        Channel.closeSession_endpoint hserved]
    simp only [Client.step, hkey, hk, hd, hch]
    refine ⟨trivial, hm.link, by rw [hm.sessions], hm.registries, ?_, ?_⟩
    · exact ⟨k, _, hl', List.getElem?_set_self hk', perm_erase_set hp hs⟩
    · refine ⟨{ i with sessions := i.sessions.erase key }, r, ?_, hf, ?_, hr⟩
      · simp only [Machine.closeSession, hi, Machine.setInterp, List.getElem?_set_self hn]
      · simp only [Machine.closeSession, hi, hi']
        simp only [he, Machine.withResolver, Machine.setInterp, List.set_set]

theorem step_setResolver (hm : Mirrors n c c') (r : Resolver) :
    (c'.step (.setResolver r)).1 = (c.step (.setResolver r)).1 ∧
      Mirrors n (c.step (.setResolver r)).2 (c'.step (.setResolver r)).2 := by
  obtain ⟨k, served, hl', hc, hp⟩ := hm.channel
  obtain ⟨i, r₀, hi, hf, he, -⟩ := hm.interp
  have hk' : k < c'.host.channels.length := (List.getElem?_eq_some_iff.1 hc).1
  have hn : n < c.host.machine.interps.length := (List.getElem?_eq_some_iff.1 hi).1
  have hi' : c'.host.machine.interps[n]? = some { i with resolver := r₀ } := by
    rw [he, Machine.withResolver_get hi]
  have hd : (HostM.runOn c.host (c.link.setResolver r)).2 =
      { c.host with machine := c.host.machine.setResolver n r } := by
    rw [hm.link]
    rfl
  have hch : (HostM.runOn c'.host (c'.link.setResolver r)).2 =
      { c'.host with
        machine := c'.host.machine.setResolver n (.remote r)
        channels := c'.host.channels.set k ⟨true, .exported ⟨n, served⟩⟩ } := by
    rw [hl', HostM.runOn, Link.setResolver, Host.onChannel_exported hc]
    rfl
  simp only [Client.step, hd, hch]
  refine ⟨trivial, hm.link, hm.sessions, hm.registries, ?_, ?_⟩
  · exact ⟨k, served, hl', List.getElem?_set_self hk', hp⟩
  -- From here on the resolvers differ: the second one asks across the boundary.
  · refine ⟨{ i with resolver := some r }, some (.remote r), ?_, hf, ?_,
      fun h name => h.texts_remote r name⟩
    · simp only [Machine.setResolver, hi, Machine.setInterp, List.getElem?_set_self hn]
    · simp only [Machine.setResolver, hi, hi']
      simp only [he, Machine.withResolver, Machine.setInterp, List.set_set]

theorem step_perform (hm : Mirrors n c c') {s : Nat} {op : Op} (hcall : (Call.perform s op).Fits)
    (hans : ∀ answer ∈ (c.step (.perform s op)).1, AnswerFits answer) :
    (c'.step (.perform s op)).1 = (c.step (.perform s op)).1 ∧
      Mirrors n (c.step (.perform s op)).2 (c'.step (.perform s op)).2 := by
  have hkey : c'.key? s = c.key? s := by rw [Client.key?, Client.key?, hm.sessions]
  cases hk : c.key? s with
  | none =>
    simp only [Client.step, hkey, hk]
    exact ⟨trivial, hm⟩
  | some key =>
    obtain ⟨hs, hmem⟩ := mem_filterMap hk
    obtain ⟨k, served, hl', hc, hp⟩ := hm.channel
    obtain ⟨i, r, hi, hf, he, hr⟩ := hm.interp
    have hi' : c'.host.machine.interps[n]? = some { i with resolver := r } := by
      rw [he, Machine.withResolver_get hi]
    have htexts : c'.host.texts = c.host.texts := Host.texts_eq_of_registries hm.registries
    obtain ⟨i₁, hi₁, hf₁, hr₁, hperf⟩ :=
      Machine.perform_withResolver hi (hr c.host) key op
    have hd : HostM.runOn c.host (c.link.perform key op) =
        ((c.host.machine.perform c.host.texts n key op).1,
          { c.host with machine := (c.host.machine.perform c.host.texts n key op).2 }) := by
      rw [hm.link]
      rfl
    have hfits : AnswerFits (c.host.machine.perform c.host.texts n key op).1 :=
      hans _ (by simp only [Client.step, hk, hd]; rfl)
    -- The request and the answer survive their written forms; the rest happens in the machine.
    have hch : HostM.runOn c'.host (c'.link.perform key op) =
        ((c.host.machine.perform c.host.texts n key op).1,
          { c'.host with
            machine := (c.host.machine.perform c.host.texts n key op).2.withResolver n i₁ r
            channels := c'.host.channels.set k ⟨true, .exported ⟨n, served⟩⟩ }) := by
      have hperf' : c'.host.machine.perform c'.host.texts n key op =
          ((c.host.machine.perform c.host.texts n key op).1,
            (c.host.machine.perform c.host.texts n key op).2.withResolver n i₁ r) := by
        rw [he, htexts]
        exact hperf
      rw [hl', HostM.runOn, Link.perform, Host.onChannel_exported hc,
        Channel.perform_endpoint hi' (hp.mem_iff.2 hmem) hcall.1 hcall.2
          (by rw [hperf']; exact fun _ hr => hfits.nesting hr)
          (by rw [hperf']; exact hfits.addressable), hperf']
    have hk' : k < c'.host.channels.length := (List.getElem?_eq_some_iff.1 hc).1
    simp only [Client.step, hkey, hk, hd, hch]
    refine ⟨trivial, hm.link, hm.sessions, hm.registries, ?_, ?_⟩
    · exact ⟨k, served, hl', List.getElem?_set_self hk', hp⟩
    · exact ⟨i₁, r, hi₁, hf₁.trans hf, rfl, fun h name => by rw [hr₁]; exact hr h name⟩

/-- One call keeps the two clients in step. -/
theorem step (hm : Mirrors n c c') {call : Call} (hcall : call.Fits)
    (hans : ∀ answer ∈ (c.step call).1, AnswerFits answer) :
    (c'.step call).1 = (c.step call).1 ∧ Mirrors n (c.step call).2 (c'.step call).2 := by
  cases call with
  | openSession => exact hm.step_openSession
  | closeSession s => exact hm.step_closeSession s
  | setResolver r => exact hm.step_setResolver r
  | publish registries =>
    obtain ⟨k, served, hl', hc, hp⟩ := hm.channel
    exact ⟨rfl, hm.link, hm.sessions, rfl, ⟨k, served, hl', hc, hp⟩, hm.interp⟩
  | perform s op => exact hm.step_perform hcall hans

theorem trace_eq (hm : Mirrors n c c') (calls : List Call) (hcalls : ∀ call ∈ calls, call.Fits)
    (hans : ∀ x ∈ c.trace n calls, ∀ answer ∈ x.1, AnswerFits answer) :
    c'.trace n calls = c.trace n calls := by
  induction calls generalizing c c' with
  | nil => rfl
  | cons call calls ih =>
    obtain ⟨ha, hnext⟩ := hm.step (hcalls call List.mem_cons_self)
      (hans _ List.mem_cons_self)
    have hrest := ih hnext (fun d hd => hcalls d (List.mem_cons_of_mem call hd))
      (fun x hx => hans x (List.mem_cons_of_mem _ hx))
    rw [Client.trace, Client.trace, ha, hnext.view_eq, hrest]

end Mirrors

/-- An interpreter behind a channel and the same interpreter in the process: whatever a client does
before it is finalized, every answer and everything that can be seen after it are the same. The values
that cross are nested at most 64 deep, and no message is longer than an allocation can be. -/
theorem channelled_trace_eq_direct (h : Host) (n : Nat) (i : Interp) (calls : List Call)
    (hi : h.machine.interps[n]? = some i) (hlive : i.finalized = false)
    (hcalls : ∀ call ∈ calls, call.Fits)
    (hanswers : ∀ x ∈ (Client.direct h n).trace n calls, ∀ answer ∈ x.1, AnswerFits answer) :
    (Client.channelled h n).trace n calls = (Client.direct h n).trace n calls :=
  (Mirrors.start hi hlive).trace_eq calls hcalls hanswers

/-- A host with one interpreter and nothing else. -/
def Host.bare : Host := (HostM.runOn {} Host.addInterp).2

/-- Calls that meet modules, shared namespaces, forged references and serialized forms. -/
def Client.sample : List Call :=
  [.openSession, .openSession,
    .setResolver (.fixed (Table.ofList [("limits", "max = [[1], \"a\"]\nmin = 0")])),
    .perform 0 (.global "limits" "max"), .perform 0 (.toValue ⟨⟨1⟩, 0⟩),
    .perform 1 (.toValue ⟨⟨1⟩, 0⟩), .perform 1 (.global "runtime" "version"),
    .perform 1 (.ofValue (.list [.float ⟨0x7FF0000000000001⟩])),
    .perform 1 (.setAttr ⟨⟨2⟩, 0⟩ "instance" ⟨⟨2⟩, 1⟩), .perform 1 (.serialize none ⟨⟨2⟩, 1⟩),
    .perform 0 (.restore ⟨7⟩ [5, 1, 2, 84]), .perform 0 (.restore ⟨8⟩ [9]),
    .closeSession 1, .perform 1 (.unload ⟨7⟩), .perform 0 (.unload ⟨7⟩)]

/-- The answers to the sample. -/
def Client.sampleAnswers : List (Option (Except Error Response)) :=
  [some (.ok (.session ⟨1⟩)), some (.ok (.session ⟨2⟩)), none,
    some (.ok (.ref ⟨⟨1⟩, 0⟩)), some (.ok (.value (.list [.list [.int 1], .str "a"]))),
    some (.error (.runtime ⟨.ownership, "session-1#0 does not belong to session-2"⟩)),
    some (.ok (.ref ⟨⟨2⟩, 0⟩)), some (.ok (.ref ⟨⟨2⟩, 1⟩)), some (.ok .unit),
    some (.ok (.bytes [5, 1, 3, 1, 0, 0, 0, 0, 0, 240, 127])), some (.ok (.ref ⟨⟨1⟩, 1⟩)),
    some (.error (.runtime
      ⟨.runtime, "unpickling object-8: Decode error: Serde Deserialization Error"⟩)),
    none, none, some (.ok (.bool true))]

/-- The two ways agree on the sample, and these are the answers. -/
theorem channelled_trace_eq_direct_sample :
    (Client.channelled Host.bare 0).trace 0 Client.sample =
        (Client.direct Host.bare 0).trace 0 Client.sample ∧
      ((Client.direct Host.bare 0).trace 0 Client.sample).map Prod.fst = Client.sampleAnswers :=
  ⟨channelled_trace_eq_direct Host.bare 0 _ Client.sample rfl rfl (by decide +kernel)
    (by decide +kernel), by decide +kernel⟩

end InstancePool
