import InstancePool.Proofs.Session.OpenCount
import InstancePool.Proofs.Replica.Lifecycle

/-!
How the object for an identifier goes from an instance, whatever became of the instance before. Where a
session can be opened, and the answer in it is no fault, the object is gone. Nothing else that is loaded
anywhere changes, whether this succeeds or fails.
-/

namespace InstancePool

open HostM

namespace Machine

variable {m m' m'' : Machine} {n : Nat} {i i' : Interp} {id : ObjectId}

/-- What an interpreter has loaded. -/
def loadedAt (m : Machine) (k : Nat) : Option (Table ObjectId ObjectIndex) :=
  (m.interps[k]?).map Interp.loaded

/-- From a machine to a later one: each interpreter has loaded what it had, or that without the object
for an identifier. -/
def Drains (id : ObjectId) (m m' : Machine) : Prop :=
  ∀ k, m'.loadedAt k = m.loadedAt k ∨ m'.loadedAt k = (m.loadedAt k).map fun t => t.erase id

theorem Drains.refl (m : Machine) : m.Drains id m := fun _ => .inl rfl

theorem Drains.trans (hd : m.Drains id m') (hd' : m'.Drains id m'') : m.Drains id m'' := by
  intro k
  rcases hd' k with he' | he' <;> rcases hd k with he | he
  · exact .inl (he'.trans he)
  · exact .inr (he'.trans he)
  · exact .inr (he'.trans (by rw [he]))
  · refine .inr (he'.trans ?_)
    rw [he, Option.map_map]
    exact congrArg (fun f => (m.loadedAt k).map f) (funext fun t => t.erase_erase id)

theorem drains_set (hi : m.interps[n]? = some i) (hm : m'.interps = m.interps.set n i')
    (hl : i'.loaded = i.loaded ∨ i'.loaded = i.loaded.erase id) : m.Drains id m' := by
  intro k
  by_cases hk : n = k
  · subst hk
    have hi' : m'.interps[n]? = some i' := by
      rw [hm, List.getElem?_set_self (List.getElem?_eq_some_iff.1 hi).1]
    rw [loadedAt, loadedAt, hi, hi']
    exact hl.imp (congrArg some) (congrArg some)
  · rw [loadedAt, loadedAt, hm, List.getElem?_set_ne hk]
    exact .inl rfl

theorem drains_openSession (n : Nat) (m : Machine) : m.Drains id (m.openSession n).2 := by
  unfold openSession
  cases hi : m.interps[n]? with
  | none => exact .refl m
  | some i =>
    simp only []
    split
    · exact .refl m
    · exact drains_set hi rfl (.inl rfl)

theorem drains_closeSession (n : Nat) (key : SessionKey) (m : Machine) :
    m.Drains id (m.closeSession n key) := by
  unfold closeSession
  cases hi : m.interps[n]? with
  | none => exact .refl m
  | some i => exact drains_set hi rfl (.inl rfl)

/-- An object is dropped in a session that is open, and otherwise nothing happens. -/
theorem unload_cases (source : TextSource) (n : Nat) (key : SessionKey) (id : ObjectId) (m : Machine) :
    (∃ e, m.perform source n key (.unload id) = (.error e, m)) ∨
      ∃ i b, m.interps[n]? = some i ∧ m.perform source n key (.unload id) =
        (.ok (.bool b), m.setInterp n { i with loaded := i.loaded.erase id }) := by
  cases hi : m.interps[n]? with
  | none => exact .inl ⟨.unknownHandle, by simp only [perform, hi]⟩
  | some i =>
    cases hk : i.sessions.get? key with
    | none =>
      refine .inl ⟨.runtime (Failure.unknownSession key).fault, ?_⟩
      rw [perform_eq hi]
      simp only [Engine.perform, hk, Except.mapError_error, setInterp_self hi]
    | some slots => exact .inr ⟨i, _, rfl, unload_ok source id hi hk⟩

/-- Where an operation to drop an object is done, the object is gone. -/
theorem unload_gone {source : TextSource} {key : SessionKey} {r : Response}
    {t : Table ObjectId ObjectIndex} (hok : (m.perform source n key (.unload id)).1 = .ok r)
    (ht : (m.perform source n key (.unload id)).2.loadedAt n = some t) : t.contains id = false := by
  rcases unload_cases source n key id m with ⟨e, he⟩ | ⟨i, b, hi, he⟩
  · cases (congrArg Prod.fst he).symm.trans hok
  · have hlt : n < m.interps.length := (List.getElem?_eq_some_iff.1 hi).1
    rw [he, loadedAt, setInterp, List.getElem?_set_self hlt] at ht
    cases ht
    rw [Host.contains_erase, decide_eq_true rfl]
    rfl

theorem drains_unload (source : TextSource) (n : Nat) (key : SessionKey) (m : Machine) :
    m.Drains id (m.perform source n key (.unload id)).2 := by
  rcases unload_cases source n key id m with ⟨e, hr⟩ | ⟨i, b, hi, hr⟩
  · rw [hr]
    exact .refl m
  · rw [hr]
    exact drains_set hi rfl (.inr rfl)

end Machine

/-- A request concerns sessions, or the object for an identifier is to go. -/
def Request.Drains (id : ObjectId) : Request → Prop
  | .openSession | .closeSession _ => True
  | .act _ op => op = .unload id

namespace Channel

variable {id : ObjectId} {r r' : Request}

theorem drains_of_decode {bytes : List UInt8} (hr : r.Drains id)
    (hb : Wire.encodeRequest r = .ok bytes) (hd : Wire.decodeRequest bytes = .ok r') :
    r'.Drains id := by
  rcases Wire.decodeRequest_of_encode hb hd with rfl | ⟨key, op, op', rfl, -, -⟩
  · exact hr
  · obtain rfl : op = .unload id := hr
    obtain ⟨o, rfl, ha⟩ := Wire.arrives_of_decodeRequest rfl hb hd
    cases ha
    rfl

theorem drains_serve (source : TextSource) (hr : r.Drains id) (m : Machine) (e : Endpoint) :
    m.Drains id (Endpoint.serve source r (m, e)).2.1 := by
  cases r with
  | openSession =>
    have hm : m.Drains id (m.openSession e.interp).2 := Machine.drains_openSession e.interp m
    simp only [Endpoint.serve]
    rcases h : m.openSession e.interp with ⟨cause | key, m'⟩
    · rwa [h] at hm
    · rwa [h] at hm
  | closeSession key =>
    simp only [Endpoint.serve]
    split
    · exact Machine.drains_closeSession _ key m
    · exact .refl m
  | act key op =>
    obtain rfl : op = .unload id := hr
    simp only [Endpoint.serve]
    split
    · exact Machine.drains_unload source _ key m
    · exact .refl m

theorem drains_call (source : TextSource) (hr : r.Drains id) (live : Bool) (m : Machine)
    (e : Endpoint) : m.Drains id (call (Endpoint.image source) r ⟨live, (m, e)⟩).2.peer.1 := by
  rcases call_cases source r ⟨live, (m, e)⟩ with he | ⟨bytes, r', -, hb, hd, he⟩
  · rw [he]
    exact .refl m
  · rw [he]
    exact drains_serve source (drains_of_decode hr hb hd) m e

end Channel

namespace Host

variable {α : Type} {h h' : Host} {id : ObjectId} {n : InstanceId}

/-- From a host to a later one: the instances have the interpreters that they had, and of what those had
loaded nothing is gone but objects for an identifier. -/
structure Drains (id : ObjectId) (h h' : Host) : Prop where
  seat : ∀ n, h'.seat n = h.seat n
  machine : h.machine.Drains id h'.machine

instance : Frame (Drains id) where
  refl _ := ⟨fun _ => rfl, .refl _⟩
  trans hd hd' := ⟨fun n => (hd'.seat n).trans (hd.seat n), hd.machine.trans hd'.machine⟩

theorem store_eq_loadedAt (h : Host) (n : InstanceId) : h.store n = (h.seat n).bind h.machine.loadedAt :=
  rfl

theorem Drains.store (hd : h.Drains id h') (n : InstanceId) :
    h'.store n = h.store n ∨ h'.store n = (h.store n).map fun t => t.erase id := by
  rw [store_eq_loadedAt, store_eq_loadedAt, hd.seat]
  cases h.seat n with
  | none => exact .inl rfl
  | some k => exact hd.machine k

/-- What an instance holds afterwards it held before. -/
theorem Drains.holds_before (hd : h.Drains id h') {id' : ObjectId} (hh : h'.holds n id' = true) :
    h.holds n id' = true := by
  obtain ⟨t', ht', hc⟩ := holds_iff_store.1 hh
  rw [holds_iff_store]
  rcases hd.store n with he | he
  · exact ⟨t', he.symm.trans ht', hc⟩
  · obtain ⟨t, ht, rfl⟩ := Option.map_eq_some_iff.1 (he.symm.trans ht')
    rw [contains_erase, Bool.and_eq_true] at hc
    exact ⟨t, ht, hc.2⟩

/-- Nothing is gone but objects for the one identifier. -/
theorem Drains.holds_of_ne (hd : h.Drains id h') {id' : ObjectId} (hne : id' ≠ id) (n : InstanceId) :
    h'.holds n id' = h.holds n id' := by
  rw [Bool.eq_iff_iff]
  refine ⟨hd.holds_before, fun hh => ?_⟩
  obtain ⟨t, ht, hc⟩ := holds_iff_store.1 hh
  rw [holds_iff_store]
  rcases hd.store n with he | he
  · exact ⟨t, he.trans ht, hc⟩
  · refine ⟨t.erase id, by rw [he, ht]; rfl, ?_⟩
    rw [contains_erase, decide_eq_false hne, hc]
    rfl

theorem drains_onChannel {c : Nat} (f : ChannelStep α)
    (hf : ∀ live e, h.machine.Drains id
      (f (Endpoint.image h.texts) ⟨live, (h.machine, e)⟩).2.peer.1) :
    h.machine.Drains id (runOn h (onChannel c f)).2.machine := by
  unfold onChannel
  rw [runOn_of]
  split
  · exact .refl _
  · rename_i live e hc
    exact hf live e
  · exact .refl _

/-- What keeps the books and leaves links alone leaves the instances where they are. -/
theorem drains_of_machine {x : HostM α} (hb : Within SameBooks x) (hl : Within Lasts x)
    (hm : ∀ h : Host, h.machine.Drains id (runOn h x).2.machine) : Within (Drains id) x := by
  refine fun h => ⟨fun n => ?_, hm h⟩
  have hat : (runOn h x).2.interpAt = h.interpAt := funext (hl h).interpAt
  rw [seat, seat, (hb h).linkOf, hat]

end Host

namespace Link

open Host

variable {h h' : Host} {l : Link} {key : SessionKey} {id : ObjectId}

theorem drains_openSession (l : Link) : Within (Drains id) l.openSession := by
  refine drains_of_machine (sameBooks_openSession l) (Daily.openSession l) fun h => ?_
  cases l with
  | direct n => exact Machine.drains_openSession n _
  | channel c =>
    exact drains_onChannel (fun image ch => ch.openSession image) fun live e =>
      Channel.drains_call _ (r := .openSession) trivial live _ e

theorem drains_closeSession (key : SessionKey) (l : Link) : Within (Drains id) (l.closeSession key) := by
  refine drains_of_machine (sameBooks_closeSession l key) (Daily.closeSession l key) fun h => ?_
  cases l with
  | direct n => exact Machine.drains_closeSession n key _
  | channel c =>
    exact drains_onChannel (fun image ch => (.ok (), ch.closeSession image key)) fun live e =>
      Channel.drains_call _ (r := .closeSession key) trivial live _ e

theorem drains_unload (key : SessionKey) (l : Link) :
    Within (Drains id) (l.perform key (.unload id)) := by
  refine drains_of_machine (sameBooks_perform l key _) (Daily.perform l key _) fun h => ?_
  cases l with
  | direct n => exact Machine.drains_unload _ n key _
  | channel c =>
    exact drains_onChannel (fun image ch => ch.perform image key (.unload id)) fun live e =>
      Channel.drains_call _ (r := .act key (.unload id)) rfl live _ e

/-- So it is where the answer that is heard through a link is no fault. -/
theorem unload_gone {r : Response} (hr : runOn h (l.perform key (.unload id)) = (.ok r, h')) {k : Nat}
    {t : Table ObjectId ObjectIndex} (hk : h'.interpAt l = some k)
    (ht : h'.machine.loadedAt k = some t) : t.contains id = false := by
  cases l with
  | direct n =>
    obtain rfl : n = k := Option.some.inj hk
    obtain ⟨hok, rfl⟩ := Prod.mk.inj hr
    exact Machine.unload_gone hok ht
  | channel c =>
    simp only [perform, onChannel, runOn_of] at hr
    cases hc : h.channels[c]? with
    | none =>
      rw [hc] at hr
      cases hr
    | some channel =>
      have hlt : c < h.channels.length := (List.getElem?_eq_some_iff.1 hc).1
      obtain ⟨live, peer⟩ := channel
      rw [hc] at hr
      cases peer with
      | scripted script =>
        obtain ⟨-, rfl⟩ := Prod.mk.inj hr
        simp only [interpAt, List.getElem?_set_self hlt] at hk
        cases hk
      | exported e =>
        cases live with
        | false => cases hr
        | true =>
          simp only [] at hr
          -- If the session were not served, there would be a fault.
          rcases Channel.perform_relayed h.texts key (.unload id) rfl with
            ⟨-, f, hf⟩ | ⟨-, op, heard, ha, hp, hrelay⟩
          · rw [hf] at hr
            cases hr
          · cases ha
            rw [hp] at hr
            obtain ⟨rfl, rfl⟩ := Prod.mk.inj hr
            rw [interpAt_channel (List.getElem?_set_self hlt)] at hk
            obtain rfl := Option.some.inj hk
            obtain ⟨sent, hsent⟩ := hrelay.of_ok rfl
            exact Machine.unload_gone hsent ht

/-- A session is closed without fail, through any channel that there is. -/
theorem closeSession_known (key : SessionKey) (hl : h.Known l) :
    ∃ h', runOn h (l.closeSession key) = (.ok (), h') := by
  cases l with
  | direct n => exact ⟨_, rfl⟩
  | channel c =>
    obtain ⟨⟨live, peer⟩, hc⟩ : ∃ channel, h.channels[c]? = some channel :=
      ⟨_, List.getElem?_eq_getElem hl⟩
    cases peer with
    | exported e => exact ⟨_, by simp only [closeSession, onChannel, runOn_of, hc]; rfl⟩
    | scripted s => exact ⟨_, by simp only [closeSession, onChannel, runOn_of, hc]; rfl⟩

end Link

namespace Host

variable {h h' : Host} {id : ObjectId} {n : InstanceId} {r : Replica} {manager : Manager}

/-- Opens a session on an instance, which the host does not keep. -/
def visit (n : InstanceId) : HostM (Link × SessionKey) := do
  let i ← getInstance n
  i.openSession

/-- An attempt to drop the object for an identifier from an instance, and what it comes to: no session can
be opened there, or the answer in one counts. -/
inductive Attempt (id : ObjectId) (n : InstanceId) (h : Host) : Except Error Unit → Host → Prop
  | refused (e : Error) (h' : Host) (ho : runOn h (visit n) = (.error e, h')) :
    Attempt id n h (.error e) h'
  | answered (link : Link) (key : SessionKey) (answer : Except Error Response) (h₁ h₂ h₃ : Host)
    (ho : runOn h (visit n) = (.ok (link, key), h₁))
    (ha : runOn h₁ (link.perform key (.unload id)) = (answer, h₂))
    (hc : runOn h₂ (link.closeSession key) = (.ok (), h₃)) :
    Attempt id n h (answer.map fun _ => ()) h₃

theorem visit_ok {link : Link} {key : SessionKey} (hr : runOn h (visit n) = (.ok (link, key), h')) :
    h.linkOf n = some link ∧ runOn h link.openSession = (.ok key, h') := by
  obtain ⟨i, h₀, hget, hr⟩ := bind_ok hr
  obtain ⟨hi, rfl⟩ := find_ok hget
  unfold Instance.openSession at hr
  cases hl : i.link with
  | none =>
    rw [hl] at hr
    cases hr
  | some l =>
    rw [hl] at hr
    obtain ⟨key', h₁, ho, hr⟩ := bind_ok hr
    cases hr
    exact ⟨by rw [linkOf, hi]; exact hl, ho⟩

/-- A session of its own, told by the opening. -/
theorem unloadFrom_eq (hm : h.managers[r.manager]? = some manager) (hn : n ∈ manager.instances) :
    runOn h (unloadFrom r n) = runOn h (do
      let (link, key) ← visit n
      ensuring (do let _ ← link.perform key (.unload r.id)) (link.closeSession key)) := by
  rw [unloadFrom, runOn_bind_ok (requireOwned_ok hm hn), visit, bind_assoc]
  rcases find_cases (fun h => h.instances[n]?) h with ⟨-, hr⟩ | ⟨i, -, hr⟩
  · rw [getInstance, runOn_bind_error hr, runOn_bind_error hr]
  · rw [getInstance, runOn_bind_ok hr, runOn_bind_ok hr]
    unfold Instance.withSession Instance.openSession
    cases i.link with
    | none => rfl
    | some l => rw [bind_assoc]; rfl

theorem attempt_unloadFrom (hm : h.managers[r.manager]? = some manager) (hn : n ∈ manager.instances) :
    h.Attempt r.id n (runOn h (unloadFrom r n)).1 (runOn h (unloadFrom r n)).2 := by
  rw [unloadFrom_eq hm hn]
  rcases ho : runOn h (visit n) with ⟨e | ⟨link, key⟩, h₁⟩
  · rw [runOn_bind_error ho]
    exact .refused e h₁ ho
  · rw [runOn_bind_ok ho]
    rcases ha : runOn h₁ (link.perform key (.unload r.id)) with ⟨answer, h₂⟩
    have hknown : h₂.Known link := by
      have hkeeps := Link.keeps_perform key (.unload r.id) link h₁
      rw [ha] at hkeeps
      exact (hkeeps.leads link (Link.openSession_issues (visit_ok ho).2).1).1
    obtain ⟨h₃, hc⟩ := Link.closeSession_known key hknown
    have hbody : runOn h₁ (outcome (do let _ ← link.perform key (.unload r.id))) =
        (.ok (answer.map fun _ => ()), h₂) := by
      rw [runOn_outcome, runOn_bind, ha]
      cases answer <;> rfl
    simp only []
    rw [ensuring, runOn_bind_ok hbody, runOn_bind_ok hc]
    exact .answered link key answer h₁ h₂ h₃ ho ha hc

theorem drains_unloadFrom (r : Replica) (n : InstanceId) : Within (Drains r.id) (unloadFrom r n) :=
  (within_requireOwned r.manager n).bind fun _ => (within_find _).bind fun _ =>
    Instance.within_withSession Link.drains_openSession (fun l key => l.drains_closeSession key)
      fun l key => (l.drains_unload key).bind fun _ => within_pure _

/-- An attempt fails if no session can be opened, or the answer is a fault, and then alone. -/
theorem Attempt.error_iff {result : Except Error Unit} (ha : h.Attempt id n result h') (e : Error) :
    result = .error e ↔ (runOn h (visit n)).1 = .error e ∨
      ∃ link key h₁, runOn h (visit n) = (.ok (link, key), h₁) ∧
        (runOn h₁ (link.perform key (.unload id))).1 = .error e := by
  cases ha with
  | refused e' h' ho =>
    rw [ho]
    refine ⟨fun he => .inl (by cases he; rfl), ?_⟩
    rintro (he | ⟨link, key, h₁, he, -⟩)
    · cases he
      rfl
    · cases he
  | answered link key answer h₁ h₂ h₃ ho ha hc =>
    rw [ho]
    constructor
    · intro he
      refine .inr ⟨link, key, h₁, rfl, ?_⟩
      rw [ha]
      cases answer with
      | error e' => cases he; rfl
      | ok r => cases he
    · rintro (he | ⟨link', key', h₁', he, ha'⟩)
      · cases he
      · cases he
        rw [ha] at ha'
        obtain rfl : answer = .error e := ha'
        rfl

/-- After an attempt that did not fail the instance holds nothing for the identifier. -/
theorem Attempt.holds_eq_false (ha : h.Attempt id n (.ok ()) h') : h'.holds n id = false := by
  generalize hresult : (Except.ok () : Except Error Unit) = result at ha
  cases ha with
  | refused e h' ho => cases hresult
  | answered link key answer h₁ h₂ h₃ ho ha hc =>
    cases answer with
    | error e => cases hresult
    | ok response =>
      rw [← Bool.not_eq_true]
      intro hholds
      -- It would have held it when the session was closed, but then the answer was given already.
      have hclose : h₂.Drains id h' := (link.drains_closeSession key).of_eq hc
      have hbefore := hclose.holds_before hholds
      obtain ⟨t, ht, hcontains⟩ := holds_iff_store.1 hbefore
      obtain ⟨k, hseat, ht⟩ := Option.bind_eq_some_iff.1 ht
      obtain ⟨l, hl, hat⟩ := seat_eq.1 hseat
      obtain ⟨hlink, hopen⟩ := visit_ok ho
      have hbooks := ((sameBooks_openSession link).of_eq hopen).trans
        ((sameBooks_perform link key _).of_eq ha)
      rw [hbooks.linkOf, hlink] at hl
      obtain rfl := Option.some.inj hl
      cases (Link.unload_gone ha hat ht).symm.trans hcontains

end Host

end InstancePool
