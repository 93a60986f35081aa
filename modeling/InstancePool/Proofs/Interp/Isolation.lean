import InstancePool.Proofs.Host.Runs
import InstancePool.Proofs.Manager.InterpretersUsed
import InstancePool.Proofs.Interp.NamespaceSharing

/-!
Interpreters do not get in each other's way. However many there are, and whether they belong to
instances or stand alone, no two of them ever reach the same object, and what is done through one
leaves the others as they were.
-/

namespace InstancePool

open HostM

/-- All that is done to a host: the actions of its users, and what happens to interpreters that belong
to no instance, behind the boundary or on this side of it. -/
inductive Deed where
  | act (action : Action)
  | addInterp
  | exportInterp (interp : Nat)
  | addScript (script : Script)
  | openBare (link : Link)
  | setResolver (link : Link) (r : Resolver)
  | finalize (link : Link)
  /-- Bytes reach an image without a channel around them. -/
  | dispatch (channel : Nat) (bytes : List UInt8)
  | finalizeImage (channel : Nat)
  | installAnswers (interp : Nat) (answers : List (List UInt8 × Found))

namespace Host

/-- An interpreter of an instance of a manager. -/
def crew (h : Host) (m : ManagerId) (k : Nat) : Prop :=
  ∃ manager n, h.managers[m]? = some manager ∧ n ∈ manager.instances ∧ h.seat n = some k

end Host

/-- The interpreters that an action is about. What happens elsewhere may be about any. -/
def Action.Concerns (h : Host) : Action → Nat → Prop
  | addLoader .., _ | addSource .., _ | addEnvironment .., _ | register .., _
  | cloneReplica _, _ => False
  | buildManager .., k | loadInstance .., k => h.machine.interps.length ≤ k
  | openBalanced m _, k | shutdown m, k | dropManager m, k => h.crew m k
  | openPinned _ n, k | openAlone n, k | openReplica _ (some n) _, k | unload _ (some n), k
  | closeInstance n, k | dropInstance n, k => h.seat n = some k
  | openReplica n none _, k | unload n none, k | dropReplica n, k =>
    ∃ r, h.replicas.get? n = some r ∧ h.crew r.manager k
  | closeSession s, k | perform s _, k | setCurrent s _, k | createReplica s _, k
  | materialize s _, k =>
    ∃ session, h.sessions.get? s = some session ∧ h.interpAt session.link = some k
  | elsewhere .., _ => True

namespace Deed

/-- Runs a deed. Its outcome is lost. -/
def run : Deed → HostM Unit
  | act action => action.run
  | addInterp => do let _ ← Host.addInterp
  | exportInterp interp => do let _ ← Host.exportInterp interp
  | addScript script => do let _ ← Host.addScript script
  | openBare link => do let _ ← Host.openBare link
  | setResolver link r => link.setResolver r
  | finalize link => link.finalize
  | dispatch channel bytes => do let _ ← Host.dispatch channel bytes
  | finalizeImage channel => do let _ ← Host.finalizeImage channel
  | installAnswers interp answers => Host.installAnswers interp answers

/-- The interpreters that a deed is about. -/
def Concerns (h : Host) : Deed → Nat → Prop
  | act action, k => action.Concerns h k
  | addInterp, k => h.machine.interps.length ≤ k
  | addScript _, _ => False
  | exportInterp n, k | installAnswers n _, k => k = n
  | openBare link, k | setResolver link _, k | finalize link, k => h.interpAt link = some k
  | dispatch channel _, k | finalizeImage channel, k => h.interpAt (.channel channel) = some k

/-- Whether a deed is said in full: nothing happens elsewhere. -/
def Told : Deed → Prop
  | act (.elsewhere ..) => False
  | _ => True

instance : DecidablePred Told := fun d => by
  unfold Told
  split <;> infer_instance

end Deed

namespace Host

/-- The host after a deed. -/
def doing (h : Host) (d : Deed) : Host := (runOn h d.run).2

/-- The host after some deeds. -/
def afterDeeds (h : Host) (deeds : List Deed) : Host := deeds.foldl doing h

/-- From a host to a later one: an interpreter is as it was, with all that it reaches and all that the
references of its sessions stand for. -/
structure Undisturbed (k : Nat) (h h' : Host) : Prop where
  interp : h'.machine.interps[k]? = h.machine.interps[k]?
  object : ∀ x, h.machine.Reaches k x → h'.machine.heap.objects[x]? = h.machine.heap.objects[x]?
  reaches : ∀ x, h'.machine.Reaches k x ↔ h.machine.Reaches k x
  served : ∀ l key, h.interpAt l = some k → (h'.Served l key ↔ h.Served l key)
  meaning : ∀ l key r, h.interpAt l = some k →
    h'.interpAt l = some k ∧ h'.meaning l key r = h.meaning l key r

variable {S : Nat → Prop} {h h' : Host} {d : Deed} {k : Nat}

theorem crew_of_concerns {m : ManagerId} (hs : ∀ k, h.crew m k → S k) : h.Crew S m :=
  fun manager hm n l hn hl k hk => hs k ⟨manager, n, hm, hn, seat_eq.2 ⟨l, hl, hk⟩⟩

theorem homes_of_seat {n : InstanceId} (hs : ∀ k, h.seat n = some k → S k) : h.Homes S (· = n) := by
  rintro n l rfl hl k hk
  exact hs k (seat_eq.2 ⟨l, hl, hk⟩)

/-- An action puts those interpreters to work that it is about. -/
theorem works_action {a : Action} (ha : ∀ m cs, a ≠ .elsewhere m cs) :
    h.Works (a.Concerns h) (runOn h a.run).2 := by
  -- An action whose result is lost does what it does with its result.
  have hlost {β : Type} {S : Nat → Prop} {x : HostM β} (hx : h.Works S (runOn h x).2) :
      h.Works S (runOn h (do let _ ← x)).2 := bind_rel hx fun _ h' _ => .refl h'
  have hruns (s : SessionId) : h.Runs (fun k => ∃ session, h.sessions.get? s = some session ∧
      h.interpAt session.link = some k) s := fun session hs k hk => ⟨session, hs, hk⟩
  have hstores (n : ReplicaId) : h.Stores (fun k => ∃ r, h.replicas.get? n = some r ∧
      h.crew r.manager k) n := fun r hr => crew_of_concerns fun k hk => ⟨r, hr, hk⟩
  cases a with
  | addLoader | addSource | addEnvironment => exact .of_books .refl rfl rfl rfl
  | buildManager spec => exact hlost (works_buildManager spec h)
  | loadInstance number spec env => exact hlost (works_loadInstance number spec env h)
  | register m name source =>
    exact Within.bind (R := Works _) (within_find _) (fun _ =>
      ((within_find _).bind fun _ => within_find _).bind fun _ _ => .of_books .refl rfl rfl rfl) h
  | openBalanced m t => exact hlost (opens_openBalanced t (crew_of_concerns fun _ => id)).1
  | openPinned m n => exact hlost (opens_openPinned m (homes_of_seat fun _ => id)).1
  | openAlone n => exact hlost (works_openAlone n h (homes_of_seat fun _ => id))
  | openReplica n on t =>
    cases on with
    | some home => exact hlost (works_openReplica t (homes_of_seat fun _ => id))
    | none => exact hlost (works_openReplica t (hstores n))
  | closeSession s => exact works_closeSession s h (hruns s)
  | perform s op => exact hlost (works_perform s op h (hruns s))
  | setCurrent s r => exact works_setCurrent s r h (hruns s)
  | createReplica s r => exact hlost (works_createReplica s r h (hruns s))
  | materialize s n => exact hlost (works_materialize s n h (hruns s))
  | unload n on =>
    cases on with
    | some home =>
      exact works_getReplica fun r _ => works_unloadFrom r home h (homes_of_seat fun _ => id)
    | none => exact works_unloadAll n h (hstores n)
  | cloneReplica n =>
    exact hlost (works_getReplica fun r _ => .of_books .refl rfl rfl rfl)
  | dropReplica n => exact works_dropReplica n h (hstores n)
  | shutdown m => exact works_shutdown m h (crew_of_concerns fun _ => id)
  | dropManager m => exact works_dropManager m h (crew_of_concerns fun _ => id)
  | closeInstance n => exact works_closeInstance n h (homes_of_seat fun _ => id)
  | dropInstance n => exact works_closeInstance n h (homes_of_seat fun _ => id)
  | elsewhere m cs => exact absurd rfl (ha m cs)

/-- A deed puts those interpreters to work that it is about. -/
theorem works_deed (hd : d.Told) : h.Works (d.Concerns h) (h.doing d) := by
  have hlost {β : Type} {S : Nat → Prop} {x : HostM β} (hx : h.Works S (runOn h x).2) :
      h.Works S (runOn h (do let _ ← x)).2 := bind_rel hx fun _ h' _ => .refl h'
  cases d with
  | act a =>
    refine works_action fun m cs he => ?_
    rw [he] at hd
    exact hd
  | addInterp =>
    exact hlost (.of_books (.single (.create (Nat.le_refl _))) rfl rfl rfl)
  | exportInterp n =>
    have hn : Deed.Concerns h (.exportInterp n) n := rfl
    exact hlost (works_exportInterp hn h)
  | addScript script => exact hlost (works_addChannel (fun _ he => by cases he) h)
  | openBare link =>
    have hl : h.LeadsInto (fun k => h.interpAt link = some k) link := fun _ => id
    have hw := Link.works_openSession hl
    exact hlost (bind_rel hw fun key h' hr => works_addSession _ h' (by
      rw [hr] at hw
      exact hw.leadsInto hl))
  | setResolver link r => exact Link.works_setResolver r fun _ => id
  | finalize link => exact Link.works_finalize fun _ => id
  | dispatch c bytes =>
    exact hlost (works_onChannel (fun _ => id) fun live e hn =>
      Endpoint.steps_dispatch h.texts hn bytes)
  | finalizeImage c =>
    exact hlost (works_onChannel (fun _ => id) fun live e hn => Endpoint.steps_finalize hn)
  | installAnswers n answers => exact .of_books (.single (.setResolver rfl)) rfl rfl rfl

/-- An interpreter is left alone by all that is about others. -/
theorem Works.undisturbed (ha : h.machine.Apart) (hw : h.Works S h') (hk : ¬ S k) :
    Undisturbed k h h' := by
  have hleaves : h.machine.Leaves S h'.machine := (ha.steps hw.machine).2
  -- A channel that leads to the interpreter is as it was.
  have hchannel (c : Nat) (hc : h.interpAt (.channel c) = some k) :
      ∃ live e, e.interp = k ∧ h.channels[c]? = some ⟨live, .exported e⟩ ∧
        h'.channels[c]? = some ⟨live, .exported e⟩ := by
    obtain ⟨live, e, he, rfl⟩ := interpAt_channel_iff.1 hc
    obtain ⟨live', e', he', -, hsame⟩ := hw.channel c live e he
    obtain ⟨rfl, rfl⟩ := hsame hk
    exact ⟨live', e', rfl, he, he'⟩
  have hinterpAt (l : Link) (hl : h.interpAt l = some k) : h'.interpAt l = some k := by
    cases l with
    | direct n => exact hl
    | channel c =>
      obtain ⟨live, e, he, -, hc⟩ := hchannel c hl
      rw [interpAt_channel hc, he]
  refine ⟨hleaves.interp k hk, fun x hx => hleaves.object k x hk hx, hleaves.reaches hk,
    fun l key hl => ?_, fun l key r hl => ⟨hinterpAt l hl, ?_⟩⟩
  · cases l with
    | direct n => exact ⟨fun _ => nofun, fun _ => nofun⟩
    | channel c =>
      obtain ⟨live, e, -, hc, hc'⟩ := hchannel c hl
      constructor
      · rintro hs _ ⟨⟩
        rw [hc, ← hc']
        exact hs c rfl
      · rintro hs _ ⟨⟩
        rw [hc', ← hc]
        exact hs c rfl
  · have hslots : h'.slotsAt l key = h.slotsAt l key := by
      simp only [slotsAt, hinterpAt l hl, hl, Option.bind_some, hleaves.interp k hk]
    simp only [meaning, hslots]

/-- What all steps of the machine keep is kept by every run. -/
theorem machine_afterDeeds {P : Machine → Prop} {deeds : List Deed}
    (hkeep : ∀ S m m', P m → Machine.Steps S m m' → P m') (hd : ∀ d ∈ deeds, d.Told)
    (hP : P h.machine) : P (h.afterDeeds deeds).machine := by
  induction deeds generalizing h with
  | nil => exact hP
  | cons d deeds ih =>
    have hw : h.Works (d.Concerns h) (h.doing d) := works_deed (hd d List.mem_cons_self)
    exact ih (fun d' hd' => hd d' (List.mem_cons_of_mem d hd')) (hkeep _ _ _ hP hw.machine)

/-- The interpreters are apart after every run. -/
theorem apart_afterDeeds {deeds : List Deed} (hd : ∀ d ∈ deeds, d.Told) (ha : h.machine.Apart) :
    (h.afterDeeds deeds).machine.Apart :=
  machine_afterDeeds (fun _ _ _ ha hs => (ha.steps hs).1) hd ha

/-- After every run, with any number of interpreters, instances, managers, sessions and values: no two
interpreters reach an object of one identity; whatever is done next leaves all interpreters as they are
but those that it is about, with all that they reach and all that the references of their sessions
stand for; and when a session sets a member of a namespace, all sessions that have this namespace are
on the same interpreter, and each finds under the name the object that was set. -/
theorem interps_isolated (deeds : List Deed) (hd : ∀ d ∈ deeds, d.Told) :
    let h := Host.afterDeeds {} deeds
    (∀ k k' x x', h.machine.Reaches k x → h.machine.Reaches k' x' → k ≠ k' →
      InstancePool.identity x ≠ InstancePool.identity x') ∧
    (∀ d : Deed, d.Told → ∀ k, ¬ d.Concerns h k → Undisturbed k h (h.doing d)) ∧
    (∀ s session k target name value response h', h.sessions.get? s = some session →
      h.interpAt session.link = some k → Text.Sized name →
      runOn h (Host.perform s (.setAttr target name value)) = (.ok response, h') →
      ∃ n m, h.meaning session.link session.key target = some n ∧
        h.meaning session.link session.key value = some m ∧
        ∀ l key r, h.Served l key → h.meaning l key r = some n →
          h.interpAt l = some k ∧
          ∃ slots h'', h.slotsAt l key = some slots ∧
            runOn h' (l.perform key (.attr r name)) =
              (.ok (.ref ⟨key, UInt32.ofNat slots.length⟩), h'') ∧
            h''.slotsAt l key = some (slots ++ [m])) := by
  intro h
  have ha : h.machine.Apart := apart_afterDeeds hd Machine.apart_empty
  refine ⟨?_, ?_, ?_⟩
  · intro k k' x x' hx hx' hne he
    have hxx : x = x' := Nat.succ.inj he
    exact hne (ha.apart k k' x hx (hxx ▸ hx'))
  · intro d hd k hk
    exact (works_deed hd).undisturbed ha hk
  · intro s session k target name value response h' hs hk hname hset
    rw [runOn_perform hs] at hset
    exact setAttr_seen ha hk hname hset

end Host

/-- A run with two interpreters. Two sessions of the first, one of them over a channel, have its version
namespace, which is a member of itself; a session of the second has the one of the second. -/
def Deed.twins : List Deed :=
  [.addInterp, .addInterp, .exportInterp 0, .openBare (.direct 0), .openBare (.channel 0),
    .openBare (.direct 1), .act (.perform 0 (.global "runtime" "version")),
    .act (.perform 1 (.global "runtime" "version")), .act (.perform 2 (.global "runtime" "version")),
    .act (.perform 0 (.setAttr ⟨⟨1⟩, 0⟩ "self" ⟨⟨1⟩, 0⟩)), .act (.perform 0 (.ofValue (.int 7)))]

/-- What the first session of the twins sets is found over the channel, and the other interpreter is left
alone. -/
theorem Host.interps_isolated_twins :
    let h := Host.afterDeeds {} Deed.twins
    let d : Deed := .act (.perform 0 (.setAttr ⟨⟨1⟩, 0⟩ "x" ⟨⟨1⟩, 1⟩))
    (∀ d ∈ Deed.twins, d.Told) ∧ h.machine.Reaches 0 0 ∧ h.machine.Reaches 1 9 ∧
      h.machine.heap.get 0 = .space (Table.empty.insert "self" 0) ∧
      (∀ x x', h.machine.Reaches 0 x → h.machine.Reaches 1 x' →
        InstancePool.identity x ≠ InstancePool.identity x') ∧
      Undisturbed 1 h (h.doing d) ∧
      ∃ slots h'', h.slotsAt (.channel 0) ⟨2⟩ = some slots ∧
        runOn (h.doing d) ((Link.channel 0).perform ⟨2⟩ (.attr ⟨⟨2⟩, 0⟩ "x")) =
          (.ok (.ref ⟨⟨2⟩, UInt32.ofNat slots.length⟩), h'') ∧
        h''.slotsAt (.channel 0) ⟨2⟩ = some (slots ++ [18]) := by
  intro h d
  have hp : ∀ d ∈ Deed.twins, d.Told := by decide
  have hs : h.sessions.get? 0 = some { link := .direct 0, key := ⟨1⟩, origin := .bare } := by
    decide +kernel
  have hset : (runOn h (Host.perform 0 (.setAttr ⟨⟨1⟩, 0⟩ "x" ⟨⟨1⟩, 1⟩))).1.toOption =
      some .unit := by decide +kernel
  have hfirst : h.meaning (.direct 0) ⟨1⟩ ⟨⟨1⟩, 0⟩ = some 0 := by decide +kernel
  have hvalue : h.meaning (.direct 0) ⟨1⟩ ⟨⟨1⟩, 1⟩ = some 18 := by decide +kernel
  have hsecond : h.meaning (.channel 0) ⟨2⟩ ⟨⟨2⟩, 0⟩ = some 0 := by decide +kernel
  have hthird : h.meaning (.direct 1) ⟨3⟩ ⟨⟨3⟩, 0⟩ = some 9 := by decide +kernel
  have hcycle : h.machine.heap.get 0 = .space (Table.empty.insert "self" 0) := by decide +kernel
  have hserved : h.Served (.channel 0) ⟨2⟩ := by
    rintro c ⟨⟩
    exact ⟨{ interp := 0, served := [⟨2⟩] }, rfl, List.mem_cons_self⟩
  obtain ⟨hapart, hframe, hseen⟩ := Host.interps_isolated Deed.twins hp
  refine ⟨hp, reaches_of_meaning rfl hfirst, reaches_of_meaning rfl hthird, hcycle,
    fun x x' hx hx' => hapart 0 1 x x' hx hx' (by decide), hframe d trivial 1 ?_, ?_⟩
  · rintro ⟨session, hs', hl⟩
    obtain rfl := Option.some.inj (hs.symm.trans hs')
    cases hl
  · obtain ⟨n, m, hn, hm, hall⟩ := hseen 0 _ 0 _ "x" _ .unit _ hs rfl (by decide +kernel)
      (runOn_of_toOption hset)
    obtain rfl := Option.some.inj (hfirst.symm.trans hn)
    obtain rfl := Option.some.inj (hvalue.symm.trans hm)
    exact (hall (.channel 0) ⟨2⟩ ⟨⟨2⟩, 0⟩ hserved hsecond).2

end InstancePool
