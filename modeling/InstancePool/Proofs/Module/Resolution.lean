import InstancePool.Proofs.Manager.NewInstances
import InstancePool.Proofs.Replica.MaterializedOnce

/-!
How the instances of a manager find modules. An instance asks the registry of its manager for a module until
there is a text that can be read. From then on it has the module, whatever is registered, and all its sessions
get the same objects of it.
-/

namespace InstancePool

open HostM ModuleText

namespace Host

variable {h h' : Host} {s : SessionId} {session : Session} {n : InstanceId} {k r : Nat} {i : Interp}
  {slots : List ObjectIndex} {name x : String} {f : Failure} {b o : ObjectIndex}
  {members : Table String ObjectIndex} {actions rest : List Action} {m : ManagerId}
  {texts : List (String × String)}

/-- A session asks for a member of a module and is handed an object. -/
def Gets (h : Host) (s : SessionId) (name x : String) (o : ObjectIndex) : Prop :=
  ∃ ref h', runOn h (Host.perform s (.global name x)) = (.ok (.ref ref), h') ∧ h'.LastHanded s ref o

/-- A session asks for a member of a module in vain. It is told why, if that can be written. -/
def Denies (h : Host) (s : SessionId) (name x : String) (f : Failure) : Prop :=
  ∃ e, (runOn h (Host.perform s (.global name x))).1 = .error e ∧
    (Text.Sized f.fault.message → e = .runtime f.fault)

/-- A session that asks for a member of a module gets the one that there is among these. -/
def Finds (h : Host) (s : SessionId) (name x : String) (members : Table String ObjectIndex) : Prop :=
  (∀ o, members.get? x = some o → h.Gets s name x o) ∧
    (members.get? x = none → h.Denies s name x (.noMember x))

/-- To every session on an instance a module is one with these members. -/
def Answers (h : Host) (n : InstanceId) (name : String) (members : Table String ObjectIndex) : Prop :=
  ∀ s x, h.LivesIn s n → Text.Sized x → h.Finds s name x members

/-- What the interpreter refuses is refused to the session. -/
theorem Seated.denies (hseat : h.Seated s session k i slots) (hs : (Op.global name x).Sized)
    (hengine : (Engine.perform h.texts session.key (.global name x) ⟨h.machine.heap, i⟩).1 = .error f) :
    h.Denies s name x f := by
  have hn : (Op.global name x).nesting ≤ Value.maxDepth := Nat.zero_le _
  -- Both ends of the link are alive, so the fault of the interpreter is what comes back.
  have hp : (h.machine.perform h.texts k session.key (.global name x)).1 = .error (.runtime f.fault) := by
    rw [Machine.perform_eq hseat.interp, hengine]
    rfl
  obtain ⟨heard, hrun, hrelay⟩ := hseat.perform hn hs
  obtain ⟨e, rfl⟩ := hrelay.error _ hp
  refine ⟨e, by rw [hrun], fun hf => ?_⟩
  have hfault := Link.perform_fault hseat.served hseat.leads hn hs hp hf
  rw [← runOn_perform hseat.known, hrun] at hfault
  exact Except.error.inj hfault

theorem Seated.finds (hseat : h.Seated s session k i slots) (hs : (Op.global name x).Sized)
    (hb : (Engine.findModule h.texts name ⟨h.machine.heap, i⟩).1 = .ok b)
    (hspace : (Engine.findModule h.texts name ⟨h.machine.heap, i⟩).2.heap.get b = .space members) :
    h.Finds s name x members := by
  obtain ⟨hfetched, hlacking⟩ := Engine.perform_global_ok (x := x) hseat.holds hb hspace
  refine ⟨fun o ho => ?_, fun hnone => hseat.denies hs (by rw [hlacking hnone])⟩
  obtain ⟨h', hrun, hseat', -⟩ := hseat.perform_ref (Nat.zero_le _) hs (hfetched o ho) (Engine.slots_handOut ..)
  exact ⟨_, h', hrun, hseat'.lastHanded⟩

/-- A module that an interpreter has is found as it is. -/
theorem Seated.finds_shelved (hseat : h.Seated s session k i slots) (hs : (Op.global name x).Sized)
    (hshelves : h.machine.Shelves k name members) :
    h.Finds s name x members := by
  obtain ⟨j, b, hj, hb, -, hspace⟩ := hshelves
  obtain rfl := Option.some.inj (hseat.interp.symm.trans hj)
  have hfound : Engine.findModule h.texts name ⟨h.machine.heap, i⟩ = (.ok b, ⟨h.machine.heap, i⟩) :=
    Engine.findModule_cached hb
  refine hseat.finds hs (by rw [hfound]) ?_
  rw [hfound, Heap.get, hspace, Option.getD_some]

/-- A session of an instance is on its interpreter, and the channel to it is open. -/
theorem Orderly.livesIn (ho : h.Orderly) (hs : h.homeOf? s = some n) : h.LivesIn s n := by
  obtain ⟨session, hopen, hhome⟩ := Option.bind_eq_some_iff.1 hs
  have hlink := linkOf_of_session ho.toPlaced hopen hhome
  obtain ⟨k, i, hserves, hseat, -⟩ := ho.toWired.interp hlink
  refine ⟨k, hseat, session, hopen, hserves.interpAt, ?_⟩
  rintro ⟨c, e, hc, hcut⟩
  obtain ⟨e', hlive⟩ := hserves.live c hc
  cases hcut.symm.trans hlive

theorem guards_after (hd : h.AllProper (actions.map .act)) : h.machine.Guards (h.after actions).machine := by
  rw [← afterDeeds_acts]
  exact machine_afterDeeds (P := h.machine.Guards) (fun _ _ _ hg hs => hg.trans hs.guards) hd.told
    (Machine.guards_same rfl rfl)

theorem Bounded.furnished (hl : Bounded actions) : (after {} actions).machine.Furnished := by
  rw [← afterDeeds_acts]
  exact furnished_afterDeeds hl.deeds.told Machine.equipped_empty Machine.furnished_empty

/-- A session on an instance has its slots in the interpreter of the instance. -/
theorem Bounded.seated (hl : Bounded actions) (hc : (after {} actions).Consults n k r)
    (hs : (after {} actions).LivesIn s n) :
    ∃ session i slots, (after {} actions).Seated s session k i slots := by
  obtain ⟨session, k', i, slots, hseat, -⟩ := hl.kept.seated hs.lives
  have hk := hs.seat
  rw [hc.seat, hseat.known, Option.bind_some, hseat.leads] at hk
  obtain rfl := Option.some.inj hk
  exact ⟨session, i, slots, hseat⟩

/-- A module that an interpreter has is the same to all sessions from then on. -/
theorem Bounded.answers (hl : Bounded (actions ++ rest)) (heq : after {} actions = h) (hname : Text.Sized name)
    (hshelves : h.machine.Shelves k name members) (hc : (h.after rest).Consults n k r) :
    (h.after rest).Answers n name members := by
  subst heq
  intro s x hs hx
  have hguards := guards_after hl.later
  rw [← after_append] at hc hs hguards ⊢
  obtain ⟨session, i, slots, hseat⟩ := hl.seated hc hs
  exact hseat.finds_shelved ⟨hname, hx⟩ (hshelves.guarded hguards)

/-- What comes of asking for a module that an instance does not have: there is no text for it, or the text
cannot be read, or the instance has the module from then on. -/
theorem Bounded.consulted (hl : Bounded actions) (heq : after {} actions = h) (hc : h.Consults n k r)
    (hp : h.Publishes m r texts) (hlacks : h.Lacks k name) (hs : h.LivesIn s n)
    (hsized : (Op.global name x).Sized) :
    let h' := h.step (.perform s (.global name x))
    (Registry.latest texts name = none → h.Denies s name x (.noModule name)) ∧
      ∀ text, Registry.latest texts name = some text →
        (¬ Parses text → ∃ before line after problem, Text.lines text.toList = before ++ line :: after ∧
          (∀ l ∈ before, ∀ p, ¬ Wrong l p) ∧ Wrong line problem ∧
          h.Denies s name x (.badModule name (before.length + 1) problem)) ∧
        (Parses text → ∃ members, h.machine.heap.Reads h'.machine.heap text members ∧
          h.Finds s name x members ∧ h'.machine.Shelves k name members) := by
  intro h'
  subst heq
  let h := after {} actions
  obtain ⟨session, i, slots, hseat⟩ := hl.seated hc hs
  obtain ⟨j, hj, hnew⟩ := hlacks
  obtain rfl := Option.some.inj (hseat.interp.symm.trans hj)
  have htexts := hc.texts_eq hp hseat.interp name
  refine ⟨fun hnone => ?_, fun text htext => ⟨fun hwrong => ?_, fun hparses => ?_⟩⟩
  · have hfound := Engine.findModule_unknown (e := ⟨h.machine.heap, i⟩) hnew (htexts.trans hnone)
    have hf : (Engine.findModule h.texts name ⟨h.machine.heap, i⟩).1 = .error (.noModule name) := by
      rw [hfound]
    exact hseat.denies hsized (by rw [Engine.perform_global_error hseat.holds hf])
  · rcases Engine.findModule_of_text (e := ⟨h.machine.heap, i⟩) hnew (htexts.trans htext) with
      ⟨-, -, hparses, -⟩ | ⟨before, line, after, problem, he, hbefore, hline, hf⟩
    · exact absurd hparses hwrong
    · refine ⟨before, line, after, problem, he, hbefore, hline, ?_⟩
      exact hseat.denies hsized (by rw [Engine.perform_global_error hseat.holds hf])
  -- The session itself finds the module that it makes the interpreter read.
  · obtain ⟨b, members, hb, hspace, hshelves, hreads⟩ :=
      Machine.shelves_perform hl.equipped hseat.interp hseat.holds hnew (htexts.trans htext) hparses x
    have hmachine : h'.machine = (h.machine.perform h.texts k session.key (.global name x)).2 := by
      obtain ⟨heard, hrun, -⟩ := hseat.perform (Nat.zero_le _) hsized
      have hstep : h' = (runOn h (Host.perform s (.global name x))).2 := runOn_lost h _
      rw [hstep, hrun]
    exact ⟨members, hmachine ▸ hreads, hseat.finds hsized hb hspace, hmachine ▸ hshelves⟩

/-- In every run of a host, from the start of a manager on, through any usual actions: texts are registered, and
sessions on any of its instances ask for modules. The texts that the manager was started with count as registered
first, after its own. An instance asks for the text of a module that was registered last until that can be read;
as long as there is none the session is told that there is no such module, and as long as it cannot be read, in
which line it is wrong. From the first time on that it can be read, whatever is registered, the module has for all
sessions on the instance the members that it had then, each of which is an object that was made then, of the last
value of its name; any other name is not found. A session that asks for a member is handed this very object, and
its reference stands for it as long as 32 bits are enough for the references of the session. The two modules that
come with an interpreter are never looked for in the registry. -/
theorem modules_read_once (before run : List Action) (spec : ManagerSpec) (m : ManagerId)
    (hl : Bounded (before ++ [.buildManager spec] ++ run)) (hu : ∀ a ∈ run, a.Usual)
    (hm : (runOn (after {} before) (buildManager spec)).1 = .ok m) :
    let h := after {} (before ++ [.buildManager spec])
    let given := (Registry.argumentModule, Registry.argumentSource) :: spec.modules
    ∃ manager, h.managers[m]? = some manager ∧ ∀ n ∈ manager.instances,
      (Permits Proper {} (before ++ [.buildManager spec] ++ run) → ∀ rest, rest <+: run → ∀ s,
        (h.after rest).homeOf? s = some n → (h.after rest).LivesIn s n) ∧
      (∃ members, h.machine.heap.IsRuntime members ∧
        ∀ rest, rest <+: run → (h.after rest).Answers n "runtime" members) ∧
      (∃ members, h.machine.heap.IsBuiltins members ∧
        ∀ rest, rest <+: run → (h.after rest).Answers n "builtins" members) ∧
      ∀ earlier s name x later, run = earlier ++ .perform s (.global name x) :: later →
        name ≠ "runtime" → name ≠ "builtins" → (h.after earlier).LivesIn s n →
        h.NeverRead m given n name earlier →
        let h₁ := h.after earlier
        let h₂ := h₁.step (.perform s (.global name x))
        let texts := given ++ registrations m earlier
        (Registry.latest texts name = none → h₁.Denies s name x (.noModule name)) ∧
          ∀ text, Registry.latest texts name = some text →
            (¬ Parses text → ∃ before line after problem, Text.lines text.toList = before ++ line :: after ∧
              (∀ l ∈ before, ∀ p, ¬ Wrong l p) ∧ Wrong line problem ∧
              h₁.Denies s name x (.badModule name (before.length + 1) problem)) ∧
            (Parses text → ∃ members, h₁.machine.heap.Reads h₂.machine.heap text members ∧
              h₁.Finds s name x members ∧ ∀ rest, rest <+: later → (h₂.after rest).Answers n name members) := by
  intro h given
  have hstep : h = (runOn (after {} before) (buildManager spec)).2 := by
    simp only [h, after_append]
    exact runOn_lost _ _
  have hrun : runOn (after {} before) (buildManager spec) = (.ok m, h) := Prod.ext hm hstep.symm
  obtain ⟨manager, hmanager, -, houtfits⟩ := buildManager_outfits hrun
  have hp := buildManager_publishes (catalogued_empty.after before) hrun
  refine ⟨manager, hmanager, fun n hn => ?_⟩
  obtain ⟨k, hc, hlacks⟩ := (houtfits n hn).consults
  -- What holds of the run holds of its first part.
  have hfirst (rest : List Action) (hrest : rest <+: run) :
      Bounded (before ++ [.buildManager spec] ++ rest) ∧ ∀ a ∈ rest, a.Usual := by
    obtain ⟨later, rfl⟩ := hrest
    rw [← List.append_assoc] at hl
    exact ⟨hl.earlier, fun a ha => hu a (List.mem_append_left _ ha)⟩
  have hfurnishes : h.machine.Furnishes k := by
    obtain ⟨i, hi, -⟩ := hc.interp
    exact hl.earlier.furnished k (List.getElem?_eq_some_iff.1 hi).1
  refine ⟨fun hperm rest hrest s hs => ?_, ?_, ?_,
    fun earlier s name x later he hruntime hbuiltins hs hno => ?_⟩
  · obtain ⟨later, rfl⟩ := hrest
    rw [← List.append_assoc, permits_append] at hperm
    have ho := orderly_after orderly_empty hperm.1
    rw [after_append] at ho
    exact ho.livesIn hs
  · obtain ⟨members, hshelves, hmembers⟩ := hfurnishes.runtime
    refine ⟨members, hmembers, fun rest hrest => ?_⟩
    obtain ⟨hlr, hur⟩ := hfirst rest hrest
    exact hlr.answers rfl (by decide) hshelves (hc.after hur)
  · obtain ⟨members, hshelves, hmembers⟩ := hfurnishes.builtins
    refine ⟨members, hmembers, fun rest hrest => ?_⟩
    obtain ⟨hlr, hur⟩ := hfirst rest hrest
    exact hlr.answers rfl (by decide) hshelves (hc.after hur)
  · intro h₁ h₂ texts
    subst he
    obtain ⟨hle, hue⟩ := hfirst earlier (List.prefix_append _ _)
    have hsized := (hu _ (List.mem_append_right _ List.mem_cons_self)).sized s name x rfl
    have hp₁ := hp.after fun a ha => usual_not_buildManager (hue a ha)
    have hlacks₁ := (hlacks name hruntime hbuiltins).after hc hp hue hno
    obtain ⟨hnone, hsome⟩ := hle.consulted (after_append ..) (hc.after hue) hp₁ hlacks₁ hs hsized
    refine ⟨hnone, fun text htext => ⟨(hsome text htext).1, fun hparses => ?_⟩⟩
    obtain ⟨members, hreads, hfinds, hshelves⟩ := (hsome text htext).2 hparses
    refine ⟨members, hreads, hfinds, fun rest hrest => ?_⟩
    -- From here on the instance has the module.
    let asked := earlier ++ [.perform s (.global name x)]
    have hasked : h.after asked = h₂ := after_append ..
    obtain ⟨hlr, hur⟩ := hfirst (asked ++ rest) (by
      obtain ⟨more, rfl⟩ := hrest
      exact ⟨more, by simp only [asked, List.append_assoc, List.cons_append, List.nil_append]⟩)
    have hc₂ := hc.after hur
    rw [after_append, hasked] at hc₂
    rw [← List.append_assoc] at hlr
    exact hlr.answers (by rw [after_append]; exact hasked) hsized.1 hshelves hc₂

/-- A manager of two instances is started with a text that cannot be read, in place of one that can. A text is
registered, read in the first instance, and replaced; then the second instance reads the new one. The first
instance still has the object that it got. -/
theorem modules_read_once_replaced :
    let h := after {} [.addSource (.stock { rule := (Stock.simulated 0 none).rule }),
      .addLoader (.simulated { throughChannel := true }), .addEnvironment {},
      .buildManager { count := 2, image := { source := 0, loader := 0 }, environment := 0,
                      modules := [("m", "x = 1"), ("m", "x y = 1")] }]
    let run : List Action := [.openPinned 0 0, .openPinned 0 1, .perform 0 (.global "m" "x"),
      .register 0 "m" "x = 2", .perform 0 (.global "m" "x"), .register 0 "m" "x = 3",
      .perform 1 (.global "m" "x")]
    ∃ f o o', (h.after (run.take 2)).Denies 0 "m" "x" f ∧ (h.after (run.take 4)).Gets 0 "m" "x" o ∧
      (h.after (run.take 5)).machine.heap.get o = .value (.int 2) ∧
      (h.after (run.take 6)).Gets 1 "m" "x" o' ∧
      (h.after run).machine.heap.get o' = .value (.int 3) ∧ (h.after run).Gets 0 "m" "x" o := by
  intro h run
  let before : List Action := [.addSource (.stock { rule := (Stock.simulated 0 none).rule }),
    .addLoader (.simulated { throughChannel := true }), .addEnvironment {}]
  let spec : ManagerSpec :=
    { count := 2, image := { source := 0, loader := 0 }, environment := 0,
      modules := [("m", "x = 1"), ("m", "x y = 1")] }
  have hl : Bounded (before ++ [.buildManager spec] ++ run) := by
    refine ⟨?_, by decide +kernel, by decide +kernel⟩
    exact ⟨trivial, trivial, trivial, (by decide : 2 < 2 ^ 64), trivial, trivial, trivial, trivial,
      trivial, trivial, trivial, trivial⟩
  have hglobal (s : SessionId) : (Action.perform s (.global "m" "x")).Usual :=
    ⟨trivial, fun s name x he => by cases he; exact ⟨by decide, by decide⟩⟩
  have hu : ∀ a ∈ run, a.Usual := by
    simp only [run, List.forall_mem_cons, List.not_mem_nil, false_implies, implies_true, and_true]
    exact ⟨.of_not_perform trivial nofun, .of_not_perform trivial nofun, hglobal 0,
      .of_not_perform trivial nofun, hglobal 0, .of_not_perform trivial nofun, hglobal 1⟩
  have hm : (runOn (after {} before) (buildManager spec)).1 = .ok 0 :=
    congrArg Prod.fst (runOn_of_toOption (by decide +kernel))
  have hperm : Permits Proper {} (before ++ [.buildManager spec] ++ run) := by decide +kernel
  obtain ⟨manager, hmanager, hall⟩ := modules_read_once before run spec 0 hl hu hm
  rw [show after {} (before ++ [.buildManager spec]) = h from rfl] at hmanager hall
  have hmembers : (h.managers[0]?.map Manager.instances) = some [0, 1] := by decide +kernel
  obtain ⟨manager', hmanager', hinstances⟩ := Option.map_eq_some_iff.1 hmembers
  obtain rfl := Option.some.inj (hmanager.symm.trans hmanager')
  obtain ⟨hhome, -, -, hfirst⟩ := hall 0 (hinstances ▸ List.mem_cons_self)
  obtain ⟨hhome', -, -, hsecond⟩ := hall 1 (hinstances ▸ List.mem_cons_of_mem 0 List.mem_cons_self)
  let given := (Registry.argumentModule, Registry.argumentSource) :: spec.modules
  -- The text that the manager was started with last cannot be read.
  have hwrong : ¬ Parses "x y = 1" := by decide +kernel
  have hs₁ : (h.after (run.take 2)).LivesIn 0 0 :=
    hhome hperm (run.take 2) (List.take_prefix ..) 0 (by decide +kernel)
  have hno₁ : h.NeverRead 0 given 0 "m" (run.take 2) :=
    .cons_of_not_perform nofun (.cons_of_not_perform nofun neverRead_nil)
  obtain ⟨-, hfails⟩ := hfirst (run.take 2) 0 "m" "x" (run.drop 3) rfl (by decide) (by decide) hs₁ hno₁
  obtain ⟨start, -, -, problem, -, -, -, hdenies⟩ := (hfails "x y = 1" (by decide +kernel)).1 hwrong
  -- The one that is registered after that can be read.
  have hs₂ : (h.after (run.take 4)).LivesIn 0 0 :=
    hhome hperm (run.take 4) (List.take_prefix ..) 0 (by decide +kernel)
  have hno₂ : h.NeverRead 0 given 0 "m" (run.take 4) := by
    refine .cons_of_not_perform nofun (.cons_of_not_perform nofun (neverRead_cons.2 ⟨fun s x _ _ text htext => ?_,
      .cons_of_not_perform nofun neverRead_nil⟩))
    have hlast : Registry.latest (given ++ registrations 0 [.openPinned 0 0] ++
        registrations 0 [.openPinned 0 1]) "m" = some "x y = 1" := by decide +kernel
    rw [hlast] at htext
    obtain rfl := Option.some.inj htext
    exact hwrong
  obtain ⟨-, hok⟩ := hfirst (run.take 4) 0 "m" "x" (run.drop 5) rfl (by decide) (by decide) hs₂ hno₂
  obtain ⟨members, hreads, hfinds, hanswers⟩ := (hok "x = 2" (by decide +kernel)).2 (by decide +kernel)
  obtain ⟨o, ho, hvalue⟩ := hreads.bound "x" (.int 2) ⟨[], "x = 2".toList, [], by decide +kernel,
    binds_of_read (by decide +kernel) (Except.ok_of_toOption (by decide +kernel)), nofun⟩
  have hsplit (earlier later : List Action) (a : Action) :
      h.after (earlier ++ a :: later) = ((h.after earlier).step a).after later := after_append ..
  have hrest : (h.after (run.take 4 ++ .perform 0 (.global "m" "x") :: run.drop 5)).Answers 0 "m" members := by
    rw [hsplit]
    exact hanswers _ (List.prefix_refl _)
  have hs₃ : (h.after run).LivesIn 0 0 := hhome hperm run (List.prefix_refl _) 0 (by decide +kernel)
  -- The other instance reads the text that is registered last.
  have hs₄ : (h.after (run.take 6)).LivesIn 1 1 :=
    hhome' hperm (run.take 6) (List.take_prefix ..) 1 (by decide +kernel)
  have hno₄ : h.NeverRead 0 given 1 "m" (run.take 6) := by
    refine .cons_of_not_perform nofun (.cons_of_not_perform nofun (neverRead_cons.2 ⟨fun s x he hs => ?_,
      .cons_of_not_perform nofun (neverRead_cons.2 ⟨fun s x he hs => ?_, .cons_of_not_perform nofun neverRead_nil⟩)⟩))
    · cases he
      exact absurd hs.seat (by decide +kernel)
    · cases he
      exact absurd hs.seat (by decide +kernel)
  obtain ⟨-, hread⟩ := hsecond (run.take 6) 1 "m" "x" [] rfl (by decide) (by decide) hs₄ hno₄
  obtain ⟨members₂, hreads₂, hfinds₂, -⟩ := (hread "x = 3" (by decide +kernel)).2 (by decide +kernel)
  obtain ⟨o₂, ho₂, hvalue₂⟩ := hreads₂.bound "x" (.int 3) ⟨[], "x = 3".toList, [], by decide +kernel,
    binds_of_read (by decide +kernel) (Except.ok_of_toOption (by decide +kernel)), nofun⟩
  refine ⟨_, o, o₂, hdenies, hfinds.1 o ho, ?_, hfinds₂.1 o₂ ho₂, ?_, (hrest 0 "x" hs₃ (by decide)).1 o ho⟩
  · have hfive : h.after (run.take 5) = (h.after (run.take 4)).step (.perform 0 (.global "m" "x")) :=
      hsplit (run.take 4) [] _
    rw [hfive]
    exact hvalue
  · have hseven : h.after run = (h.after (run.take 6)).step (.perform 1 (.global "m" "x")) :=
      hsplit (run.take 6) [] _
    rw [hseven]
    exact hvalue₂

end Host

end InstancePool
