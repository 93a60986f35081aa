import InstancePool.Proofs.Replica.Materialization

/-!
An instance reads a value once. Whichever sessions ask for it, and in whichever way, they are handed the one
object until it is unloaded; what is read after that is another object, and the old one stays what it was to
those who have it.
-/

namespace InstancePool

open HostM

/-- A value was not unloaded from an instance. -/
def NotUnloaded (log : List Event) (k : ReplicaId) (n : InstanceId) : Prop :=
  .unloaded k (some n) ∉ log ∧ .unloaded k none ∉ log

instance (log : List Event) (k : ReplicaId) (n : InstanceId) : Decidable (NotUnloaded log k n) :=
  inferInstanceAs (Decidable (_ ∧ _))

theorem notUnloaded_append {log log' : List Event} {k : ReplicaId} {n : InstanceId} :
    NotUnloaded (log ++ log') k n ↔ NotUnloaded log k n ∧ NotUnloaded log' k n := by
  simp only [NotUnloaded, List.mem_append, not_or]
  exact and_and_and_comm

theorem LoadedSince.append {log log' : List Event} {k : ReplicaId} {n : InstanceId}
    (hl : LoadedSince log k n) (hn : NotUnloaded log' k n) : LoadedSince (log ++ log') k n := by
  obtain ⟨before, after, rfl, hone, hall⟩ := hl
  exact ⟨before, after ++ log', by rw [List.append_assoc, List.cons_append],
    List.not_mem_append hone hn.1, List.not_mem_append hall hn.2⟩

namespace Host

variable {h h' : Host} {log : List Event} {k : ReplicaId} {r : Replica} {n : InstanceId} {o : ObjectIndex}
  {s : SessionId} {ref : Ref}

theorem objectAt_eq {id : ObjectId} :
    h.objectAt n id = some o ↔ ∃ t, h.store n = some t ∧ t.get? id = some o :=
  Option.bind_eq_some_iff

/-- No object takes the place of another one: what an instance holds after a change it held before, or it
held nothing for the identifier. -/
theorem Change.objectAt {events : List Event} (hc : h.Change events h') (hn : n < h.instances.length)
    {id : ObjectId} (ho : h'.objectAt n id = some o) :
    h.objectAt n id = some o ∨ h.objectAt n id = none := by
  -- Only loading puts an object anywhere, and only where there is none.
  have hsame (hs : h'.store n = h.store n) : h.objectAt n id = some o ∨ h.objectAt n id = none := by
    rw [← ho, Host.objectAt, Host.objectAt, hs]
    exact .inl rfl
  have hpurged {id' : ObjectId} {D : InstanceId → Prop} {h₁ : Host} (hp : h.Purges id' D h₁)
      (ho : h₁.objectAt n id = some o) : h.objectAt n id = some o ∨ h.objectAt n id = none := by
    obtain ⟨t', ht', hid⟩ := objectAt_eq.1 ho
    exact .inl (objectAt_eq.2 (hp.entry ht' hid).2)
  cases hc with
  | rested hrests => exact hsame (hrests.store n)
  | grown hs managers hm' hr' hn' hnew => exact hsame (hs.store n hn not_false)
  | ended X hs hm' hreplicas hn' hx =>
    obtain ⟨t', ht', hid⟩ := objectAt_eq.1 ho
    exact .inl (objectAt_eq.2 ⟨t', hs.torn n t' hn ht', hid⟩)
  | created m₀ manager₀ data hcreates => exact hsame (hcreates.store n)
  | counted k₀ r₀ handles hr₀ hpos => exact hsame rfl
  | loaded k₀ r₀ manager₀ home o₀ hr₀ hu hm₀ hmem₀ hl =>
    obtain ⟨t, t', ht, hfetch, hstore⟩ := hl.store
    by_cases he : n = home
    · subst he
      rw [Host.objectAt, hstore, if_pos rfl, Option.bind_some] at ho
      rw [Host.objectAt, ht, Option.bind_some]
      cases hfetch with
      | kept hkept => exact .inl ho
      | made v hnone hv hobj =>
        rcases Table.get?_insert_eq_some.1 ho with ⟨rfl, -⟩ | ⟨-, ho⟩
        · exact .inr hnone
        · exact .inl ho
    · exact hsame ((hstore n).trans (if_neg he))
  | unloaded k₀ r₀ manager₀ home hr₀ hm₀ hmem₀ hp => exact hpurged hp ho
  | retired k₀ r₀ manager₀ hr₀ hm₀ hp => exact hpurged hp ho
  | dropped k₀ r₀ manager₀ D replicas hr₀ hm₀ hp hD hget => exact hpurged hp ho

theorem Change.nextReplica_le {events : List Event} (hc : h.Change events h') :
    h.nextReplica ≤ h'.nextReplica := by
  rcases hc.records with hi | ⟨m, manager, data, hcreates, -⟩
  · exact Nat.le_of_eq hi.nextReplica.symm
  · exact hcreates.nextReplica ▸ Nat.le_succ _

theorem Change.manager_after {events : List Event} (hc : h.Change events h') {m : ManagerId}
    {manager : Manager} (hm : h.managers[m]? = some manager) :
    ∃ manager' : Manager, h'.managers[m]? = some manager' ∧ manager'.instances = manager.instances := by
  rcases hc.records with hi | ⟨m₀, manager₀, data, hcreates, -⟩
  · obtain ⟨manager', hm', hinst, -⟩ := hi.managers m manager hm
    exact ⟨manager', hm', hinst⟩
  · obtain ⟨manager', hm', hinst, -⟩ := hcreates.manager_after hm
    exact ⟨manager', hm', hinst⟩

/-- An instance holds an object for a value that can be materialized just if the value was materialized in
it and not unloaded since. -/
theorem Tracked.objectAt_isSome (ht : h.Tracked log) (ho : h.Orderly) (hr : h.replicas.get? k = some r)
    (hu : r.unloaded = false) {manager : Manager} (hm : h.managers[r.manager]? = some manager)
    (hmem : n ∈ manager.instances) : (∃ o, h.objectAt n r.id = some o) ↔ LoadedSince log k n := by
  obtain ⟨manager', hm', hlinked⟩ := ho.standing k r hr
  obtain rfl := Option.some.inj (hm.symm.trans hm')
  obtain ⟨t, hs⟩ := Option.ne_none_iff_exists'.1 fun hnone =>
    hlinked n hmem (ho.toWired.store_none hnone)
  rw [← ht.current k r manager n t hr hm hmem hu hs, Table.contains, Option.isSome_iff_exists,
    Host.objectAt, hs, Option.bind_some]

/-- The object for a value stays in its place until the value is unloaded. -/
theorem Tracked.objectAt_later (ht : h.Tracked log) (ho : h.Orderly) {actions : List Action}
    (ha : h.Permits Proper actions) (hr : h.replicas.get? k = some r) {manager : Manager}
    (hm : h.managers[r.manager]? = some manager) (hmem : n ∈ manager.instances)
    (hheld : h.objectAt n r.id = some o) (hlog : LoadedSince log k n)
    (hkept : NotUnloaded (h.log actions) k n) {r' : Replica}
    (hr' : (h.after actions).replicas.get? k = some r') (hu' : r'.unloaded = false) :
    (h.after actions).objectAt n r'.id = some o ∧ LoadedSince (log ++ h.log actions) k n := by
  induction actions generalizing h log r manager with
  | nil =>
    obtain rfl := Option.some.inj (hr.symm.trans hr')
    rw [Host.log, List.append_nil]
    exact ⟨hheld, hlog⟩
  | cons a actions ih =>
    have hc := ho.change ha.1
    have ho₁ := ho.step ha.1
    have ht₁ := ht.of_change hc ho
    rw [Host.log, notUnloaded_append] at hkept
    have hlog₁ : LoadedSince (log ++ h.events a) k n := hlog.append hkept.1
    -- The value is there at the end, so it was there all the time.
    have hk : k < h.nextReplica := ho.numbered.number_lt k r hr
    obtain ⟨r₁, hr₁, -, -, -, hback⟩ :=
      replica_before ho₁ (Nat.lt_of_lt_of_le hk hc.nextReplica_le) ha.2 hr'
    have hone : h.Permits Proper [a] := ⟨ha.1, trivial⟩
    obtain ⟨r₀, hr₀, hid, -, hmr, -⟩ := replica_before ho hk hone hr₁
    obtain rfl := Option.some.inj (hr.symm.trans hr₀)
    obtain ⟨manager₁, hm₁, hinst⟩ := hc.manager_after hm
    rw [← hmr] at hm₁
    have hmem₁ : n ∈ manager₁.instances := hinst ▸ hmem
    obtain ⟨o₁, ho₁'⟩ := (ht₁.objectAt_isSome ho₁ hr₁ (hback hu') hm₁ hmem₁).2 hlog₁
    have hheld₁ : (h.step a).objectAt n r₁.id = some o := by
      have hlt := ho.toPlaced.member r.manager _ n (team_of_manager hm) hmem
      rcases hc.objectAt hlt ho₁' with hsome | hnone
      · rw [hid, hheld] at hsome
        rw [ho₁', hsome]
      · rw [hid, hheld] at hnone
        cases hnone
    have hrest := ih ht₁ ho₁ ha.2 hr₁ hm₁ hmem₁ hheld₁ hlog₁ hkept.2 hr'
    rw [List.append_assoc] at hrest
    exact hrest

theorem afterDeeds_acts (h : Host) (actions : List Action) :
    h.afterDeeds (actions.map .act) = h.after actions := by
  rw [afterDeeds, List.foldl_map]
  rfl

/-- What the sessions of a host return in the course of some actions. -/
def handedOut (h : Host) (actions : List Action) : List (SessionId × Ref) :=
  h.returned (actions.map .act)

/-- The sizes of teams, the keys of sessions and the numbers of objects stay below 2^64 over a run. How many
references a session returns is not bounded. -/
structure Bounded (actions : List Action) : Prop where
  deeds : AllProper {} (actions.map .act)
  keys : opened {} (actions.map .act) < 2 ^ 64
  objects : (after {} actions).machine.heap.objects.length < 2 ^ 64

theorem extends_after {actions : List Action} (hd : h.AllProper (actions.map .act)) :
    h.machine.heap.Extends (h.after actions).machine.heap := by
  rw [← afterDeeds_acts]
  exact extends_afterDeeds hd

theorem Bounded.later {actions later : List Action} (hl : Bounded (actions ++ later)) :
    (after {} actions).AllProper (later.map .act) := by
  have hd := hl.deeds
  rw [List.map_append, allProper_append, afterDeeds_acts] at hd
  exact hd.2

theorem Bounded.earlier {actions later : List Action} (hl : Bounded (actions ++ later)) : Bounded actions where
  deeds := by
    have hd := hl.deeds
    rw [List.map_append] at hd
    exact (allProper_append.1 hd).1
  keys := by
    have hk := hl.keys
    rw [List.map_append, opened_append] at hk
    exact Nat.lt_of_le_of_lt (Nat.le_add_right _ _) hk
  objects := by
    have ho := hl.objects
    rw [after_append] at ho
    exact Nat.lt_of_le_of_lt (extends_after hl.later).length_le ho

theorem Bounded.kept {actions : List Action} (hl : Bounded actions) :
    (after {} actions).Kept (handedOut {} actions) := by
  have hzero : Machine.given {} + opened {} (actions.map .act) < 2 ^ 64 :=
    Nat.lt_of_le_of_lt (Nat.le_of_eq (Nat.zero_add _)) hl.keys
  rw [← afterDeeds_acts]
  exact kept_empty.afterDeeds hl.deeds hzero

theorem Bounded.equipped {actions : List Action} (hl : Bounded actions) :
    (after {} actions).machine.Equipped := by
  rw [← afterDeeds_acts]
  exact equipped_afterDeeds hl.deeds.told Machine.equipped_empty

theorem Bounded.apart {actions : List Action} (hl : Bounded actions) :
    (after {} actions).machine.Apart := by
  rw [← afterDeeds_acts]
  exact apart_afterDeeds hl.deeds.told Machine.apart_empty

variable {session : Session} {j : Nat} {i : Interp} {slots : List ObjectIndex}

theorem tracked_run {actions : List Action} (hp : Permits Proper {} actions) :
    (after {} actions).Orderly ∧ (after {} actions).Tracked (Host.log {} actions) := by
  have hlog := tracked_after tracked_empty orderly_empty hp
  rw [List.nil_append] at hlog
  exact ⟨orderly_after orderly_empty hp, hlog⟩

/-- What comes of a materialization in a run: the object is the one that the instance holds, if the value
was materialized there and not unloaded since, and otherwise it is read and has a new number. -/
theorem Materializes.recalled_or_read {earlier : List Action} {a : Action}
    (hm : (after {} earlier).Materializes k n a s ref) (hp : Permits Proper {} (earlier ++ [a]))
    (hl : Bounded (earlier ++ [a])) :
    ∃ r o c, (after {} earlier).Yield k n s ref r o (after {} (earlier ++ [a])) ∧
      (after {} earlier).restoresAt n = some c ∧ (after {} (earlier ++ [a])).LastHanded s ref o ∧
      ((refsOf (handedOut {} (earlier ++ [a])) s).length + 1 < 2 ^ 32 →
        (after {} (earlier ++ [a])).Identifies s ref o) ∧
      (after {} (earlier ++ [a])).Made o ∧
      (LoadedSince (Host.log {} earlier) k n → (after {} earlier).objectAt n r.id = some o ∧
        (after {} (earlier ++ [a])).restoresAt n = some c) ∧
      (¬ LoadedSince (Host.log {} earlier) k n →
        (after {} (earlier ++ [a])).restoresAt n = some (c + 1) ∧
          ∀ before, before <+: earlier → ¬ (after {} before).Made o) := by
  obtain ⟨hearlier, ha⟩ := permits_append.1 hp
  obtain ⟨ho, ht⟩ := tracked_run hearlier
  have hstep : after {} (earlier ++ [a]) = (after {} earlier).step a := after_append ..
  obtain ⟨-, r, o, hyield⟩ := hm.yield ho ha.1
  rw [← hstep] at hyield
  obtain ⟨c, hc, hcases⟩ := hyield.recalled.counted
  obtain ⟨manager, hmanager, hmem⟩ := hyield.member
  have hheld := ht.objectAt_isSome ho hyield.record hyield.loadable hmanager hmem
  obtain ⟨session, j, i, slots, hseat, rfl⟩ := hyield.seated
  have hreaches : (after {} (earlier ++ [a])).machine.Reaches j o :=
    ⟨i, hseat.interp, .root (.slot hseat.holds (List.mem_append_right _ List.mem_cons_self))⟩
  refine ⟨r, o, c, hyield, hc, hseat.lastHanded, fun hroom => ?_, hl.apart.there j o hreaches,
    fun hlog => ?_, fun hlog => ?_⟩
  · rw [hl.kept.refsOf_eq hseat, SessionKey.length_refs] at hroom
    refine hseat.identity hroom (hl.equipped.equips j i hseat.interp) (hseat.denoted_last ?_)
    rw [List.length_append] at hroom
    omega
  · rcases hcases with hkept | ⟨hnone, -⟩
    · exact hkept
    · obtain ⟨o', ho'⟩ := hheld.2 hlog
      rw [hnone] at ho'
      cases ho'
  · rcases hcases with ⟨hsome, -⟩ | ⟨-, hnew, hmore⟩
    · exact absurd (hheld.1 ⟨o, hsome⟩) hlog
    · refine ⟨hmore, ?_⟩
      -- An object that there was at any time before would be there now.
      rintro before ⟨rest, rfl⟩ hmade
      have hextends := extends_after hl.earlier.later
      rw [← after_append] at hextends
      exact hnew (Nat.lt_of_lt_of_le hmade hextends.length_le)

theorem log_append (h : Host) (actions later : List Action) :
    h.log (actions ++ later) = h.log actions ++ (h.after actions).log later := by
  induction actions generalizing h with
  | nil => rfl
  | cons a actions ih =>
    rw [List.cons_append, Host.log, Host.log, ih, List.append_assoc]
    rfl

/-- Whatever was materialized is found again, as long as it is not unloaded. -/
theorem Yield.objectAt_later {before between : List Action} {b : Action} {r' : Replica}
    (hy : (after {} before).Yield k n s ref r o (after {} (before ++ [b])))
    (hevents : (after {} before).events b = [.loaded k n])
    (hp : Permits Proper {} ((before ++ [b]) ++ between))
    (hkept : NotUnloaded ((after {} (before ++ [b])).log between) k n)
    (hr' : (after {} ((before ++ [b]) ++ between)).replicas.get? k = some r')
    (hu' : r'.unloaded = false) :
    (after {} ((before ++ [b]) ++ between)).objectAt n r'.id = some o ∧
      LoadedSince (Host.log {} ((before ++ [b]) ++ between)) k n := by
  obtain ⟨hfirst, hbetween⟩ := permits_append.1 hp
  obtain ⟨hbefore, hb⟩ := permits_append.1 hfirst
  obtain ⟨ho, -⟩ := tracked_run hbefore
  obtain ⟨ho₁, ht₁⟩ := tracked_run hfirst
  have hc : (after {} before).Change [.loaded k n] (after {} (before ++ [b])) := by
    rw [after_append, ← hevents]
    exact ho.change hb.1
  have hlog : Host.log {} (before ++ [b]) = Host.log {} before ++ [.loaded k n] := by
    rw [log_append, Host.log, hevents, Host.log, List.append_nil]
  have hk : k < (after {} before).nextReplica := ho.numbered.number_lt k r hy.record
  rw [after_append] at hr'
  -- The value kept its identity from the one time to the other.
  obtain ⟨r₁, hr₁, -⟩ := replica_before ho₁ (Nat.lt_of_lt_of_le hk hc.nextReplica_le) hbetween hr'
  have hr₁' := hr₁
  rw [after_append] at hr₁'
  obtain ⟨r₀, hr₀, hid, -, hmr, -⟩ := replica_before ho hk hb hr₁'
  obtain rfl := Option.some.inj (hy.record.symm.trans hr₀)
  obtain ⟨manager, hm, hmem⟩ := hy.member
  obtain ⟨manager₁, hm₁, hinst⟩ := hc.manager_after hm
  rw [after_append, log_append]
  refine ht₁.objectAt_later ho₁ hbetween hr₁ (hmr ▸ hm₁) (hinst ▸ hmem) ?_ ?_ hkept hr' hu'
  · rw [hid]
    exact hy.recalled.held
  · rw [hlog]
    exact loadedSince_append_loaded.2 (.inr ⟨rfl, rfl⟩)

/-- No object that there was in the course of some actions has the identity of this one. -/
def Unseen (actions : List Action) (o : ObjectIndex) : Prop :=
  ∀ earlier, earlier <+: actions → ∀ x, (after {} earlier).Made x →
    Int64.ofNat (InstancePool.identity x) ≠ Int64.ofNat (InstancePool.identity o)

theorem Bounded.made_lt {actions later : List Action} (hl : Bounded (actions ++ later)) {x : ObjectIndex}
    (hx : (after {} actions).Made x) : x + 1 < 2 ^ 64 :=
  Nat.lt_of_le_of_lt hx hl.earlier.objects

/-- What a reference stands for, it stands for as long as the session that has it is alive. -/
theorem Bounded.denoted_later {actions later : List Action} (hl : Bounded (actions ++ later))
    (ho : (after {} actions).denoted s ref = some o) (hlives : (after {} (actions ++ later)).Lives s) :
    (after {} (actions ++ later)).denoted s ref = some o ∧
      (runOn (after {} (actions ++ later)) (performValue s (.toValue ref))).1 =
        (runOn (after {} actions) (performValue s (.toValue ref))).1 ∧
      ((refsOf (handedOut {} (actions ++ later)) s).length + 1 < 2 ^ 32 →
        (after {} (actions ++ later)).Identifies s ref o) := by
  have hkeys := hl.keys
  rw [List.map_append, opened_append, afterDeeds_acts] at hkeys
  have hzero : Machine.given {} = 0 := rfl
  have hgiven : (after {} actions).machine.given =
      Machine.given {} + opened {} (actions.map .act) := by
    have hbefore : Machine.given {} + opened {} (actions.map .act) < 2 ^ 64 := by omega
    rw [← afterDeeds_acts]
    exact given_afterDeeds hbefore
  rw [handedOut, List.map_append, returned_append, afterDeeds_acts]
  rw [after_append, ← afterDeeds_acts _ later] at hlives ⊢
  obtain ⟨hlast, hvalue, -, hidentity⟩ := hl.earlier.kept.denoted_later hl.earlier.apart
    hl.earlier.equipped hl.later (by omega) hlives ho
  exact ⟨hlast, hvalue, fun hroom => (hidentity hroom).2⟩

theorem Bounded.unseen {actions later : List Action} (hl : Bounded (actions ++ later))
    (hlast : o + 1 < 2 ^ 64) (hnew : ∀ earlier, earlier <+: actions → ¬ (after {} earlier).Made o) :
    Unseen actions o := by
  rintro earlier ⟨rest, rfl⟩ x hx hsame
  rw [List.append_assoc] at hl
  obtain rfl := (identity_inj (hl.made_lt hx) hlast).1 hsame
  exact hnew earlier (List.prefix_append _ _) hx

/-- In every run through sessions, managers and values, a value is materialized in an instance, and again: each
time in any session on it, one that is open or one that is opened for it. Each time the session is handed an
object, and its reference stands for it and tells its identity as long as 32 bits are enough for the references
of the session. If the value was not materialized there before, or unloaded since, an object is read, which is
counted, and its identity is that of no object that there was until then; otherwise nothing is counted. If
the value was not unloaded from the instance between the two, both times the object is the same. And every
reference that comes to stand for the first object, in any session and at any time, does so for as long as its
session is alive, and the session tells the same content of it, and its identity. -/
theorem materialized_once (before between later : List Action) (b a : Action) (k : ReplicaId)
    (n : InstanceId) (s s' : SessionId) (ref ref' : Ref)
    (hp : Permits Proper {} ((before ++ [b]) ++ (between ++ [a] ++ later)))
    (hl : Bounded ((before ++ [b]) ++ (between ++ [a] ++ later)))
    (hb : (after {} before).Materializes k n b s ref)
    (ha : (after {} (before ++ [b] ++ between)).Materializes k n a s' ref') :
    let h := after {} before
    let h₁ := h.step b
    let h₂ := h₁.after between
    let h₃ := h₂.step a
    ∃ o o' c c', h.restoresAt n = some c ∧ h₂.restoresAt n = some c' ∧
      h₁.LastHanded s ref o ∧ h₃.LastHanded s' ref' o' ∧
      ((refsOf (handedOut {} (before ++ [b])) s).length + 1 < 2 ^ 32 → h₁.Identifies s ref o) ∧
      ((refsOf (handedOut {} (before ++ [b] ++ between ++ [a])) s').length + 1 < 2 ^ 32 →
        h₃.Identifies s' ref' o') ∧
      (¬ LoadedSince (Host.log {} before) k n →
        h₁.restoresAt n = some (c + 1) ∧ Unseen before o) ∧
      (LoadedSince (Host.log {} before) k n → h₁.restoresAt n = some c) ∧
      (NotUnloaded (h₁.log between) k n → o' = o ∧ h₃.restoresAt n = some c') ∧
      (¬ LoadedSince (Host.log {} (before ++ [b] ++ between)) k n →
        h₃.restoresAt n = some (c' + 1) ∧ Unseen (before ++ [b] ++ between) o') ∧
      (LoadedSince (Host.log {} (before ++ [b] ++ between)) k n → h₃.restoresAt n = some c') ∧
      ∀ rest more, rest ++ more <+: between ++ [a] ++ later → ∀ t held,
        (h₁.after rest).denoted t held = some o → (h₁.after (rest ++ more)).Lives t →
        (h₁.after (rest ++ more)).denoted t held = some o ∧
          (runOn (h₁.after (rest ++ more)) (performValue t (.toValue held))).1 =
            (runOn (h₁.after rest) (performValue t (.toValue held))).1 ∧
          ((refsOf (handedOut {} (before ++ [b] ++ rest ++ more)) t).length + 1 < 2 ^ 32 →
            (h₁.after (rest ++ more)).Identifies t held o) := by
  intro h h₁ h₂ h₃
  have heq₁ : after {} (before ++ [b]) = h₁ := after_append ..
  have heq₂ : after {} (before ++ [b] ++ between) = h₂ := by rw [after_append, heq₁]
  have heq₃ : after {} (before ++ [b] ++ between ++ [a]) = h₃ := by
    rw [after_append, heq₂]
    rfl
  -- Each first part of the run is a run of the same kind.
  have hsplit : (before ++ [b]) ++ (between ++ [a] ++ later) =
      (before ++ [b] ++ between ++ [a]) ++ later := by simp only [List.append_assoc]
  have hp₃ : Permits Proper {} (before ++ [b] ++ between ++ [a]) := by
    rw [hsplit] at hp
    exact (permits_append.1 hp).1
  have hl₃ : Bounded (before ++ [b] ++ between ++ [a]) := by
    rw [hsplit] at hl
    exact hl.earlier
  have hp₂ := (permits_append.1 hp₃).1
  have hp₁ := (permits_append.1 hp₂).1
  have ho : (after {} before).Orderly := (tracked_run (permits_append.1 hp₁).1).1
  obtain ⟨r, o, c, hyield, hc, hhanded, hidentity, hmade, hold, hnew⟩ :=
    hb.recalled_or_read hp₁ hl.earlier
  obtain ⟨r', o', c', hyield', hc', hhanded', hidentity', hmade', hold', hnew'⟩ :=
    ha.recalled_or_read hp₃ hl₃
  have hevents : (after {} before).events b = [.loaded k n] :=
    (hb.yield ho (permits_append.1 hp₁).2.1).1
  have hlast : o + 1 < 2 ^ 64 := hl.made_lt hmade
  have hlast' : o' + 1 < 2 ^ 64 := Nat.lt_of_le_of_lt hmade' hl₃.objects
  refine ⟨o, o', c, c', hc, heq₂ ▸ hc', heq₁ ▸ hhanded, heq₃ ▸ hhanded', heq₁ ▸ hidentity,
    heq₃ ▸ hidentity', fun hlog => ⟨heq₁ ▸ (hnew hlog).1, hl.earlier.unseen hlast (hnew hlog).2⟩,
    fun hlog => heq₁ ▸ (hold hlog).2, fun hkept => ?_,
    fun hlog => ⟨heq₃ ▸ (hnew' hlog).1, hl₃.unseen hlast' (hnew' hlog).2⟩,
    fun hlog => heq₃ ▸ (hold' hlog).2, ?_⟩
  -- Not unloaded in between, it is still loaded, and so it is not read again.
  · rw [← heq₁] at hkept
    obtain ⟨hsame, hlog⟩ := hyield.objectAt_later hevents hp₂ hkept hyield'.record hyield'.loadable
    obtain ⟨hfound, hcount⟩ := hold' hlog
    exact ⟨Option.some.inj (hfound.symm.trans hsame), heq₃ ▸ hcount⟩
  -- What a reference stands for is settled as long as its session lives.
  · rintro rest more ⟨rest', hrest⟩ t held hheld hlives
    rw [← hrest, ← List.append_assoc, ← List.append_assoc] at hl
    rw [← heq₁, ← after_append] at hheld hlives ⊢
    rw [← List.append_assoc] at hlives ⊢
    rw [← after_append]
    exact hl.earlier.denoted_later hheld hlives

/-- A value is materialized in two sessions on one instance, then unloaded and materialized again. Both
sessions got the one object, which was read once; what is read the second time is another object, and the
first one is still what the first session has. -/
theorem materialized_once_rereading :
    let before : List Action :=
      [.addSource (.stock { rule := (Stock.simulated 0 none).rule }), .addLoader (.simulated {}),
        .addEnvironment {},
        .buildManager { count := 2, image := { source := 0, loader := 0 }, environment := 0 },
        .openBalanced 0 none, .perform 0 (.eval "[1]"), .createReplica 0 ⟨⟨3⟩, 0⟩]
    let h₁ := (after {} before).step (.materialize 0 0)
    let h₂ := h₁.step (.openReplica 0 (some 0) none)
    let h₃ := (h₁.after [.openReplica 0 (some 0) none, .unload 0 (some 0)]).step (.materialize 0 0)
    ∃ o o', h₁.denoted 0 ⟨⟨3⟩, 1⟩ = some o ∧ h₂.denoted 1 ⟨⟨4⟩, 0⟩ = some o ∧
      h₃.denoted 0 ⟨⟨3⟩, 1⟩ = some o ∧ h₃.denoted 0 ⟨⟨3⟩, 2⟩ = some o' ∧
      Int64.ofNat (InstancePool.identity o) ≠ Int64.ofNat (InstancePool.identity o') ∧
      (after {} before).restoresAt 0 = some 0 ∧ h₁.restoresAt 0 = some 1 ∧ h₂.restoresAt 0 = some 1 ∧
      h₃.restoresAt 0 = some 2 := by
  intro before h₁ h₂ h₃
  have hp : Permits Proper {} (before ++ [.materialize 0 0, .openReplica 0 (some 0) none,
      .unload 0 (some 0), .materialize 0 0]) := by decide +kernel
  have hl : Bounded (before ++ [.materialize 0 0, .openReplica 0 (some 0) none,
      .unload 0 (some 0), .materialize 0 0]) := by
    refine ⟨?_, by decide +kernel, by decide +kernel⟩
    exact ⟨trivial, trivial, trivial, (by decide : 2 < 2 ^ 64), trivial, trivial, trivial, trivial,
      trivial, trivial, trivial, trivial⟩
  have hfirst : (after {} before).Materializes 0 0 (.materialize 0 0) 0 ⟨⟨3⟩, 1⟩ := by
    have hok : (runOn (after {} before) (materialize 0 0)).1.toOption = some ⟨⟨3⟩, 1⟩ := by
      decide +kernel
    exact .within 0 _ (by decide +kernel) (congrArg Prod.fst (runOn_of_toOption hok))
  have hsecond : h₁.Materializes 0 0 (.openReplica 0 (some 0) none) 1 ⟨⟨4⟩, 0⟩ := by
    have hok : (runOn h₁ (openReplica 0 (some 0) none)).1.toOption = some 1 := by decide +kernel
    exact .opening (some 0) none 1 _
      { link := .direct 0, key := ⟨4⟩, origin := .pinned 0 0, current := some ⟨⟨4⟩, 0⟩ }
      (congrArg Prod.fst (runOn_of_toOption hok)) (by decide +kernel) rfl rfl
  have hthird : Host.Materializes (after {} (before ++ [.materialize 0 0] ++
      [.openReplica 0 (some 0) none, .unload 0 (some 0)])) 0 0 (.materialize 0 0) 0 ⟨⟨3⟩, 2⟩ := by
    have hok : (runOn (after {} (before ++ [.materialize 0 0] ++
        [.openReplica 0 (some 0) none, .unload 0 (some 0)])) (materialize 0 0)).1.toOption =
          some ⟨⟨3⟩, 2⟩ := by decide +kernel
    exact .within 0 _ (by decide +kernel) (congrArg Prod.fst (runOn_of_toOption hok))
  have hnever : ¬ LoadedSince (Host.log {} before) 0 0 := by
    have hempty : Host.log {} before = [] := by decide +kernel
    rintro ⟨x, y, hxy, -⟩
    rw [hempty] at hxy
    exact List.append_ne_nil_of_right_ne_nil x (List.cons_ne_nil _ _) hxy.symm
  have hgone : ¬ LoadedSince (Host.log {} (before ++ [.materialize 0 0] ++
      [.openReplica 0 (some 0) none, .unload 0 (some 0)])) 0 0 := by
    have hlog : Host.log {} (before ++ [.materialize 0 0] ++
        [.openReplica 0 (some 0) none, .unload 0 (some 0)]) =
          [.loaded 0 0, .loaded 0 0] ++ [.unloaded 0 (some 0)] := by decide +kernel
    rw [hlog, loadedSince_append_unloaded]
    exact fun hlater => hlater.2 ⟨rfl, .inr rfl⟩
  have hlives : h₃.Lives 0 := by
    refine ⟨{ link := .direct 0, key := ⟨3⟩, origin := .balanced 0 0 0 }, 0, by decide +kernel,
      by decide +kernel, ?_⟩
    rintro ⟨c, e, hc, -⟩
    cases hc
  have hzero : (after {} before).restoresAt 0 = some 0 := by decide +kernel
  have hone : h₁.denoted 0 ⟨⟨3⟩, 1⟩ = some 21 := by decide +kernel
  have hmade : (after {} (before ++ [.materialize 0 0])).Made 21 := by
    have hlength : (after {} (before ++ [.materialize 0 0])).machine.heap.objects.length = 22 := by
      decide +kernel
    rw [Made, hlength]
    decide
  obtain ⟨o, o₂, c, c₂, hc, hc₂, ho, ho₂, -, -, hnew, -, hsame, -, -, -⟩ :=
    materialized_once before [] [.unload 0 (some 0), .materialize 0 0] (.materialize 0 0)
      (.openReplica 0 (some 0) none) 0 0 0 1 ⟨⟨3⟩, 1⟩ ⟨⟨4⟩, 0⟩ hp hl hfirst hsecond
  obtain ⟨o₁, o₃, -, c₃, -, hc₃, ho₁, ho₃, -, -, -, -, -, hagain, -, hlater⟩ :=
    materialized_once before [.openReplica 0 (some 0) none, .unload 0 (some 0)] [] (.materialize 0 0)
      (.materialize 0 0) 0 0 0 0 ⟨⟨3⟩, 1⟩ ⟨⟨3⟩, 2⟩ hp hl hfirst hthird
  -- The sessions have returned few references, so each stands for what was handed out.
  have hopen : h₁.sessions.get? 0 = some { link := .direct 0, key := ⟨3⟩, origin := .balanced 0 0 0 } := by
    decide +kernel
  have hopen₂ : h₂.sessions.get? 1 =
      some { link := .direct 0, key := ⟨4⟩, origin := .pinned 0 0, current := some ⟨⟨4⟩, 0⟩ } := by
    decide +kernel
  have hopen₃ : h₃.sessions.get? 0 = some { link := .direct 0, key := ⟨3⟩, origin := .balanced 0 0 0 } := by
    decide +kernel
  have hslots : h₁.slotsAt (.direct 0) ⟨3⟩ = some [20, 21] := by decide +kernel
  have hslots₂ : h₂.slotsAt (.direct 0) ⟨4⟩ = some [21] := by decide +kernel
  have hslots₃ : h₃.slotsAt (.direct 0) ⟨3⟩ = some [20, 21, 22] := by decide +kernel
  have hfirst₀ : h₁.denoted 0 ⟨⟨3⟩, 1⟩ = some o := ho.denoted hopen hslots (by decide)
  have hfirst₁ : h₁.denoted 0 ⟨⟨3⟩, 1⟩ = some o₁ := ho₁.denoted hopen hslots (by decide)
  obtain rfl : 0 = c := Option.some.inj (hzero.symm.trans hc)
  obtain rfl : 21 = o := Option.some.inj (hone.symm.trans hfirst₀)
  obtain rfl : 21 = o₁ := Option.some.inj (hone.symm.trans hfirst₁)
  obtain rfl : 1 = c₂ := Option.some.inj ((hnew hnever).1.symm.trans hc₂)
  obtain ⟨rfl, hkept⟩ := hsame ⟨List.not_mem_nil, List.not_mem_nil⟩
  obtain ⟨hmore, hunseen⟩ := hagain hgone
  have hfresh := hunseen (before ++ [.materialize 0 0]) (List.prefix_append _ _) 21 hmade
  have htwice : (h₁.after [.openReplica 0 (some 0) none, .unload 0 (some 0)]).restoresAt 0 = some 1 := by
    decide +kernel
  obtain rfl : 1 = c₃ := Option.some.inj (htwice.symm.trans hc₃)
  exact ⟨21, o₃, hone, ho₂.denoted hopen₂ hslots₂ (by decide),
    (hlater [] _ (List.prefix_refl _) 0 _ hone hlives).1, ho₃.denoted hopen₃ hslots₃ (by decide), hfresh,
    hzero, (hnew hnever).1, hkept, hmore⟩

end Host

end InstancePool
