import InstancePool.Proofs.Balancer.Counting
import InstancePool.Proofs.Host.Placement
import InstancePool.Proofs.Host.Runs

/-!
Slots are accounted for. However sessions are opened and closed, and whatever fails in between, the
use count of a slot is the number of open sessions that hold it.
-/

namespace InstancePool

open HostM

/-- Whether a session holds a slot of a manager's balancer. -/
def Session.holdsSlot (s : Session) (m : ManagerId) (slot : Nat) : Bool :=
  s.origin.manager? = some m && s.origin.slot? = some slot

namespace Host

/-- The number of open sessions that hold a slot. -/
def holders (h : Host) (m : ManagerId) (slot : Nat) : Nat :=
  h.sessions.count fun e => e.2.holdsSlot m slot

/-- The balancer of a manager, and how many instances it has. -/
def desk (h : Host) (m : ManagerId) : Option (Nat × Nat) :=
  (h.managers[m]?).map fun manager => (manager.balancer, manager.instances.length)

structure Accounted (h : Host) : Prop where
  slots : ∀ m k n, h.desk m = some (k, n) → ∃ b, h.fleet.balancers[k]? = some b ∧ b.size = n ∧
    ∀ slot < n, (b.load slot).toNat = h.holders m slot
  /-- No two managers share a balancer. -/
  separate : ∀ m m' k n n', h.desk m = some (k, n) → h.desk m' = some (k, n') → m = m'
  calm : h.fleet.complaints = []
  few : h.sessions.size < 2 ^ 64

end Host

theorem Balancer.create_ok {n : Nat} {b : Balancer} (hb : Balancer.create n = .ok b) :
    b.size = n ∧ ∀ slot < n, b.load slot = 0 := by
  unfold create at hb
  split at hb
  · cases hb
  · cases hb
    refine ⟨List.length_replicate, fun slot hlt => ?_⟩
    rw [load, List.getElem?_replicate_of_lt hlt]
    rfl

namespace Fleet

/-- What a thread does to the fleet when it takes a slot. -/
theorem acquire_ok {f f' : Fleet} {k slot : Nat} {t : Thread}
    (h : f.acquire k t = some (slot, f')) :
    ∃ b, f.balancers[k]? = some b ∧ slot < b.size ∧
      f'.balancers = f.balancers.set k (b.update slot (· + 1)) ∧ f'.complaints = f.complaints := by
  unfold acquire at h
  cases hb : f.balancers[k]? with
  | none => rw [hb] at h; cases h
  | some b =>
    rw [hb] at h
    cases h
    exact ⟨b, rfl, b.choose_slot_lt _, rfl, rfl⟩

/-- Giving back a slot that is in use raises no complaint. -/
theorem free_ok {f : Fleet} {k slot : Nat} {b : Balancer} (hb : f.balancers[k]? = some b)
    (hs : slot < b.size) (hl : b.load slot ≠ 0) :
    f.free k slot =
      some (.ok (), { f with balancers := f.balancers.set k (b.update slot (· - 1)) }) := by
  simp only [free, hb, Option.map_some, Balancer.free, if_pos hs, if_neg hl]

end Fleet

namespace Host

variable {h h' : Host}

theorem SameBooks.desk (hb : h.SameBooks h') (m : ManagerId) : h'.desk m = h.desk m := by
  rw [Host.desk, Host.desk, hb.managers]

theorem Accounted.transfer (ha : h.Accounted) (hd : ∀ m, h'.desk m = h.desk m)
    (hb : h'.fleet.balancers = h.fleet.balancers) (hc : h'.fleet.complaints = h.fleet.complaints)
    (hs : h'.sessions = h.sessions) : h'.Accounted where
  slots m k n hm := by
    rw [hd] at hm
    obtain ⟨b, hk, hsize, hcount⟩ := ha.slots m k n hm
    refine ⟨b, by rw [hb, hk], hsize, fun slot hlt => ?_⟩
    rw [hcount slot hlt, holders, holders, hs]
  separate m m' k n n' hm hm' := by
    rw [hd] at hm hm'
    exact ha.separate m m' k n n' hm hm'
  calm := by rw [hc, ha.calm]
  few := by rw [hs]; exact ha.few

theorem Accounted.of_sameBooks (ha : h.Accounted) (hb : h.SameBooks h') : h'.Accounted :=
  ha.transfer hb.desk (by rw [hb.fleet]) (by rw [hb.fleet]) hb.sessions

theorem Accounted.of_builds (ha : h.Accounted) {N : Nat} (hb : h.Builds N h') : h'.Accounted := by
  have hm : h'.managers = h.managers := hb.books.managers
  have hf : h'.fleet = h.fleet := hb.books.fleet
  exact ha.transfer (fun m => by rw [desk, desk, hm]) (by rw [hf]) (by rw [hf]) hb.books.sessions

/-- A session that holds no slot is opened. -/
theorem Accounted.keep (ha : h.Accounted) (hn : h.sessions.get? h.nextSession = none)
    (hf : h.sessions.size + 1 < 2 ^ 64) {session : Session} (ho : session.origin.slot? = none) :
    (h.keep session).Accounted where
  slots m k n hm := by
    obtain ⟨b, hk, hsize, hcount⟩ := ha.slots m k n hm
    refine ⟨b, hk, hsize, fun slot hlt => ?_⟩
    have hnot : session.holdsSlot m slot = false := by
      simp only [Session.holdsSlot, ho, reduceCtorEq, decide_false, Bool.and_false]
    rw [hcount slot hlt, holders, holders, Host.keep, Table.count_insert_new hn, hnot]
    rfl
  separate := ha.separate
  calm := ha.calm
  few := by
    simp only [Host.keep, Table.size_insert_new hn]
    omega

theorem holders_le (h : Host) (m : ManagerId) (slot : Nat) : h.holders m slot ≤ h.sessions.size :=
  h.sessions.count_le_size _

theorem toNat_add_one {x : UInt64} (h : x.toNat + 1 < 2 ^ 64) : (x + 1).toNat = x.toNat + 1 := by
  rw [UInt64.toNat_add]
  exact Nat.mod_eq_of_lt h

theorem toNat_sub_one {x : UInt64} (h : 0 < x.toNat) : (x - 1).toNat = x.toNat - 1 := by
  have hle : (1 : UInt64) ≤ x := h
  rw [UInt64.toNat_sub_of_le x 1 hle]
  rfl

/-- One slot is counted anew, and the sessions that hold it; all others stay as they are. -/
theorem Accounted.recount (ha : h.Accounted) {m k n slot : Nat} {b : Balancer}
    {f : UInt64 → UInt64} (hm : h.desk m = some (k, n)) (hb : h.fleet.balancers[k]? = some b)
    (hslot : slot < n) (hd : ∀ m, h'.desk m = h.desk m)
    (hset : h'.fleet.balancers = h.fleet.balancers.set k (b.update slot f))
    (hone : (f (b.load slot)).toNat = h'.holders m slot)
    (hother : ∀ m' slot', m' ≠ m ∨ slot' ≠ slot → h'.holders m' slot' = h.holders m' slot')
    (hcalm : h'.fleet.complaints = []) (hfew : h'.sessions.size < 2 ^ 64) : h'.Accounted := by
  have hk : k < h.fleet.balancers.length := (List.getElem?_eq_some_iff.1 hb).1
  have hsep := ha.separate
  refine ⟨fun m' k' n' hm' => ?_, ?_, hcalm, hfew⟩
  · rw [hd] at hm'
    obtain ⟨b', hb', hsize, hcount⟩ := ha.slots m' k' n' hm'
    by_cases he : k = k'
    -- The balancer in question: it belongs to one manager alone.
    · subst he
      obtain rfl := Option.some.inj (hb.symm.trans hb')
      obtain rfl := hsep m m' k n n' hm hm'
      obtain ⟨-, rfl⟩ := Prod.mk.inj (Option.some.inj (hm.symm.trans hm'))
      refine ⟨b.update slot f, by rw [hset, List.getElem?_set_self hk], by simpa using hsize, ?_⟩
      intro slot' hlt
      rw [b.load_update (hsize ▸ hslot)]
      split
      · rename_i hs
        rw [hs, hone]
      · rename_i hs
        rw [hother m slot' (.inr hs), hcount slot' hlt]
    · refine ⟨b', by rw [hset, List.getElem?_set_ne he, hb'], hsize, fun slot' hlt => ?_⟩
      have hne : m' ≠ m := by
        rintro rfl
        rw [hm] at hm'
        cases hm'
        exact he rfl
      rw [hother m' slot' (.inl hne), hcount slot' hlt]
  · intro m' m'' k' n' n'' hm' hm''
    rw [hd] at hm' hm''
    exact hsep m' m'' k' n' n'' hm' hm''

theorem desk_of_manager {m : ManagerId} {manager : Manager} (hm : h.managers[m]? = some manager) :
    h.desk m = some (manager.balancer, manager.instances.length) := by
  rw [desk, hm]
  rfl

theorem holdsSlot_balanced {link : Link} {key : SessionKey} {current : Option Ref}
    (m m' : ManagerId) (home : InstanceId) (slot slot' : Nat) :
    Session.holdsSlot ⟨link, key, .balanced m home slot, current⟩ m' slot' =
      (m = m' && slot = slot') := by
  simp only [Session.holdsSlot, Origin.manager?, Origin.slot?, Option.some.injEq]

theorem origin_of_holdsSlot {s : Session} {m : ManagerId} {slot : Nat}
    (hs : s.holdsSlot m slot = true) : ∃ home, s.origin = .balanced m home slot := by
  unfold Session.holdsSlot at hs
  rw [Bool.and_eq_true, decide_eq_true_eq, decide_eq_true_eq] at hs
  cases ho : s.origin with
  | balanced m' home slot' =>
    rw [ho] at hs
    cases hs.1
    cases hs.2
    exact ⟨home, rfl⟩
  | _ =>
    rw [ho] at hs
    cases hs.2

/-- A session is opened that holds the slot taken for it. -/
theorem Accounted.keep_balanced (ha : h.Accounted) (hn : h.sessions.get? h.nextSession = none)
    (hf : h.sessions.size + 1 < 2 ^ 64) {m : ManagerId} {manager : Manager} {slot : Nat}
    {t : Thread} {fleet : Fleet} (hm : h.managers[m]? = some manager)
    (hacq : h.fleet.acquire manager.balancer t = some (slot, fleet)) (home : InstanceId)
    (link : Link) (key : SessionKey) :
    Accounted (Host.keep { h with fleet } { link, key, origin := .balanced m home slot }) := by
  obtain ⟨b, hb, hslot, hbal, hcomp⟩ := Fleet.acquire_ok hacq
  obtain ⟨b', hb', hsize, hcount⟩ := ha.slots m _ _ (desk_of_manager hm)
  obtain rfl := Option.some.inj (hb.symm.trans hb')
  rw [hsize] at hslot
  have hle := h.holders_le m slot
  -- The new session holds the one slot, and changes no other count.
  have hkeep (m' slot' : Nat) : (Host.keep { h with fleet }
      { link, key, origin := .balanced m home slot }).holders m' slot' =
        h.holders m' slot' + if (m = m' && slot = slot') = true then 1 else 0 := by
    simp only [holders, Host.keep, Table.count_insert_new hn, holdsSlot_balanced]
  refine ha.recount (desk_of_manager hm) hb hslot (fun _ => rfl) hbal ?_ ?_
    (hcomp.trans ha.calm) ?_
  · rw [hkeep, toNat_add_one, hcount slot hslot]
    · simp
    · rw [hcount slot hslot]
      omega
  · intro m' slot' hne
    rw [hkeep, if_neg, Nat.add_zero]
    simp only [Bool.and_eq_true, decide_eq_true_eq]
    rintro ⟨rfl, rfl⟩
    exact hne.elim (· rfl) (· rfl)
  · simp only [Host.keep, Table.size_insert_new hn]
    omega

/-- A slot that is taken and given back leaves no trace but the cursor of the thread. -/
theorem Accounted.take_free (ha : h.Accounted) (hf : h.sessions.size + 1 < 2 ^ 64)
    {m : ManagerId} {manager : Manager} {slot : Nat} {t : Thread} {fleet : Fleet}
    (hm : h.managers[m]? = some manager)
    (hacq : h.fleet.acquire manager.balancer t = some (slot, fleet))
    (hb : { h with fleet }.SameBooks h') :
    (runOn h' (freeSlot manager.balancer slot)).2.Accounted := by
  obtain ⟨b, hb₀, hslot, hbal, hcomp⟩ := Fleet.acquire_ok hacq
  obtain ⟨b', hb', hsize, hcount⟩ := ha.slots m _ _ (desk_of_manager hm)
  obtain rfl := Option.some.inj (hb₀.symm.trans hb')
  have hle := h.holders_le m slot
  have hk : manager.balancer < h.fleet.balancers.length := (List.getElem?_eq_some_iff.1 hb₀).1
  have hfleet : h'.fleet = fleet := hb.fleet
  have hget : h'.fleet.balancers[manager.balancer]? = some (b.update slot (· + 1)) := by
    rw [hfleet, hbal, List.getElem?_set_self hk]
  -- The slot is in use, since this very thread has taken it.
  have hload : (b.update slot (· + 1)).load slot ≠ 0 := by
    rw [b.load_update hslot, if_pos rfl]
    intro hzero
    have htoNat := congrArg UInt64.toNat hzero
    rw [toNat_add_one] at htoNat
    · cases htoNat
    · rw [hcount slot (hsize ▸ hslot)]
      omega
  have hfree := Fleet.free_ok hget (by simpa using hslot) hload
  have hrun : (runOn h' (freeSlot manager.balancer slot)).2 = { h' with
      fleet := { h'.fleet with balancers := h.fleet.balancers } } := by
    simp only [freeSlot, runOn_of, hfree, Balancer.update_update]
    have hback : h'.fleet.balancers.set manager.balancer b = h.fleet.balancers := by
      rw [hfleet, hbal, List.set_set, ← (List.getElem?_eq_some_iff.1 hb₀).2]
      exact List.set_getElem_self hk
    rw [hback]
  rw [hrun]
  refine ha.transfer (fun k => ?_) rfl ?_ hb.sessions
  · rw [desk, desk, hb.managers]
  · exact (congrArg Fleet.complaints hfleet).trans hcomp

/-- The current value of a session does not count. -/
theorem Accounted.setCurrent (ha : h.Accounted) {s : SessionId} {session : Session}
    (hs : h.sessions.get? s = some session) (current : Option Ref) :
    Accounted { h with sessions := h.sessions.insert s { session with current } } where
  slots m k n hm := by
    obtain ⟨b, hb, hsize, hcount⟩ := ha.slots m k n hm
    refine ⟨b, hb, hsize, fun slot hlt => ?_⟩
    have hsame := Table.count_insert_old (v := { session with current }) hs
      (p := fun e => e.2.holdsSlot m slot) rfl
    rw [hcount slot hlt]
    exact hsame.symm
  separate := ha.separate
  calm := ha.calm
  few := by
    simp only [Table.size_insert_old hs]
    exact ha.few

/-- A session that holds no slot goes. -/
theorem Accounted.erase (ha : h.Accounted) {s : SessionId} {session : Session}
    (hs : h.sessions.get? s = some session) (ho : session.origin.slot? = none) :
    Accounted { h with sessions := h.sessions.erase s } where
  slots m k n hm := by
    obtain ⟨b, hb, hsize, hcount⟩ := ha.slots m k n hm
    refine ⟨b, hb, hsize, fun slot hlt => ?_⟩
    have hnot : session.holdsSlot m slot = false := by
      simp only [Session.holdsSlot, ho, reduceCtorEq, decide_false, Bool.and_false]
    rw [hcount slot hlt, holders, holders, Table.count_erase hs, hnot]
    rfl
  separate := ha.separate
  calm := ha.calm
  few := Nat.lt_of_le_of_lt (h.sessions.size_erase_le s) ha.few

/-- A session goes that holds a slot, and gives it back. -/
theorem Accounted.erase_balanced (ha : h.Accounted) (hp : h.Placed) {s : SessionId}
    {session : Session} (hs : h.sessions.get? s = some session) {m : ManagerId}
    {home : InstanceId} {slot : Nat} (ho : session.origin = .balanced m home slot) :
    ∃ manager fleet, h.managers[m]? = some manager ∧
      h.fleet.free manager.balancer slot = some (.ok (), fleet) ∧
      Accounted { h with sessions := h.sessions.erase s, fleet } := by
  obtain ⟨team, ht, hhome⟩ := hp.seated s session m home slot hs ho
  obtain ⟨manager, hm, rfl⟩ : ∃ manager, h.managers[m]? = some manager ∧
      manager.instances = team := by
    rw [Host.team] at ht
    exact Option.map_eq_some_iff.1 ht
  have hslot : slot < manager.instances.length := (List.getElem?_eq_some_iff.1 hhome).1
  obtain ⟨b, hb, hsize, hcount⟩ := ha.slots m _ _ (desk_of_manager hm)
  rcases session with ⟨link, key, origin, current⟩
  obtain rfl : origin = .balanced m home slot := ho
  have herase (m' slot' : Nat) : h.holders m' slot' =
      Host.holders { h with sessions := h.sessions.erase s } m' slot' +
        if (m = m' && slot = slot') = true then 1 else 0 := by
    simp only [holders, Table.count_erase hs, holdsSlot_balanced]
  -- The session itself is counted, so the slot is in use.
  have hpos : 0 < (b.load slot).toNat := by
    rw [hcount slot hslot, herase m slot]
    simp
  have hload : b.load slot ≠ 0 := by
    intro hzero
    rw [hzero] at hpos
    exact absurd hpos (Nat.lt_irrefl 0)
  refine ⟨manager, _, hm, Fleet.free_ok hb (hsize ▸ hslot) hload, ?_⟩
  refine ha.recount (desk_of_manager hm) hb hslot (fun _ => rfl) rfl ?_ ?_ ha.calm
    (Nat.lt_of_le_of_lt (h.sessions.size_erase_le s) ha.few)
  · rw [toNat_sub_one hpos, hcount slot hslot, herase m slot]
    simp only [decide_true, Bool.and_self, if_true, Nat.add_sub_cancel]
    rfl
  · intro m' slot' hne
    rw [herase m' slot', if_neg, Nat.add_zero]
    · rfl
    · simp only [Bool.and_eq_true, decide_eq_true_eq]
      rintro ⟨rfl, rfl⟩
      exact hne.elim (· rfl) (· rfl)

/-- The slots of a new manager are idle. -/
theorem Accounted.addManager (ha : h.Accounted) (hp : h.Placed) {manager : Manager} {b : Balancer}
    (hb : Balancer.create manager.instances.length = .ok b)
    (hk : manager.balancer = h.fleet.balancers.length) :
    Accounted { h with
      fleet := { h.fleet with balancers := h.fleet.balancers ++ [b] }
      managers := h.managers ++ [manager] } := by
  have hnew (m : ManagerId) : Host.desk { h with
      fleet := { h.fleet with balancers := h.fleet.balancers ++ [b] }
      managers := h.managers ++ [manager] } m =
        if m = h.managers.length then some (h.fleet.balancers.length, manager.instances.length)
        else h.desk m := by
    simp only [desk, getElem?_concat_eq, ← hk]
    split <;> rfl
  have hold (m k n : Nat) (hm : h.desk m = some (k, n)) : k < h.fleet.balancers.length := by
    obtain ⟨b', hb', -⟩ := ha.slots m k n hm
    exact (List.getElem?_eq_some_iff.1 hb').1
  refine ⟨fun m k n hm => ?_, fun m m' k n n' hm hm' => ?_, ha.calm, ha.few⟩
  · rw [hnew] at hm
    split at hm
    · rename_i he
      cases hm
      obtain ⟨hsize, hload⟩ := Balancer.create_ok hb
      refine ⟨b, List.getElem?_concat_length .., hsize, fun slot hlt => ?_⟩
      rw [hload slot hlt]
      -- No session can hold a slot of a manager that was not there.
      refine (List.countP_eq_zero.2 fun e hmem hholds => ?_).symm
      obtain ⟨home, ho⟩ := origin_of_holdsSlot hholds
      obtain ⟨team, ht, -⟩ := hp.seated e.1 e.2 m home slot (Table.get?_of_mem hmem) ho
      rw [he, Host.team, List.getElem?_eq_none (Nat.le_refl _)] at ht
      cases ht
    · obtain ⟨b', hb', hsize, hcount⟩ := ha.slots m k n hm
      exact ⟨b', by rw [List.getElem?_append_left (hold m k n hm), hb'], hsize, hcount⟩
  · rw [hnew] at hm hm'
    split at hm <;> split at hm'
    · rename_i he he'
      rw [he, he']
    · cases hm
      exact absurd (hold m' _ _ hm') (Nat.lt_irrefl _)
    · cases hm'
      exact absurd (hold m _ _ hm) (Nat.lt_irrefl _)
    · exact ha.separate m m' k n n' hm hm'

end Host

end InstancePool
