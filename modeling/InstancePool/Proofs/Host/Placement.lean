import InstancePool.Proofs.Host.Records

/-!
Where sessions and instances belong. A session keeps the link of the instance on which it was opened,
and no two managers own the same instance.
-/

namespace InstancePool

/-- Whoever has a session from a manager has it on an instance. -/
theorem Origin.home_of_manager {origin : Origin} {m : ManagerId} (hm : origin.manager? = some m) :
    ∃ home, origin.home? = some home := by
  cases origin with
  | bare | alone => cases hm
  | pinned _ home | balanced _ home => exact ⟨home, rfl⟩

/-- The instances of a manager. -/
def Host.team (h : Host) (m : ManagerId) : Option (List InstanceId) :=
  (h.managers[m]?).map Manager.instances

structure Host.Placed (h : Host) : Prop where
  fresh : ∀ s session, h.sessions.get? s = some session → s < h.nextSession
  /-- A session runs on its instance. -/
  linked : ∀ s session home, h.sessions.get? s = some session →
    session.origin.home? = some home → ∃ i, h.instances[home]? = some i ∧ i.link = some session.link
  owned : ∀ s session m home, h.sessions.get? s = some session →
    session.origin.manager? = some m → session.origin.home? = some home →
    ∃ team, h.team m = some team ∧ home ∈ team
  /-- The slot of a session is the position of its instance. -/
  seated : ∀ s session m home slot, h.sessions.get? s = some session →
    session.origin = .balanced m home slot →
    ∃ team, h.team m = some team ∧ team[slot]? = some home
  member : ∀ m team n, h.team m = some team → n ∈ team → n < h.instances.length
  disjoint : ∀ m m' team team' n, h.team m = some team → h.team m' = some team' →
    n ∈ team → n ∈ team' → m = m'

namespace Host

variable {h h' : Host}

theorem team_of_manager {m : ManagerId} {manager : Manager}
    (hm : h.managers[m]? = some manager) : h.team m = some manager.instances := by
  rw [team, hm]
  rfl

/-- The number that is given out next is not that of a session. -/
theorem Placed.nextSession_free (hp : h.Placed) : h.sessions.get? h.nextSession = none := by
  cases hs : h.sessions.get? h.nextSession with
  | none => rfl
  | some session => exact absurd (hp.fresh _ _ hs) (Nat.lt_irrefl _)

/-- Nothing changed for the instances that have sessions, none is gone, and all sessions were there
before, if not with the same current value. -/
theorem Placed.transfer (hp : h.Placed)
    (hs : ∀ s session, h'.sessions.get? s = some session →
      ∃ session₀, h.sessions.get? s = some session₀ ∧ session.link = session₀.link ∧
        session.origin = session₀.origin)
    (hi : ∀ s session home, h'.sessions.get? s = some session → session.origin.home? = some home →
      h'.instances[home]? = h.instances[home]?)
    (hl : h.instances.length ≤ h'.instances.length) (ht : ∀ m, h'.team m = h.team m)
    (hn : h'.nextSession = h.nextSession) : h'.Placed where
  fresh s session hg := by
    obtain ⟨session₀, hg₀, -, -⟩ := hs s session hg
    rw [hn]
    exact hp.fresh s session₀ hg₀
  linked s session home hg ho := by
    obtain ⟨session₀, hg₀, hlink, horigin⟩ := hs s session hg
    rw [hi s session home hg ho, hlink]
    exact hp.linked s session₀ home hg₀ (horigin ▸ ho)
  owned s session m home hg hm ho := by
    obtain ⟨session₀, hg₀, -, horigin⟩ := hs s session hg
    rw [ht]
    exact hp.owned s session₀ m home hg₀ (horigin ▸ hm) (horigin ▸ ho)
  seated s session m home slot hg ho := by
    obtain ⟨session₀, hg₀, -, horigin⟩ := hs s session hg
    rw [ht]
    exact hp.seated s session₀ m home slot hg₀ (horigin ▸ ho)
  member m team n hm hn := by
    rw [ht] at hm
    exact Nat.lt_of_lt_of_le (hp.member m team n hm hn) hl
  disjoint m m' team team' n hm hm' := by
    rw [ht] at hm hm'
    exact hp.disjoint m m' team team' n hm hm'

theorem SameBooks.team (hb : h.SameBooks h') (m : ManagerId) : h'.team m = h.team m := by
  rw [Host.team, Host.team, hb.managers]

/-- Placement is a matter of instances, managers and sessions alone. -/
theorem Placed.congr (hp : h.Placed) (hi : h'.instances = h.instances)
    (hm : h'.managers = h.managers) (hs : h'.sessions = h.sessions)
    (hn : h'.nextSession = h.nextSession) : h'.Placed :=
  hp.transfer (fun s session hg => ⟨session, by rw [← hs, hg], rfl, rfl⟩)
    (fun _ _ _ _ _ => by rw [hi]) (Nat.le_of_eq (by rw [hi]))
    (fun m => by rw [Host.team, Host.team, hm]) hn

theorem Placed.of_sameBooks (hp : h.Placed) (hb : h.SameBooks h') : h'.Placed :=
  hp.congr hb.instances hb.managers hb.sessions hb.nextSession

theorem Builds.team {N : Nat} (hb : h.Builds N h') (m : ManagerId) : h'.team m = h.team m := by
  have hm : h'.managers = h.managers := hb.books.managers
  rw [Host.team, Host.team, hm]

theorem Placed.home_lt (hp : h.Placed) {s : SessionId} {session : Session} {home : InstanceId}
    (hs : h.sessions.get? s = some session) (ho : session.origin.home? = some home) :
    home < h.instances.length := by
  obtain ⟨i, hi, -⟩ := hp.linked s session home hs ho
  exact (List.getElem?_eq_some_iff.1 hi).1

theorem Placed.of_builds (hp : h.Placed) (hb : h.Builds h.instances.length h') : h'.Placed := by
  have hs : h'.sessions = h.sessions := hb.books.sessions
  refine hp.transfer (fun s session hg => ⟨session, by rw [← hs, hg], rfl, rfl⟩) ?_ hb.length_le
    hb.team hb.books.nextSession
  intro s session home hg ho
  rw [hs] at hg
  exact hb.below _ (hp.home_lt hg ho)

/-- A session is opened on an instance, and placed as its origin says. -/
theorem Placed.keep (hp : h.Placed) {session : Session}
    (hl : ∀ home, session.origin.home? = some home →
      ∃ i, h.instances[home]? = some i ∧ i.link = some session.link)
    (ho : ∀ m home, session.origin.manager? = some m → session.origin.home? = some home →
      ∃ team, h.team m = some team ∧ home ∈ team)
    (hs : ∀ m home slot, session.origin = .balanced m home slot →
      ∃ team, h.team m = some team ∧ team[slot]? = some home) : (h.keep session).Placed where
  fresh s session' hg := by
    rcases Table.get?_insert_eq_some.1 hg with ⟨rfl, -⟩ | ⟨-, hg⟩
    · exact Nat.lt_succ_self _
    · exact Nat.lt_succ_of_lt (hp.fresh s session' hg)
  linked s session' home hg hh := by
    rcases Table.get?_insert_eq_some.1 hg with ⟨-, rfl⟩ | ⟨-, hg⟩
    · exact hl home hh
    · exact hp.linked s session' home hg hh
  owned s session' m home hg hm hh := by
    rcases Table.get?_insert_eq_some.1 hg with ⟨-, rfl⟩ | ⟨-, hg⟩
    · exact ho m home hm hh
    · exact hp.owned s session' m home hg hm hh
  seated s session' m home slot hg hh := by
    rcases Table.get?_insert_eq_some.1 hg with ⟨-, rfl⟩ | ⟨-, hg⟩
    · exact hs m home slot hh
    · exact hp.seated s session' m home slot hg hh
  member := hp.member
  disjoint := hp.disjoint

theorem SameBooks.keep (hb : h.SameBooks h') (session : Session) :
    (h.keep session).SameBooks (h'.keep session) where
  instances := hb.instances
  managers := hb.managers
  fleet := hb.fleet
  sessions := by simp only [Host.keep, hb.sessions, hb.nextSession]
  nextSession := by simp only [Host.keep, hb.nextSession]
  replicas := hb.replicas
  nextReplica := hb.nextReplica

/-- A session goes. -/
theorem Placed.erase (hp : h.Placed) (s : SessionId) (fleet : Fleet) :
    Placed { h with sessions := h.sessions.erase s, fleet } := by
  refine hp.transfer (fun k session hg => ?_) (fun _ _ _ _ _ => rfl) (Nat.le_refl _)
    (fun _ => rfl) rfl
  exact ⟨session, (Table.get?_erase_eq_some.1 hg).2, rfl, rfl⟩

theorem Placed.setCurrent (hp : h.Placed) {s : SessionId} {session : Session}
    (hs : h.sessions.get? s = some session) (current : Option Ref) :
    Placed { h with sessions := h.sessions.insert s { session with current } } := by
  refine hp.transfer (fun k session' hg => ?_) (fun _ _ _ _ _ => rfl) (Nat.le_refl _)
    (fun _ => rfl) rfl
  rcases Table.get?_insert_eq_some.1 hg with ⟨rfl, rfl⟩ | ⟨-, hg⟩
  · exact ⟨session, hs, rfl, rfl⟩
  · exact ⟨session', hg, rfl, rfl⟩

theorem getElem?_concat_eq {α : Type} (xs : List α) (x : α) (k : Nat) :
    (xs ++ [x])[k]? = if k = xs.length then some x else xs[k]? := by
  rw [List.getElem?_append]
  split
  · rename_i hlt
    rw [if_neg (Nat.ne_of_lt hlt)]
  · rename_i hge
    by_cases he : k = xs.length
    · rw [if_pos he, he, Nat.sub_self]
      rfl
    · have hgt : xs.length < k := Nat.lt_of_le_of_ne (Nat.le_of_not_lt hge) (Ne.symm he)
      rw [if_neg he, List.getElem?_eq_none (Nat.le_of_lt hgt), List.getElem?_eq_none]
      exact Nat.sub_pos_of_lt hgt

theorem map_getElem?_set {α β : Type} {xs : List α} {k : Nat} {x y : α} (hx : xs[k]? = some x)
    {f : α → β} (hf : f y = f x) (i : Nat) : ((xs.set k y)[i]?).map f = (xs[i]?).map f := by
  by_cases hi : k = i
  · subst hi
    rw [List.getElem?_set_self (List.getElem?_eq_some_iff.1 hx).1, hx, Option.map_some,
      Option.map_some, hf]
  · rw [List.getElem?_set_ne hi]

/-- The teams after a manager is added. -/
theorem team_addManager (h : Host) (manager : Manager) (fleet : Fleet) (m : ManagerId) :
    Host.team { h with fleet, managers := h.managers ++ [manager] } m =
      if m = h.managers.length then some manager.instances else h.team m := by
  simp only [Host.team, getElem?_concat_eq]
  split <;> rfl

/-- A manager is added whose instances come after all others. -/
theorem Placed.addManager (hp : h.Placed) {manager : Manager} {N : Nat} (fleet : Fleet)
    (hN : ∀ m team n, h.team m = some team → n ∈ team → n < N)
    (hm : ∀ n ∈ manager.instances, N ≤ n ∧ n < h.instances.length) :
    Placed { h with fleet, managers := h.managers ++ [manager] } := by
  have hteam (m : ManagerId) (team : List InstanceId)
      (ht : Host.team { h with fleet, managers := h.managers ++ [manager] } m = some team) :
      h.team m = some team ∨ m = h.managers.length ∧ team = manager.instances := by
    rw [team_addManager] at ht
    split at ht
    · rename_i he
      exact .inr ⟨he, (Option.some.inj ht).symm⟩
    · exact .inl ht
  -- The number of the new manager is not that of another one.
  have hold (m : ManagerId) (team : List InstanceId) (ht : h.team m = some team) :
      Host.team { h with fleet, managers := h.managers ++ [manager] } m = some team := by
    rw [team_addManager, if_neg, ht]
    rintro rfl
    rw [Host.team, List.getElem?_eq_none (Nat.le_refl _)] at ht
    cases ht
  constructor
  · exact hp.fresh
  · exact hp.linked
  · intro s session m home hg hm ho
    obtain ⟨team, ht, hn⟩ := hp.owned s session m home hg hm ho
    exact ⟨team, hold m team ht, hn⟩
  · intro s session m home slot hg ho
    obtain ⟨team, ht, hn⟩ := hp.seated s session m home slot hg ho
    exact ⟨team, hold m team ht, hn⟩
  · intro m team n ht hn
    rcases hteam m team ht with ht | ⟨-, rfl⟩
    · exact hp.member m team n ht hn
    · exact (hm n hn).2
  -- What the new manager owns lies above all that others own.
  · intro m m' team team' n ht ht' hn hn'
    rcases hteam m team ht with ht | ⟨rfl, rfl⟩ <;> rcases hteam m' team' ht' with ht' | ⟨rfl, rfl⟩
    · exact hp.disjoint m m' team team' n ht ht' hn hn'
    · exact absurd (hN m team n ht hn) (Nat.not_lt.2 (hm n hn').1)
    · exact absurd (hN m' team' n ht' hn') (Nat.not_lt.2 (hm n hn).1)
    · rfl

/-- The manager of an instance is the only one. -/
theorem Placed.ownerOf (hp : h.Placed) {m : ManagerId} {manager : Manager}
    (hm : h.managers[m]? = some manager) {n : InstanceId} (hn : n ∈ manager.instances) :
    h.ownerOf n = some m := by
  obtain ⟨hlt, hget⟩ := List.getElem?_eq_some_iff.1 hm
  unfold Host.ownerOf
  rw [List.findIdx?_eq_some_iff_getElem]
  refine ⟨hlt, by rw [hget]; simpa using hn, fun j hj hc => ?_⟩
  have hj' : j < h.managers.length := Nat.lt_trans hj hlt
  have hother : n ∈ h.managers[j].instances := by simpa using hc
  have he := hp.disjoint j m _ _ n (team_of_manager (List.getElem?_eq_getElem hj'))
    (team_of_manager hm) hother hn
  exact Nat.ne_of_lt hj he

end Host

end InstancePool
