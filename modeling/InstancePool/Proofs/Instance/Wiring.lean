import InstancePool.Proofs.Host.Placement

/-!
Which interpreter belongs to which instance. Each instance that is not torn down has one of its own,
and reaches it.
-/

namespace InstancePool

open HostM

namespace Host

/-- The link of an instance that is not torn down. -/
def linkOf (h : Host) (n : InstanceId) : Option Link := (h.instances[n]?).bind Instance.link

/-- The interpreter of an instance. -/
def seat (h : Host) (n : InstanceId) : Option Nat := (h.linkOf n).bind h.interpAt

/-- What an instance has loaded. -/
def store (h : Host) (n : InstanceId) : Option (Table ObjectId ObjectIndex) :=
  (h.seat n).bind fun k => (h.machine.interps[k]?).map Interp.loaded

structure Wired (h : Host) : Prop where
  serves : ∀ n l, h.linkOf n = some l → ∃ k, h.Serves l k
  apart : ∀ n n' k, h.seat n = some k → h.seat n' = some k → n = n'

/-- From a host to a later one in which the same objects are loaded. The instances in `X` may be torn
down in between, and new ones have nothing loaded. -/
structure Settled (X : InstanceId → Prop) (h h' : Host) : Prop where
  heap : h.machine.heap.Extends h'.machine.heap
  length_le : h.instances.length ≤ h'.instances.length
  store : ∀ n < h.instances.length, ¬ X n → h'.store n = h.store n
  torn : ∀ n t, n < h.instances.length → h'.store n = some t → h.store n = some t
  fresh : ∀ n t, h.instances.length ≤ n → h'.store n = some t → t = Table.empty

/-- The instances stay wired, and the same objects are loaded. -/
def Settles (X : InstanceId → Prop) (h h' : Host) : Prop := h.Wired → h'.Wired ∧ h.Settled X h'

variable {α : Type} {X Y : InstanceId → Prop} {S T : Nat → Prop} {h h' h₁ h₂ h₃ : Host}

theorem linkOf_lt {n : InstanceId} {l : Link} (hl : h.linkOf n = some l) :
    n < h.instances.length := by
  unfold linkOf at hl
  obtain ⟨i, hi, -⟩ := Option.bind_eq_some_iff.1 hl
  exact (List.getElem?_eq_some_iff.1 hi).1

theorem seat_eq {n : InstanceId} {k : Nat} :
    h.seat n = some k ↔ ∃ l, h.linkOf n = some l ∧ h.interpAt l = some k :=
  Option.bind_eq_some_iff

theorem store_eq {n : InstanceId} {t : Table ObjectId ObjectIndex} :
    h.store n = some t ↔ ∃ k i, h.seat n = some k ∧ h.machine.interps[k]? = some i ∧
      i.loaded = t := by
  unfold store
  rw [Option.bind_eq_some_iff]
  constructor
  · rintro ⟨k, hk, ht⟩
    obtain ⟨i, hi, rfl⟩ := Option.map_eq_some_iff.1 ht
    exact ⟨k, i, hk, hi, rfl⟩
  · rintro ⟨k, i, hk, hi, rfl⟩
    exact ⟨k, hk, by rw [hi]; rfl⟩

theorem store_lt {n : InstanceId} {t : Table ObjectId ObjectIndex} (ht : h.store n = some t) :
    n < h.instances.length := by
  obtain ⟨k, i, hk, -, -⟩ := store_eq.1 ht
  obtain ⟨l, hl, -⟩ := seat_eq.1 hk
  exact linkOf_lt hl

/-- A wired instance has its interpreter, and with it a store. -/
theorem Wired.interp (hw : h.Wired) {n : InstanceId} {l : Link} (hl : h.linkOf n = some l) :
    ∃ k i, h.Serves l k ∧ h.seat n = some k ∧ h.machine.interps[k]? = some i ∧
      h.store n = some i.loaded := by
  obtain ⟨k, hk⟩ := hw.serves n l hl
  obtain ⟨i, hi, -⟩ := hk.interp
  have hseat : h.seat n = some k := seat_eq.2 ⟨l, hl, hk.interpAt⟩
  exact ⟨k, i, hk, hseat, hi, store_eq.2 ⟨k, i, hseat, hi, rfl⟩⟩

theorem Wired.store_none (hw : h.Wired) {n : InstanceId} (hn : h.store n = none) :
    h.linkOf n = none := by
  cases hl : h.linkOf n with
  | none => rfl
  | some l =>
    obtain ⟨k, i, -, -, -, hs⟩ := hw.interp hl
    rw [hn] at hs
    cases hs

theorem store_of_linkOf_none {n : InstanceId} (hn : h.linkOf n = none) : h.store n = none := by
  rw [store, seat, hn]
  rfl

theorem Settled.refl (h : Host) : h.Settled X h where
  heap := .refl _
  length_le := Nat.le_refl _
  store _ _ _ := rfl
  torn _ _ _ := id
  fresh _ _ hn ht := absurd (store_lt ht) (Nat.not_lt.2 hn)

theorem Settled.trans (hs : h₁.Settled X h₂) (hs' : h₂.Settled X h₃) : h₁.Settled X h₃ where
  heap := hs.heap.trans hs'.heap
  length_le := Nat.le_trans hs.length_le hs'.length_le
  store n hn hx := (hs'.store n (Nat.lt_of_lt_of_le hn hs.length_le) hx).trans (hs.store n hn hx)
  torn n t hn ht := hs.torn n t hn (hs'.torn n t (Nat.lt_of_lt_of_le hn hs.length_le) ht)
  fresh n t hn ht := by
    by_cases hlt : n < h₂.instances.length
    · exact hs.fresh n t hn (hs'.torn n t hlt ht)
    · exact hs'.fresh n t (Nat.le_of_not_lt hlt) ht

instance : Frame (Settles X) where
  refl h hw := ⟨hw, .refl h⟩
  trans hs hs' hw := by
    obtain ⟨hw', hs⟩ := hs hw
    obtain ⟨hw'', hs'⟩ := hs' hw'
    exact ⟨hw'', hs.trans hs'⟩

theorem Settled.mono (hs : h₁.Settled X h₂) (hxy : ∀ n < h₁.instances.length, X n → Y n) :
    h₁.Settled Y h₂ :=
  { hs with store := fun n hn hy => hs.store n hn fun hx => hy (hxy n hn hx) }

theorem SameBooks.linkOf (hb : h.SameBooks h') (n : InstanceId) : h'.linkOf n = h.linkOf n := by
  rw [Host.linkOf, Host.linkOf, hb.instances]

/-- No instance changes its interpreter. -/
theorem Wired.seat_of_spares (hw : h.Wired) (hs : h.Spares S T h') (n : InstanceId) :
    h'.seat n = h.seat n := by
  cases hl : h.linkOf n with
  | none => rw [seat, seat, hs.toSameBooks.linkOf, hl]; rfl
  | some l =>
    obtain ⟨k, -, hk, hn, -, -⟩ := hw.interp hl
    rw [hn]
    exact seat_eq.2 ⟨l, by rw [hs.toSameBooks.linkOf, hl], hs.interpAt hk.interpAt⟩

/-- An instance whose interpreter is spared keeps its store. -/
theorem Wired.store_of_spares (hw : h.Wired) (hs : h.Spares S T h') {n : InstanceId}
    (hS : ∀ k, h.seat n = some k → S k) : h'.store n = h.store n := by
  cases hl : h.linkOf n with
  | none =>
    rw [store_of_linkOf_none hl, store_of_linkOf_none]
    rw [hs.toSameBooks.linkOf, hl]
  | some l =>
    obtain ⟨k, i, -, hn, hi, ht⟩ := hw.interp hl
    obtain ⟨i', hi', ha⟩ := hs.machine.interp k i (hS k hn) hi
    rw [ht, ← ha.loaded]
    exact store_eq.2 ⟨k, i', (hw.seat_of_spares hs n).trans hn, hi', rfl⟩

/-- What spares the interpreters and channels of all instances keeps them wired. -/
theorem Wired.of_spares (hw : h.Wired) (hs : h.Spares S T h')
    (hS : ∀ n k, h.seat n = some k → S k)
    (hT : ∀ n c, h.linkOf n = some (.channel c) → T c) : h'.Wired ∧ h.Settled X h' := by
  have hstore (n : InstanceId) : h'.store n = h.store n := hw.store_of_spares hs (hS n)
  have hlen : h'.instances.length = h.instances.length := by rw [hs.instances]
  refine ⟨⟨fun n l hl => ?_, fun n n' k hn hn' => ?_⟩, ⟨hs.machine.heap, ?_, ?_, ?_, ?_⟩⟩
  · rw [hs.toSameBooks.linkOf] at hl
    obtain ⟨k, -, hk, hn, -, -⟩ := hw.interp hl
    exact ⟨k, hk.of_spares hs (hS n k hn) fun c hc => hT n c (hc ▸ hl)⟩
  · rw [hw.seat_of_spares hs] at hn hn'
    exact hw.apart n n' k hn hn'
  · exact Nat.le_of_eq hlen.symm
  · exact fun n _ _ => hstore n
  · exact fun n t _ ht => (hstore n).symm.trans ht
  · intro n t hn ht
    rw [hstore] at ht
    exact absurd (store_lt ht) (Nat.not_lt.2 hn)

theorem settles_of_spares (hs : h.Spares (fun _ => True) (fun _ => True) h') : h.Settles X h' :=
  fun hw => hw.of_spares hs (fun _ _ _ => trivial) fun _ _ _ => trivial

/-- Two hosts with the same channels resolve a link to the same interpreter. -/
theorem interpAt_congr (hc : h'.channels = h.channels) (l : Link) :
    h'.interpAt l = h.interpAt l := by
  cases l with
  | direct n => rfl
  | channel c => simp only [interpAt, hc]

theorem seat_congr (hc : h'.channels = h.channels) {n : InstanceId}
    (hl : h'.linkOf n = h.linkOf n) : h'.seat n = h.seat n := by
  rw [seat, seat, hl]
  cases h.linkOf n with
  | none => rfl
  | some l => exact interpAt_congr hc l

theorem store_congr (hm : h'.machine = h.machine) (hc : h'.channels = h.channels) {n : InstanceId}
    (hl : h'.linkOf n = h.linkOf n) : h'.store n = h.store n := by
  rw [store, store, seat_congr hc hl, hm]

theorem Serves.congr {l : Link} {k : Nat} (hs : h.Serves l k) (hm : h'.machine = h.machine)
    (hc : h'.channels = h.channels) : h'.Serves l k where
  interpAt := (interpAt_congr hc l).trans hs.interpAt
  live c he := by
    rw [hc]
    exact hs.live c he
  interp := by
    rw [hm]
    exact hs.interp

/-- An instance is added with an interpreter of its own that has nothing loaded. -/
theorem settles_add (hw : h.Wired) {i : Instance} {l : Link} {k : Nat} (hl : i.link = some l)
    (hs : h.Serves l k) (hnew : ∀ n, h.seat n ≠ some k)
    (hempty : ∃ j, h.machine.interps[k]? = some j ∧ j.loaded = Table.empty) :
    Wired { h with instances := h.instances ++ [i] } ∧
      h.Settled X { h with instances := h.instances ++ [i] } := by
  have hlink (n : InstanceId) : Host.linkOf { h with instances := h.instances ++ [i] } n =
      if n = h.instances.length then some l else h.linkOf n := by
    simp only [linkOf, getElem?_concat_eq]
    split
    · exact hl
    · rfl
  -- The new instance sits where nobody sat, and the others stay in their seats.
  have hseat (n : InstanceId) : Host.seat { h with instances := h.instances ++ [i] } n =
      if n = h.instances.length then some k else h.seat n := by
    split
    · rename_i he
      rw [seat, hlink, if_pos he]
      exact (interpAt_congr rfl l).trans hs.interpAt
    · rename_i hne
      exact seat_congr (by rfl) (by rw [hlink, if_neg hne])
  have hold (n : InstanceId) (hn : n < h.instances.length) :
      Host.store { h with instances := h.instances ++ [i] } n = h.store n :=
    store_congr (by rfl) (by rfl) (by rw [hlink, if_neg (Nat.ne_of_lt hn)])
  refine ⟨⟨fun n l' hn => ?_, fun n n' k' hn hn' => ?_⟩, ⟨.refl _, ?_, fun n hn _ => hold n hn,
    fun n t hn ht => hold n hn ▸ ht, fun n t hn ht => ?_⟩⟩
  · rw [hlink] at hn
    split at hn
    · cases hn
      exact ⟨k, hs.congr rfl rfl⟩
    · obtain ⟨k', hk'⟩ := hw.serves n l' hn
      exact ⟨k', hk'.congr rfl rfl⟩
  · rw [hseat] at hn hn'
    -- Of two instances in one seat either both are the new one, or neither is.
    split at hn <;> split at hn'
    · rename_i he he'
      rw [he, he']
    · cases hn
      exact absurd hn' (hnew n')
    · cases hn'
      exact absurd hn (hnew n)
    · exact hw.apart n n' k' hn hn'
  · simp only [List.length_append]
    omega
  · obtain ⟨k', j, hk, hj, rfl⟩ := store_eq.1 ht
    obtain ⟨j', hj', he⟩ := hempty
    rw [hseat] at hk
    split at hk
    · cases hk
      rw [← he]
      exact congrArg Interp.loaded (Option.some.inj (hj.symm.trans hj'))
    · obtain ⟨l', hl', -⟩ := seat_eq.1 hk
      exact absurd (linkOf_lt hl') (Nat.not_lt.2 hn)

theorem linkOf_set_self (n : InstanceId) {i : Instance} (hi : i.link = none) :
    Host.linkOf { h with instances := h.instances.set n i } n = none := by
  simp only [linkOf, List.getElem?_set_self']
  cases h.instances[n]? with
  | none => rfl
  | some i' => exact hi

theorem linkOf_set_ne {n k : InstanceId} (i : Instance) (hk : n ≠ k) :
    Host.linkOf { h with instances := h.instances.set n i } k = h.linkOf k := by
  simp only [linkOf, List.getElem?_set_ne hk]

/-- An instance is no longer linked. -/
theorem settles_unlink (hw : h.Wired) {n : InstanceId} (hx : X n) (i : Instance)
    (hi : i.link = none) : Wired { h with instances := h.instances.set n i } ∧
      h.Settled X { h with instances := h.instances.set n i } := by
  have hgone := linkOf_set_self (h := h) n hi
  have hother (k : InstanceId) (hk : n ≠ k) := linkOf_set_ne (h := h) i hk
  have hstore (k : InstanceId) (hk : n ≠ k) :
      Host.store { h with instances := h.instances.set n i } k = h.store k :=
    store_congr (by rfl) (by rfl) (hother k hk)
  have hlinked {k : InstanceId} {l : Link}
      (hl : Host.linkOf { h with instances := h.instances.set n i } k = some l) :
      h.linkOf k = some l := by
    by_cases hk : n = k
    · subst hk
      rw [hgone] at hl
      cases hl
    · rwa [hother k hk] at hl
  have hseat (k : InstanceId) (j : Nat)
      (hj : Host.seat { h with instances := h.instances.set n i } k = some j) :
      h.seat k = some j := by
    obtain ⟨l, hl, hat⟩ := seat_eq.1 hj
    exact seat_eq.2 ⟨l, hlinked hl, (interpAt_congr rfl l).symm.trans hat⟩
  -- What can still be seen was seen before.
  have htorn (k : InstanceId) (t : Table ObjectId ObjectIndex)
      (ht : Host.store { h with instances := h.instances.set n i } k = some t) :
      h.store k = some t := by
    by_cases hk : n = k
    · subst hk
      rw [store_of_linkOf_none hgone] at ht
      cases ht
    · rwa [hstore k hk] at ht
  refine ⟨⟨fun k l hl => ?_, fun k k' j hk hk' => hw.apart k k' j (hseat k j hk) (hseat k' j hk')⟩,
    ⟨.refl _, ?_, fun k _ hxk => hstore k fun he => hxk (he ▸ hx), fun k t _ => htorn k t,
      fun k t hk ht => absurd (store_lt (htorn k t ht)) (Nat.not_lt.2 hk)⟩⟩
  · obtain ⟨j, hj⟩ := hw.serves k l (hlinked hl)
    exact ⟨j, hj.congr rfl rfl⟩
  · exact Nat.le_of_eq (List.length_set ..).symm

/-- What is seen of the instances alone is not touched. -/
theorem settles_congr (hm : h'.machine = h.machine) (hc : h'.channels = h.channels)
    (hi : h'.instances = h.instances) : h.Settles X h' := by
  intro hw
  have hlink (n : InstanceId) : h'.linkOf n = h.linkOf n := by rw [linkOf, linkOf, hi]
  have hseat (n : InstanceId) : h'.seat n = h.seat n := seat_congr hc (hlink n)
  have hstore (n : InstanceId) : h'.store n = h.store n := store_congr hm hc (hlink n)
  refine ⟨⟨fun n l hl => ?_, fun n n' k hn hn' => ?_⟩, ⟨?_, ?_, fun n _ _ => hstore n,
    fun n t _ ht => (hstore n).symm.trans ht, fun n t hn ht => ?_⟩⟩
  · rw [hlink] at hl
    obtain ⟨k, hk⟩ := hw.serves n l hl
    exact ⟨k, hk.congr hm hc⟩
  · rw [hseat] at hn hn'
    exact hw.apart n n' k hn hn'
  · rw [hm]
    exact .refl _
  · exact Nat.le_of_eq (by rw [hi])
  · rw [hstore] at ht
    exact absurd (store_lt ht) (Nat.not_lt.2 hn)

theorem Wired.congr (hw : h.Wired) (hm : h'.machine = h.machine) (hc : h'.channels = h.channels)
    (hi : h'.instances = h.instances) : h'.Wired :=
  (settles_congr (X := fun _ => False) hm hc hi hw).1

end Host

namespace Instance

open Host

variable {i : Instance} {S T : Nat → Prop} {h : Host}

theorem spares_teardown (hS : ∀ l k, i.link = some l → h.interpAt l = some k → ¬ S k)
    (hT : ∀ c, i.link = some (.channel c) → ¬ T c) : h.Spares S T (runOn h i.teardown).2 := by
  have hstep {l : LoaderId} {image : Nat} {what : String} {x : HostM Unit}
      (hx : h.Spares S T (runOn h x).2) :
      h.Spares S T (runOn h (teardownStep l image what x)).2 := by
    refine bind_rel (x := outcome x) hx fun r h' _ => ?_
    cases r with
    | ok u => exact .refl _
    | error e => exact (within_record _).bind (fun _ => within_throw _) h'
  unfold teardown
  split
  · exact .refl h
  · rename_i image himage
    split
    · exact within_record _ h
    · rename_i link hl
      refine bind_rel (hstep (Link.spares_finalize (fun k => hS link k hl) ?_)) fun _ h' _ => ?_
      · rintro c rfl
        exact hT c hl
      · -- The rest of the teardown concerns the image alone.
        have hflush : Within (Host.Spares S T)
            (teardownStep i.loader image "flushing native libraries" (flush i.loader image)) := by
          refine (within_flush _ _).outcome.bind fun r => ?_
          cases r with
          | ok u => exact within_pure _
          | error e => exact (within_record _).bind fun _ => within_throw _
        split
        · exact (hflush.bind fun _ => within_record _) h'
        · exact within_record _ h'

/-- Tearing an instance down spares all interpreters and channels but its own. -/
theorem spares_close (hS : ∀ l k, i.link = some l → h.interpAt l = some k → ¬ S k)
    (hT : ∀ c, i.link = some (.channel c) → ¬ T c) : h.Spares S T (runOn h i.close).2 :=
  bind_rel (x := outcome i.teardown) (spares_teardown hS hT) fun _ h' _ =>
    ((within_release _).bind fun _ => within_settle _) h'

end Instance

namespace Host

variable {X : InstanceId → Prop} {h h' : Host}

/-- Tearing an instance down leaves the stores of all others as they are. -/
theorem settles_closeInstance {n : InstanceId} (hx : X n) :
    Within (Settles X) (closeInstance n) := by
  intro h hw
  rcases find_cases (fun h => h.instances[n]?) h with ⟨-, hr⟩ | ⟨i, hi, hr⟩
  · rw [closeInstance, getInstance, runOn_bind_error hr]
    exact ⟨hw, .refl h⟩
  · rw [closeInstance, getInstance, runOn_bind_ok hr]
    have hunlink := settles_unlink hw hx i.spent rfl
    have hown (l : Link) (hl : i.link = some l) : h.linkOf n = some l := by
      rw [linkOf, hi]
      exact hl
    have hkept {k : InstanceId} {l : Link}
        (hl : Host.linkOf { h with instances := h.instances.set n i.spent } k = some l) :
        n ≠ k ∧ h.linkOf k = some l := by
      by_cases hk : n = k
      · subst hk
        rw [linkOf_set_self n rfl] at hl
        cases hl
      · rw [linkOf_set_ne _ hk] at hl
        exact ⟨hk, hl⟩
    -- Another instance has another interpreter, so nothing of it is lost.
    have hclose : Host.Spares (fun k => ∀ l, i.link = some l → h.interpAt l ≠ some k)
        (fun c => i.link ≠ some (.channel c)) { h with instances := h.instances.set n i.spent }
        (runOn { h with instances := h.instances.set n i.spent } i.close).2 := by
      refine Instance.spares_close (fun l k hl hk hS => ?_) fun c hc hT => hT hc
      exact hS l hl ((interpAt_congr rfl l).symm.trans hk)
    have hsettle := hunlink.1.of_spares (X := X) hclose ?_ ?_
    · exact ⟨hsettle.1, hunlink.2.trans hsettle.2⟩
    · intro n' k hn' l hl hk
      obtain ⟨l', hl', hat⟩ := seat_eq.1 hn'
      obtain ⟨hne, hlink⟩ := hkept hl'
      refine hne (hw.apart n n' k (seat_eq.2 ⟨l, hown l hl, hk⟩) (seat_eq.2 ⟨l', hlink, ?_⟩))
      exact (interpAt_congr rfl l').symm.trans hat
    · intro n' c hn' hc
      obtain ⟨hne, hlink⟩ := hkept hn'
      obtain ⟨k, hk⟩ := hw.serves n' _ hlink
      exact hne (hw.apart n n' k (seat_eq.2 ⟨_, hown _ hc, hk.interpAt⟩)
        (seat_eq.2 ⟨_, hlink, hk.interpAt⟩))

/-- All that there is lies below the next interpreter and the next channel. -/
theorem above_length (h : Host) : h.Above h.machine.interps.length h.channels.length where
  interps := Nat.le_refl _
  channels := Nat.le_refl _
  leads _ _ _ hc he := absurd (List.getElem?_eq_some_iff.1 he).1 (Nat.not_lt.2 hc)

theorem Serves.lt {l : Link} {k : Nat} (hs : h.Serves l k) : k < h.machine.interps.length := by
  obtain ⟨i, hi, -⟩ := hs.interp
  exact (List.getElem?_eq_some_iff.1 hi).1

/-- What happens above all that there is leaves the instances wired as they are. -/
theorem settles_of_below
    (hs : h.SparesBelow h.machine.interps.length h.channels.length h') : h.Settles X h' := by
  intro hw
  refine hw.of_spares (hs h.above_length).2 (fun n k hn => ?_) fun n c hn => ?_
  · obtain ⟨l, hl, hat⟩ := seat_eq.1 hn
    obtain ⟨k', hk'⟩ := hw.serves n l hl
    obtain rfl := Option.some.inj (hat.symm.trans hk'.interpAt)
    exact hk'.lt
  · obtain ⟨k, hk⟩ := hw.serves n _ hn
    obtain ⟨e, he⟩ := hk.live c rfl
    exact (List.getElem?_eq_some_iff.1 he).1

theorem Wired.seat_lt (hw : h.Wired)
    (hs : h.SparesBelow h.machine.interps.length h.channels.length h') {n : InstanceId} {k : Nat}
    (hn : h'.seat n = some k) : k < h.machine.interps.length := by
  have hspares := (hs h.above_length).2
  obtain ⟨l, hl, hat⟩ := seat_eq.1 hn
  rw [hspares.toSameBooks.linkOf] at hl
  obtain ⟨k', hk'⟩ := hw.serves n l hl
  obtain rfl := Option.some.inj (hat.symm.trans (hspares.interpAt hk'.interpAt))
  exact hk'.lt

/-- An instance is added that was loaded meanwhile. -/
theorem settles_addLoaded (hs : h.SparesBelow h.machine.interps.length h.channels.length h')
    {i : Instance} {l : Link} {k : Nat} (hl : i.link = some l) (hk : h'.Serves l k)
    (hle : h.machine.interps.length ≤ k)
    (hempty : ∃ j, h'.machine.interps[k]? = some j ∧ j.loaded = Table.empty) :
    h.Settles X (runOn h' (addInstance i)).2 := by
  intro hw
  obtain ⟨hw', hs'⟩ := settles_of_below (X := X) hs hw
  obtain ⟨hw'', hs''⟩ := settles_add (X := X) hw' hl hk
    (fun n hn => absurd (hw.seat_lt hs hn) (Nat.not_lt.2 hle)) hempty
  exact ⟨hw'', hs'.trans hs''⟩

theorem settles_loadInstance (number : Nat) (spec : ImageSpec) (env : EnvironmentId) :
    Within (Settles X) (loadInstance number spec env) := by
  intro h
  have hb := Instance.below_load (K := h.machine.interps.length) (C := h.channels.length)
    number spec env h
  rcases hr : runOn h (Instance.load number spec env) with ⟨e | i, h'⟩
  · rw [hr] at hb
    rw [loadInstance, runOn_bind_error hr]
    exact settles_of_below hb
  · rw [hr] at hb
    rw [loadInstance, runOn_bind_ok hr]
    obtain ⟨l, k, hl, hk, hle, hempty, -⟩ := Instance.load_ok hr
    exact settles_addLoaded hb hl hk hle hempty

theorem settles_loadMember (spec : ManagerSpec) (registry number : Nat) :
    Within (Settles X) (loadMember spec registry number) := by
  intro h
  have hb := Instance.below_load (K := h.machine.interps.length) (C := h.channels.length)
    number spec.image spec.environment h
  rcases hr : runOn h (Instance.load number spec.image spec.environment) with ⟨e | i, h₁⟩
  · rw [hr] at hb
    rw [loadMember, runOn_bind_error hr]
    exact settles_of_below hb
  · rw [hr] at hb
    rw [loadMember, runOn_bind_ok hr]
    obtain ⟨l, k, hl, hk, hle, ⟨j, hj, hempty⟩, hfrom⟩ := Instance.load_ok hr
    -- If the instance cannot be adopted it is closed, which concerns its own interpreter alone.
    have hclose := Instance.below_close (i := i) fun l' hl' => by
      rw [hl] at hl'
      cases hl'
      exact hfrom
    have hadopt : h₁.SparesBelow _ _ _ :=
      ((within_below (i.within_adopt registry)).onFailure hclose.ignoring) h₁
    have hb' := Frame.trans (R := SparesBelow _ _) hb hadopt
    rcases ha : runOn h₁ (onFailure (i.adopt registry) (ignoring i.close)) with ⟨e | u, h₂⟩
    · rw [ha] at hb'
      rw [runOn_bind_error ha]
      exact settles_of_below hb'
    · rw [ha] at hb'
      rw [runOn_bind_ok ha]
      have hs := (i.within_adopt (S := fun _ => True) (T := fun _ => True) registry).of_eq
        (onFailure_ok ha)
      -- To be adopted does not load anything.
      obtain ⟨j', hj', halike⟩ := hs.machine.interp k j trivial hj
      exact settles_addLoaded hb' hl (hk.of_spares hs trivial fun _ _ => trivial) hle
        ⟨j', hj', halike.loaded.trans hempty⟩

/-- If a member fails, those loaded before are torn down again. -/
theorem settles_loadMembers (spec : ManagerSpec) (registry : Nat) {N : Nat}
    (loaded : List InstanceId) (number count : Nat) (h : Host) (hl : ∀ n ∈ loaded, N ≤ n)
    (hn : N ≤ h.instances.length) :
    h.Settles (N ≤ ·) (runOn h (loadMembers spec registry loaded number count)).2 := by
  induction count generalizing loaded number h with
  | zero => exact Frame.refl h
  | succ count ih =>
    refine bind_rel ?_ fun n h' hr => ?_
    · have hdrop := within_dropInstances fun n hn => settles_closeInstance (hl n hn)
      exact ((settles_loadMember spec registry number).onFailure hdrop) h
    · have hb := (builds_loadMember spec registry number).of_eq (onFailure_ok hr) hn
      obtain ⟨rfl, -⟩ := loadMember_ok (onFailure_ok hr)
      refine ih _ _ h' (fun k hk => ?_) (Nat.le_trans hn hb.length_le)
      rcases List.mem_append.1 hk with hk | hk
      · exact hl k hk
      · rw [List.mem_singleton] at hk
        rw [hk]
        exact hn

theorem settles_buildManager (spec : ManagerSpec) : Within (Settles X) (buildManager spec) := by
  intro h hw
  have hsettle : h.Settles (h.instances.length ≤ ·) (runOn h (buildManager spec)).2 := by
    unfold buildManager
    split
    · exact Frame.refl h
    · refine bind_rel (x := addRegistry _) (settles_congr rfl rfl rfl) fun registry h₁ hr => ?_
      cases hr
      refine bind_rel (settles_loadMembers spec _ [] 0 spec.count _ nofun (Nat.le_refl _)) ?_
      intro instances h₂ _
      refine bind_rel ?_ fun balancer h₃ _ => settles_congr rfl rfl rfl
      rw [addBalancer, runOn_of]
      split
      · exact Frame.refl h₂
      · exact settles_congr rfl rfl rfl
  obtain ⟨hw', hs⟩ := hsettle hw
  exact ⟨hw', hs.mono fun n hn hle => absurd hn (Nat.not_lt.2 hle)⟩

end Host

end InstancePool
