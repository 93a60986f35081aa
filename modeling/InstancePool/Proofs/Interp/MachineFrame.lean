import InstancePool.Proofs.Channel.Transparency

/-!
What the interpreters of a machine keep. Whatever is done to one of them leaves the others as they
were, and only a few operations change what an interpreter has loaded.
-/

namespace InstancePool

/-- The same objects are loaded, and as many were read; neither or both are finalized. -/
structure Interp.Alike (i i' : Interp) : Prop where
  loaded : i'.loaded = i.loaded
  restores : i'.restores = i.restores
  finalized : i'.finalized = i.finalized

theorem Interp.Alike.refl (i : Interp) : i.Alike i := ⟨rfl, rfl, rfl⟩

theorem Interp.Alike.trans {i₁ i₂ i₃ : Interp} (h : i₁.Alike i₂) (h' : i₂.Alike i₃) :
    i₁.Alike i₃ where
  loaded := h'.loaded.trans h.loaded
  restores := h'.restores.trans h.restores
  finalized := h'.finalized.trans h.finalized

/-- Whether an operation can change what is loaded. -/
def Op.loads : Op → Bool
  | .restore .. | .unload _ => true
  | _ => false

def Request.loads : Request → Bool
  | .act _ op => op.loads
  | _ => false

/-- From a machine to a later one whose interpreters with numbers in `S` are alike. -/
structure Machine.Spares (S : Nat → Prop) (m m' : Machine) : Prop where
  heap : m.heap.Extends m'.heap
  length_le : m.interps.length ≤ m'.interps.length
  interp : ∀ k i, S k → m.interps[k]? = some i → ∃ i', m'.interps[k]? = some i' ∧ i.Alike i'

namespace Engine

variable {source : TextSource} {key : SessionKey} {op : Op} {e : Engine}

/-- An operation that cannot change what is loaded does not. -/
theorem perform_alike (ho : op.loads = false) :
    e.interp.Alike (Engine.perform source key op e).2.interp := by
  have hp := perform_performed source key op e
  generalize Engine.perform source key op e = x at hp
  cases hp with
  | unknown hk => exact .refl _
  | missed f =>
    obtain ⟨heap, modules, he, -⟩ := findModule_cases source _ e
    rw [he]
    exact ⟨rfl, rfl, rfl⟩
  | found hk =>
    obtain ⟨heap, modules, he, -⟩ := findModule_cases source _ e
    rw [he]
    exact ⟨rfl, rfl, rfl⟩
  | failed f => exact .refl _
  | done hk hd =>
    cases hd with
    | restored v hn hv => cases ho
    | unloaded => cases ho
    | _ => exact ⟨rfl, rfl, rfl⟩

end Engine

namespace Machine

variable {S T : Nat → Prop} {m m₁ m₂ m₃ : Machine} {n : Nat} {i i' : Interp}

theorem Spares.refl (m : Machine) : m.Spares S m :=
  ⟨.refl _, Nat.le_refl _, fun _ i _ hi => ⟨i, hi, .refl i⟩⟩

theorem Spares.trans (h : m₁.Spares S m₂) (h' : m₂.Spares S m₃) : m₁.Spares S m₃ where
  heap := h.heap.trans h'.heap
  length_le := Nat.le_trans h.length_le h'.length_le
  interp k i hk hi := by
    obtain ⟨i', hi', ha⟩ := h.interp k i hk hi
    obtain ⟨i'', hi'', ha'⟩ := h'.interp k i' hk hi'
    exact ⟨i'', hi'', ha.trans ha'⟩

/-- Replacing one interpreter by one that is alike, if it is to be spared. -/
theorem spares_set (hi : m₁.interps[n]? = some i) (hh : m₁.heap.Extends m₂.heap)
    (hs : m₂.interps = m₁.interps.set n i') (ha : S n → i.Alike i') : m₁.Spares S m₂ where
  heap := hh
  length_le := Nat.le_of_eq (by rw [hs, List.length_set])
  interp k j hk hj := by
    obtain ⟨j', hj', halike⟩ :=
      interps_set (P := fun k j j' => S k → j.Alike j') hi hs ha (fun _ j _ => .refl j) k j hj
    exact ⟨j', hj', halike hk⟩

theorem spares_openSession (n : Nat) (m : Machine) : m.Spares S (m.openSession n).2 := by
  unfold openSession
  cases hi : m.interps[n]? with
  | none => exact .refl m
  | some i =>
    simp only []
    split
    · exact .refl m
    · exact spares_set hi (.refl _) rfl fun _ => ⟨rfl, rfl, rfl⟩

theorem spares_closeSession (n : Nat) (key : SessionKey) (m : Machine) :
    m.Spares S (m.closeSession n key) := by
  unfold closeSession
  cases hi : m.interps[n]? with
  | none => exact .refl m
  | some i => exact spares_set hi (.refl _) rfl fun _ => ⟨rfl, rfl, rfl⟩

theorem spares_setResolver (n : Nat) (r : Resolver) (m : Machine) :
    m.Spares S (m.setResolver n r) := by
  unfold setResolver
  cases hi : m.interps[n]? with
  | none => exact .refl m
  | some i => exact spares_set hi (.refl _) rfl fun _ => ⟨rfl, rfl, rfl⟩

theorem spares_record (entry : JournalEntry) (m : Machine) : m.Spares S (m.record entry) :=
  ⟨.refl _, Nat.le_refl _, fun _ i _ hi => ⟨i, hi, .refl i⟩⟩

theorem spares_create (searchPaths : List String) (failFinalize : Bool)
    (observer : Option Observer) (m : Machine) :
    m.Spares S (m.create searchPaths failFinalize observer).2 where
  heap := Interp.extends_create m.heap searchPaths failFinalize observer
  length_le := by simp only [create, List.length_append]; omega
  interp k i _ hi := by
    have hk : k < m.interps.length := (List.getElem?_eq_some_iff.1 hi).1
    exact ⟨i, by simp only [create, List.getElem?_append_left hk, hi], .refl i⟩

theorem spares_perform {op : Op} (ho : op.loads = true → ¬ S n) (source : TextSource)
    (key : SessionKey) (m : Machine) : m.Spares S (m.perform source n key op).2 := by
  cases hi : m.interps[n]? with
  | none =>
    simp only [perform, hi]
    exact .refl m
  | some i =>
    rw [perform_eq hi]
    refine spares_set hi (Engine.perform_extends source key op ⟨m.heap, i⟩) rfl fun hn => ?_
    cases hl : op.loads with
    | true => exact absurd hn (ho hl)
    | false => exact Engine.perform_alike (e := ⟨m.heap, i⟩) hl

theorem spares_finalize (hn : ¬ S n) (m : Machine) : m.Spares S (m.finalize n).2 := by
  unfold finalize
  cases hi : m.interps[n]? with
  | none => exact .refl m
  | some i =>
    simp only []
    split
    · exact spares_set hi (.refl _) rfl fun h => absurd h hn
    · exact spares_set hi (.refl _) rfl fun h => absurd h hn

end Machine

namespace Wire

/-- Whatever a decoder makes of bytes has a property. -/
def Decoder.Yields {α : Type} (d : Decoder α) (P : α → Prop) : Prop :=
  ∀ bs a rest, d bs = .ok (a, rest) → P a

theorem Decoder.yields_pure {α : Type} {P : α → Prop} {a : α} (ha : P a) :
    Decoder.Yields (pure a) P := by
  intro bs b rest h
  cases h
  exact ha

theorem Decoder.yields_bind {α β : Type} {P : β → Prop} {d : Decoder α} {f : α → Decoder β}
    (hf : ∀ a, (f a).Yields P) : (d >>= f).Yields P := by
  intro bs b rest h
  obtain ⟨⟨a, bs'⟩, -, h⟩ := Except.bind_ok (x := d bs) (f := fun p => f p.1 p.2) h
  exact hf a bs' b rest h

theorem Decoder.Yields.map {α β : Type} {P : α → Prop} {Q : β → Prop} {d : Decoder α} {f : α → β}
    (hd : d.Yields P) (hf : ∀ a, P a → Q (f a)) : (f <$> d).Yields Q := by
  rw [map_eq_pure_bind]
  intro bs b rest h
  obtain ⟨⟨a, bs'⟩, ha, h⟩ := Except.bind_ok (x := d bs) (f := fun p => .ok (f p.1, p.2)) h
  cases h
  exact hf a (hd bs a bs' ha)

theorem Decoder.yields_map {α β : Type} {P : β → Prop} {d : Decoder α} {f : α → β}
    (hf : ∀ a, P (f a)) : (f <$> d).Yields P := by
  rw [map_eq_pure_bind]
  exact yields_bind fun a => yields_pure (hf a)

open Decoder in
/-- What is read as an operation has the number under which it was read. -/
theorem yields_op (depth index : Nat) : (op depth index).Yields fun o => opIndex o = index := by
  unfold op
  split
  · exact yields_bind fun _ => yields_bind fun _ => yields_pure rfl
  · exact yields_map fun _ => rfl
  · exact yields_map fun _ => rfl
  · exact yields_map fun _ => rfl
  · exact yields_bind fun _ => yields_bind fun _ => yields_pure rfl
  · exact yields_bind fun _ => yields_bind fun _ => yields_bind fun _ => yields_pure rfl
  · exact yields_bind fun _ => yields_bind fun _ => yields_pure rfl
  · exact yields_map fun _ => rfl
  · exact yields_bind fun _ => yields_bind fun _ => yields_pure rfl
  · exact yields_bind fun _ => yields_bind fun _ => yields_pure rfl
  · exact yields_map fun _ => rfl
  · intro bs o rest h
    cases h

theorem loads_eq_of_opIndex {o o' : Op} (h : opIndex o' = opIndex o) : o'.loads = o.loads := by
  cases o <;> cases o' <;> first | rfl | cases h

theorem opIndex_bounds (o : Op) : 2 ≤ opIndex o ∧ opIndex o ≤ 12 := by
  cases o <;> simp [opIndex]

/-- The number of a request and its session are read back whatever follows them. -/
theorem request_act (depth : Nat) (key : SessionKey) (o : Op) (content : List UInt8) :
    request depth (bytesOfNat32 (opIndex o) ++ bytesOfKey key ++ content) =
      (Request.act key <$> op depth (opIndex o)) content := by
  have ho := opIndex_bounds o
  have hk : opIndex o < 2 ^ 32 := by omega
  rw [List.append_assoc, request, (reads_nat32 hk).first, if_neg (by omega), if_neg (by omega),
    if_pos ho.2, (reads_key key).first]

theorem decodeRequest_ok {bs : List UInt8} {r : Request} (h : decodeRequest bs = .ok r) :
    ∃ rest, request Value.maxDepth bs = .ok (r, rest) := Decoder.run_eq_ok.1 h

/-- Whatever becomes of a request in its written form, however long, it does not turn into one that
changes what is loaded. -/
theorem loads_of_decodeRequest {r r' : Request} {bs : List UInt8} (h : encodeRequest r = .ok bs)
    (h' : decodeRequest bs = .ok r') : r'.loads = r.loads := by
  obtain ⟨rest, hrun⟩ := decodeRequest_ok h'
  cases r with
  | openSession =>
    obtain rfl := Except.ok.inj h
    cases hrun
    rfl
  | closeSession key =>
    obtain rfl := Except.ok.inj h
    have hk : 1 < 2 ^ 32 := by decide
    rw [request, (reads_nat32 hk).first] at hrun
    exact Decoder.yields_map (P := fun r => r.loads = false) (fun _ => rfl) _ _ _ hrun
  | act key o =>
    simp only [encodeRequest, requestBytes] at h
    rcases hc : opBytes Value.maxDepth o with e | content
    · rw [hc] at h
      cases h
    · rw [hc] at h
      obtain rfl := Except.ok.inj h
      rw [request_act] at hrun
      have ho := (yields_op Value.maxDepth (opIndex o)).map (f := Request.act key)
        (Q := fun r => r.loads = o.loads) fun _ => loads_eq_of_opIndex
      exact ho _ _ _ hrun

end Wire

/-- From a channel of an endpoint to a later one: the machine is spared as far as `S`, and the endpoint
still leads to the same interpreter. -/
structure Channel.Spares (S : Nat → Prop) (c c' : Channel (Machine × Endpoint)) : Prop where
  machine : c.peer.1.Spares S c'.peer.1
  interp : c'.peer.2.interp = c.peer.2.interp

namespace Channel

variable {S : Nat → Prop}

theorem Spares.refl (c : Channel (Machine × Endpoint)) : c.Spares S c := ⟨.refl _, rfl⟩

theorem spares_serve (source : TextSource) {m : Machine} {e : Endpoint} {r : Request}
    (hr : r.loads = true → ¬ S e.interp) :
    m.Spares S (Endpoint.serve source r (m, e)).2.1 ∧
      (Endpoint.serve source r (m, e)).2.2.interp = e.interp := by
  cases r with
  | openSession =>
    have hm := m.spares_openSession (S := S) e.interp
    simp only [Endpoint.serve]
    rcases h : m.openSession e.interp with ⟨cause | key, m'⟩
    · rw [h] at hm
      exact ⟨hm, rfl⟩
    · rw [h] at hm
      exact ⟨hm, rfl⟩
  | closeSession key =>
    simp only [Endpoint.serve]
    split
    · exact ⟨m.spares_closeSession e.interp key, rfl⟩
    · exact ⟨.refl m, rfl⟩
  | act key op =>
    simp only [Endpoint.serve]
    split
    · exact ⟨m.spares_perform hr source key, rfl⟩
    · exact ⟨.refl m, rfl⟩

theorem spares_call (source : TextSource) (c : Channel (Machine × Endpoint)) {r : Request}
    (hr : r.loads = true → ¬ S c.peer.2.interp) :
    c.Spares S (c.call (Endpoint.image source) r).2 ∧
      (c.call (Endpoint.image source) r).2.live = c.live := by
  unfold call
  split
  · split
    · exact ⟨.refl c, rfl⟩
    · rename_i bytes hb
      simp only [Endpoint.image, Endpoint.dispatch]
      cases hd : Wire.decodeRequest bytes with
      | error cause => exact ⟨.refl c, trivial⟩
      | ok r' =>
        -- What arrives is a request of the same kind, even if it is not the one that was sent.
        have hl := Wire.loads_of_decodeRequest hb hd
        have hs := spares_serve source (m := c.peer.1) (e := c.peer.2) (fun h => hr (hl ▸ h))
        simp only []
        cases Wire.encodeReply (Endpoint.serve source r' c.peer).1 <;>
          exact ⟨⟨hs.1, hs.2⟩, trivial⟩
  · exact ⟨.refl c, rfl⟩

end Channel

end InstancePool
