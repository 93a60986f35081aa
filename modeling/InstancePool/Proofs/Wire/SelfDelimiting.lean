import InstancePool.Proofs.Wire.Decoding
import Mathlib.Logic.ExistsUnique

/-!
Decoders need no bytes but those that they read. A message is decoded off a first part of the bytes, all
of which it takes, and only what ends too early is said to do so; every other error is there whatever
follows. This holds of all bytes, also where numbers have superfluous groups or lengths promise too much.
-/

namespace InstancePool.Wire

variable {α β : Type} {d : Decoder α} {bs rest : List UInt8} {a : α} {e : DecodeError}

theorem Decoder.bind_of_ok (h : d bs = .ok (a, rest)) (f : α → Decoder β) :
    (d >>= f) bs = f a rest := by
  change (d bs >>= fun x => f x.1 x.2) = _
  rw [h]
  rfl

theorem Decoder.bind_of_error (h : d bs = .error e) (f : α → Decoder β) :
    (d >>= f) bs = .error e := by
  change (d bs >>= fun x => f x.1 x.2) = _
  rw [h]
  rfl

/-- A decoder reads some bytes off the front and needs all of them, or it fails; unless it came to the end
of the bytes, it fails the same way if there are more. -/
structure Delimits (d : Decoder α) : Prop where
  ok : ∀ bs a rest, d bs = .ok (a, rest) → ∃ used, bs = used ++ rest ∧ Reads d used a ∧
    ∀ j < used.length, d (used.take j) = .error .endOfBuffer
  error : ∀ bs e, d bs = .error e → e ≠ .endOfBuffer → ∀ more, d (bs ++ more) = .error e

theorem delimits_pure (a : α) : Delimits (pure a) where
  ok bs b rest h := by
    cases h
    exact ⟨[], rfl, Reads.ret a, fun j hj => absurd hj (Nat.not_lt_zero j)⟩
  error bs e h := by cases h

theorem delimits_fail (e : DecodeError) : Delimits (Decoder.fail e : Decoder α) where
  ok bs a rest h := by cases h
  error bs e' h _ _ := h

theorem delimits_byte : Delimits Decoder.byte where
  ok bs n rest h := by
    cases bs with
    | nil => cases h
    | cons b bs =>
      cases h
      refine ⟨[b], rfl, reads_byte b, fun j hj => ?_⟩
      obtain rfl : j = 0 := Nat.lt_one_iff.1 hj
      rfl
  error bs e h he := by
    cases bs with
    | nil =>
      cases h
      exact absurd rfl he
    | cons b bs => cases h

/-- Bytes are taken in one go, and all of them have to be there. -/
theorem delimits_take (n : Nat) : Delimits (Decoder.take n) where
  ok bs data rest h := by
    unfold Decoder.take at h
    split at h
    · cases h
    · rename_i hn
      cases h
      have hlen : (bs.take n).length = n := by
        rw [List.length_take]
        omega
      refine ⟨bs.take n, (List.take_append_drop n bs).symm, ?_, fun j hj => ?_⟩
      · have hread := reads_take (bs.take n)
        rwa [hlen] at hread
      · have hshort : ((bs.take n).take j).length < n := by
          rw [List.length_take]
          omega
        exact if_pos hshort
  error bs e h he := by
    unfold Decoder.take at h
    split at h
    · cases h
      exact absurd rfl he
    · cases h

theorem Delimits.bind {f : α → Decoder β} (hd : Delimits d) (hf : ∀ a, Delimits (f a)) :
    Delimits (d >>= f) where
  ok bs b rest h := by
    rcases hr : d bs with e | ⟨a, mid⟩
    · rw [Decoder.bind_of_error hr] at h
      cases h
    · rw [Decoder.bind_of_ok hr] at h
      obtain ⟨first, rfl, hfirst, hshort⟩ := hd.ok bs a mid hr
      obtain ⟨second, rfl, hsecond, hshort'⟩ := (hf a).ok mid b rest h
      refine ⟨first ++ second, (List.append_assoc ..).symm, hfirst.bind hsecond, fun j hj => ?_⟩
      -- The bytes end in the first part, or the first part is read and they end in the second.
      by_cases hj' : j < first.length
      · rw [List.take_append_of_le_length (Nat.le_of_lt hj')]
        exact Decoder.bind_of_error (hshort j hj') f
      · rw [List.length_append] at hj
        have htake : (first ++ second).take j = first ++ second.take (j - first.length) := by
          rw [List.take_append, List.take_of_length_le (Nat.le_of_not_lt hj')]
        rw [htake, hfirst.first]
        exact hshort' _ (by omega)
  error bs e h he more := by
    -- Either reader may be the one that fails; what the first one has read does not matter to it.
    rcases hr : d bs with e' | ⟨a, mid⟩
    · rw [Decoder.bind_of_error hr] at h
      cases h
      exact Decoder.bind_of_error (hd.error bs e hr he more) f
    · rw [Decoder.bind_of_ok hr] at h
      obtain ⟨first, rfl, hfirst, -⟩ := hd.ok bs a mid hr
      rw [List.append_assoc, hfirst.first]
      exact (hf a).error mid e h he more

theorem Delimits.map (hd : Delimits d) (f : α → β) : Delimits (f <$> d) := by
  rw [map_eq_pure_bind]
  exact hd.bind fun a => delimits_pure (f a)

theorem Delimits.replicate (hd : Delimits d) (n : Nat) : Delimits (Decoder.replicate d n) := by
  induction n with
  | zero => exact delimits_pure []
  | succ n ih => exact hd.bind fun a => ih.bind fun as => delimits_pure (a :: as)

/-- The groups of a number need not be as few as they can be. -/
theorem delimits_varint (last more : Nat) : Delimits (varint last more) := by
  induction more with
  | zero =>
    refine delimits_byte.bind fun b => ?_
    split
    · exact delimits_pure b
    · exact delimits_fail .badVarint
  | succ more ih =>
    refine delimits_byte.bind fun b => ?_
    split
    · exact delimits_pure b
    · exact ih.bind fun high => delimits_pure _

theorem delimits_nat64 : Delimits nat64 := delimits_varint 1 9

theorem delimits_nat32 : Delimits nat32 := delimits_varint 15 4

theorem delimits_bool : Delimits bool := by
  refine delimits_byte.bind fun b => ?_
  split
  · exact delimits_pure false
  · exact delimits_pure true
  · exact delimits_fail .badBool

/-- The length of some bytes promises them, whether they are there or not. -/
theorem delimits_bytes : Delimits bytes := delimits_nat64.bind delimits_take

theorem delimits_text : Delimits text := by
  refine delimits_bytes.bind fun data => ?_
  split
  · exact delimits_pure _
  · exact delimits_fail .badText

theorem Delimits.option (hd : Delimits d) : Delimits (Wire.option d) := by
  refine delimits_byte.bind fun b => ?_
  split
  · exact delimits_pure none
  · exact hd.map some
  · exact delimits_fail .badOption

theorem Delimits.list (hd : Delimits d) : Delimits (Wire.list d) := delimits_nat64.bind hd.replicate

/-- The induction is on the number of nested lists that are still allowed. -/
theorem delimits_value (depth : Nat) : Delimits (value depth) := by
  unfold value
  refine delimits_nat32.bind fun tag => ?_
  split
  · exact delimits_pure _
  · exact delimits_bool.map _
  · exact delimits_nat64.map _ |>.map _
  · exact (delimits_take 8).map _ |>.map _
  · exact delimits_text.map _
  · cases depth with
    | zero => exact delimits_fail .malformed
    | succ depth => exact (delimits_value depth).list.map _
  · exact delimits_fail .malformed

theorem delimits_key : Delimits key := delimits_nat64.map _ |>.map _

theorem delimits_objectId : Delimits objectId := delimits_nat64.map _ |>.map _

theorem delimits_ref : Delimits ref :=
  delimits_key.bind fun _ => (delimits_nat32.map _).bind fun _ => delimits_pure _

theorem delimits_op (depth index : Nat) : Delimits (op depth index) := by
  unfold op
  split
  · exact delimits_text.bind fun _ => delimits_text.bind fun _ => delimits_pure _
  · exact delimits_text.map _
  · exact (delimits_value depth).map _
  · exact delimits_ref.map _
  · exact delimits_ref.bind fun _ => delimits_text.bind fun _ => delimits_pure _
  · exact delimits_ref.bind fun _ => delimits_text.bind fun _ => delimits_ref.bind fun _ =>
      delimits_pure _
  · exact delimits_ref.bind fun _ => delimits_ref.list.bind fun _ => delimits_pure _
  · exact delimits_ref.map _
  · exact delimits_ref.option.bind fun _ => delimits_ref.bind fun _ => delimits_pure _
  · exact delimits_objectId.bind fun _ => delimits_bytes.bind fun _ => delimits_pure _
  · exact delimits_objectId.map _
  · exact delimits_fail .malformed

theorem delimits_request (depth : Nat) : Delimits (request depth) := by
  refine delimits_nat32.bind fun index => ?_
  split
  · exact delimits_pure _
  · split
    · exact delimits_key.map _
    · split
      · exact delimits_key.bind fun session => (delimits_op depth index).map _
      · exact delimits_fail .malformed

theorem delimits_response (depth : Nat) : Delimits (response depth) := by
  refine delimits_nat32.bind fun index => ?_
  split
  · exact delimits_pure _
  · exact delimits_key.map _
  · exact delimits_ref.map _
  · exact (delimits_value depth).map _
  · exact delimits_bool.map _
  · exact delimits_bytes.map _
  · exact delimits_fail .malformed

theorem delimits_fault : Delimits fault := by
  refine Delimits.bind (delimits_nat32.bind fun index => ?_) fun _ =>
    delimits_text.bind fun _ => delimits_pure _
  split
  · exact delimits_pure _
  · exact delimits_pure _
  · exact delimits_pure _
  · exact delimits_pure _
  · exact delimits_fail .malformed

theorem delimits_reply (depth : Nat) : Delimits (reply depth) := by
  refine delimits_nat32.bind fun index => ?_
  split
  · exact (delimits_response depth).map _
  · exact delimits_fault.map _
  · exact delimits_fail .malformed

/-- A way to decode whole messages that can tell where one ends. If it succeeds, then a first part of the
bytes decides, to which nothing can be added and from whose end nothing can be taken away; if it fails,
then because the bytes ended too early, or whatever follows. -/
structure SelfDelimiting (decode : List UInt8 → Except DecodeError α) : Prop where
  accepts : ∀ bs a, decode bs = .ok a → ∃! k, k ≤ bs.length ∧
    (∀ rest, decode (bs.take k ++ rest) = .ok a) ∧
    ∀ j < k, decode (bs.take j) = .error .endOfBuffer
  refuses : ∀ bs e, decode bs = .error e → e ≠ .endOfBuffer → ∀ rest, decode (bs ++ rest) = .error e

theorem Delimits.run (hd : Delimits d) : SelfDelimiting d.run where
  accepts bs a h := by
    rcases hr : d bs with e | ⟨b, rest⟩
    · rw [Decoder.run, hr] at h
      cases h
    · rw [Decoder.run, hr] at h
      cases h
      obtain ⟨used, rfl, hread, hshort⟩ := hd.ok bs b rest hr
      have htake (j : Nat) (hj : j ≤ used.length) : (used ++ rest).take j = used.take j :=
        List.take_append_of_le_length hj
      -- The bytes that were read are the part that decides.
      have hused : (used ++ rest).take used.length = used := List.take_left
      have hearly (j : Nat) (hj : j < used.length) :
          d.run ((used ++ rest).take j) = .error .endOfBuffer := by
        rw [htake j (Nat.le_of_lt hj), Decoder.run, hshort j hj]
        rfl
      refine ⟨used.length, ⟨?_, fun more => ?_, hearly⟩, ?_⟩
      · rw [List.length_append]
        omega
      · rw [hused]
        exact hread.run more
      · -- Of two such lengths, the part of the shorter one would be too short for the longer one.
        rintro k ⟨-, hk, hbefore⟩
        rcases Nat.lt_trichotomy k used.length with hlt | heq | hlt
        · have hok := hk []
          rw [List.append_nil, hearly k hlt] at hok
          cases hok
        · exact heq
        · have herr := hbefore used.length hlt
          rw [hused, ← List.append_nil used, hread.run] at herr
          cases herr
  refuses bs e h he rest := by
    rcases hr : d bs with e' | ⟨b, mid⟩
    · rw [Decoder.run, hr] at h
      cases h
      rw [Decoder.run, hd.error bs e hr he rest]
      rfl
    · rw [Decoder.run, hr] at h
      cases h

/-- Values, requests and replies delimit themselves, whatever bytes they are decoded from. -/
theorem messages_selfDelimiting :
    SelfDelimiting decodeValue ∧ SelfDelimiting decodeRequest ∧ SelfDelimiting decodeReply :=
  ⟨(delimits_value _).run, (delimits_request _).run, (delimits_reply _).run⟩

/-- A list whose number has a superfluous group promises two values: one byte less than all is too few,
and one more is ignored. -/
example : decodeValue [5, 130, 0, 0, 1, 1, 9] = .ok (.list [.null, .bool true]) ∧
    decodeValue [5, 130, 0, 0, 1] = .error .endOfBuffer := by
  constructor <;> cbv

end InstancePool.Wire
