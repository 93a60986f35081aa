import InstancePool.Proofs.Channel.EndpointReplies
import InstancePool.Proofs.Wire.SelfDelimiting

/-!
The limit for nested lists is the same for writers and readers. Without it there is one format, which
knows no depth: its reader for values calls itself on ever fewer bytes. With it exactly those values,
requests and replies are written and read in which no more than `Value.maxDepth` lists are nested, in
whatever shape.
-/

namespace InstancePool

/-- The value that an operation carries. -/
def Op.carried? : Op → Option Value
  | .ofValue v => some v
  | _ => none

def Request.carried? : Request → Option Value
  | .act _ op => op.carried?
  | _ => none

/-- The value that a response carries. -/
def Response.carried? : Response → Option Value
  | .value v => some v
  | _ => none

def Reply.carried? : Reply → Option Value
  | .ok r => r.carried?
  | .error _ => none

namespace Wire

variable {α β : Type} {d e : Decoder α} {P : α → Prop} {n : Nat} {bs : List UInt8}

/-! ### The format without a limit -/

/-- Reads what a value has after the number of its constructor, the items of a list with `items`. -/
def contentOf (items : Decoder (List Value)) : Nat → Decoder Value
  | 0 => pure .null
  | 1 => .bool <$> bool
  | 2 => .int <$> int64
  | 3 => .float <$> float
  | 4 => .str <$> text
  | 5 => .list <$> items
  | _ => Decoder.fail .malformed

def valueOf (items : Decoder (List Value)) : Decoder Value := nat32 >>= contentOf items

/-- Reads a value with any number of nested lists. An item of a list always has fewer bytes before it than
the list. -/
def anyValue (bs : List UInt8) : Except DecodeError (Value × List UInt8) :=
  valueOf (list fun cs =>
    if _h : cs.length < bs.length then anyValue cs else .error .malformed) bs
termination_by bs.length

/-- Reads the operation with the given number, a value in it with `item`. -/
def opOf (item : Decoder Value) (index : Nat) : Decoder Op :=
  if index = 4 then .ofValue <$> item else op 0 index

def requestOf (item : Decoder Value) : Decoder Request := do
  let index ← nat32
  if index = 0 then pure .openSession
  else if index = 1 then .closeSession <$> key
  else if index ≤ 12 then do
    let session ← key
    .act session <$> opOf item index
  else Decoder.fail .malformed

def responseOf (item : Decoder Value) : Decoder Response := do
  match ← nat32 with
  | 0 => pure .unit
  | 1 => .session <$> key
  | 2 => .ref <$> ref
  | 3 => .value <$> item
  | 4 => .bool <$> bool
  | 5 => .bytes <$> bytes
  | _ => Decoder.fail .malformed

def replyOf (item : Decoder Value) : Decoder Reply := do
  match ← nat32 with
  | 0 => Except.ok <$> responseOf item
  | 1 => Except.error <$> fault
  | _ => Decoder.fail .malformed

/-- Where no list is allowed, none is read, not even an empty one. -/
theorem value_zero : value 0 = valueOf (Decoder.fail .malformed) := by
  unfold value valueOf
  congr 1

theorem value_succ (depth : Nat) : value (depth + 1) = valueOf (list (value depth)) := by
  conv_lhs => unfold value
  unfold valueOf
  congr 1

theorem op_eq (depth index : Nat) : op depth index = opOf (value depth) index := by
  unfold opOf
  split
  · rename_i hindex
    rw [hindex]
    rfl
  · unfold op
    split <;> first | rfl | contradiction

theorem request_eq (depth : Nat) : request depth = requestOf (value depth) := by
  unfold request requestOf
  simp only [op_eq]

theorem reply_eq (depth : Nat) : reply depth = replyOf (value depth) := rfl

/-! ### Readers of few bytes -/

theorem Decoder.bind_eq_ok {f : α → Decoder β} {b : β} {rest : List UInt8} :
    (d >>= f) bs = .ok (b, rest) ↔
      ∃ a mid, d bs = .ok (a, mid) ∧ f a mid = .ok (b, rest) := by
  rcases hd : d bs with e | ⟨a, mid⟩
  · rw [Decoder.bind_of_error hd]
    exact ⟨nofun, fun ⟨_, _, h, _⟩ => nomatch h⟩
  · rw [Decoder.bind_of_ok hd]
    exact ⟨fun h => ⟨a, mid, rfl, h⟩, fun ⟨_, _, h, h'⟩ => by cases h; exact h'⟩

/-- On fewer than `n` bytes two readers do the same, and leave no more than there was. -/
structure Agree (n : Nat) (d e : Decoder α) : Prop where
  eq : ∀ cs, cs.length < n → d cs = e cs
  length_le : ∀ cs a rest, cs.length < n → d cs = .ok (a, rest) → rest.length ≤ cs.length

theorem Delimits.agree (h : Delimits d) : Agree n d d where
  eq _ _ := rfl
  length_le cs a rest _ hok := by
    obtain ⟨used, rfl, -⟩ := h.ok cs a rest hok
    rw [List.length_append]
    omega

theorem Agree.bind {f g : α → Decoder β} (h : Agree n d e) (hf : ∀ a, Agree n (f a) (g a)) :
    Agree n (d >>= f) (e >>= g) where
  eq cs hcs := by
    rcases hd : d cs with x | ⟨a, mid⟩
    · rw [Decoder.bind_of_error hd, Decoder.bind_of_error (h.eq cs hcs ▸ hd)]
    · have hmid := h.length_le cs a mid hcs hd
      rw [Decoder.bind_of_ok hd, Decoder.bind_of_ok (h.eq cs hcs ▸ hd)]
      exact (hf a).eq mid (by omega)
  length_le cs b rest hcs hok := by
    obtain ⟨a, mid, hd, hf'⟩ := Decoder.bind_eq_ok.1 hok
    have hmid := h.length_le cs a mid hcs hd
    have hrest := (hf a).length_le mid b rest (by omega) hf'
    omega

theorem Agree.map (h : Agree n d e) (f : α → β) : Agree n (f <$> d) (f <$> e) := by
  rw [map_eq_pure_bind, map_eq_pure_bind]
  exact h.bind fun a => (delimits_pure (f a)).agree

theorem Agree.list (h : Agree n d e) : Agree n (Wire.list d) (Wire.list e) := by
  have hitems (k : Nat) : Agree n (Decoder.replicate d k) (Decoder.replicate e k) := by
    induction k with
    | zero => exact (delimits_pure []).agree
    | succ k ih => exact h.bind fun a => ih.bind fun as => (delimits_pure (a :: as)).agree
  exact delimits_nat64.agree.bind hitems

theorem Decoder.byte_eq_ok {m : Nat} {rest : List UInt8} :
    Decoder.byte bs = .ok (m, rest) ↔ ∃ b, bs = b :: rest ∧ m = b.toNat := by
  cases bs with
  | nil => exact ⟨nofun, fun ⟨_, h, _⟩ => nomatch h⟩
  | cons b bs =>
    constructor
    · intro h
      cases h
      exact ⟨b, rfl, rfl⟩
    · rintro ⟨b, h, rfl⟩
      cases h
      rfl

theorem varint_zero_ok {last m : Nat} {rest : List UInt8} (h : varint last 0 bs = .ok (m, rest)) :
    ∃ b, bs = b :: rest ∧ m = b.toNat ∧ m ≤ last := by
  obtain ⟨k, mid, hk, h⟩ := Decoder.bind_eq_ok.1 h
  obtain ⟨b, rfl, rfl⟩ := Decoder.byte_eq_ok.1 hk
  split at h
  · rename_i hle
    cases h
    exact ⟨b, rfl, rfl, hle⟩
  · cases h

/-- A number ends with its first group, or that group is the lowest of it. -/
theorem varint_succ_ok {last more m : Nat} {rest : List UInt8}
    (h : varint last (more + 1) bs = .ok (m, rest)) : ∃ b mid, bs = b :: mid ∧
      (b.toNat < 128 ∧ m = b.toNat ∧ rest = mid ∨
        128 ≤ b.toNat ∧ ∃ high, varint last more mid = .ok (high, rest) ∧
          m = b.toNat - 128 + 128 * high) := by
  obtain ⟨k, mid, hk, h⟩ := Decoder.bind_eq_ok.1 h
  obtain ⟨b, rfl, rfl⟩ := Decoder.byte_eq_ok.1 hk
  refine ⟨b, mid, rfl, ?_⟩
  split at h
  · rename_i hlt
    cases h
    exact .inl ⟨hlt, rfl, rfl⟩
  · rename_i hge
    obtain ⟨high, mid', hhigh, h⟩ := Decoder.bind_eq_ok.1 h
    cases h
    exact .inr ⟨Nat.le_of_not_lt hge, high, hhigh, rfl⟩

/-- A number takes a byte at least. -/
theorem length_lt_of_varint {last more m : Nat} {rest : List UInt8}
    (h : varint last more bs = .ok (m, rest)) : rest.length < bs.length := by
  cases more with
  | zero =>
    obtain ⟨b, rfl, -⟩ := varint_zero_ok h
    exact Nat.lt_succ_self _
  | succ more =>
    obtain ⟨b, mid, rfl, ⟨-, -, rfl⟩ | ⟨-, high, hhigh, -⟩⟩ := varint_succ_ok h
    · exact Nat.lt_succ_self _
    · have hle := (delimits_varint last more).agree.length_le mid high rest (Nat.lt_succ_self _) hhigh
      exact Nat.lt_succ_of_le hle

/-- How a value is read depends only on how lists are read off fewer bytes. -/
theorem Agree.valueOf {items items' : Decoder (List Value)} (h : Agree n items items') :
    Agree (n + 1) (valueOf items) (valueOf items') := by
  have hcontent (tag : Nat) : Agree n (contentOf items tag) (contentOf items' tag) := by
    unfold contentOf
    split
    · exact (delimits_pure _).agree
    · exact (delimits_bool.map _).agree
    · exact (delimits_nat64.map _ |>.map _).agree
    · exact ((delimits_take 8).map _ |>.map _).agree
    · exact (delimits_text.map _).agree
    · exact h.map _
    · exact (delimits_fail .malformed).agree
  -- The tag takes a byte at least, so that fewer are left for the content.
  constructor
  · intro cs hcs
    rcases htag : nat32 cs with x | ⟨tag, mid⟩
    · exact (Decoder.bind_of_error htag _).trans (Decoder.bind_of_error htag _).symm
    · have hmid := length_lt_of_varint htag
      exact ((Decoder.bind_of_ok htag _).trans ((hcontent tag).eq mid (by omega))).trans
        (Decoder.bind_of_ok htag _).symm
  · intro cs v rest hcs hok
    obtain ⟨tag, mid, htag, hv⟩ := Decoder.bind_eq_ok.1 hok
    have hmid := length_lt_of_varint htag
    have hrest := (hcontent tag).length_le mid v rest (by omega) hv
    omega

theorem agree_zero (d e : Decoder α) : Agree 0 d e :=
  ⟨fun _ h => absurd h (Nat.not_lt_zero _), fun _ _ _ h => absurd h (Nat.not_lt_zero _)⟩

theorem anyValue_agree (n : Nat) : Agree n anyValue (valueOf (list anyValue)) := by
  -- The induction is on the number of bytes. The reader calls itself on fewer only, as it checks.
  induction n with
  | zero => exact agree_zero _ _
  | succ n ih =>
    have hlayer (cs : List UInt8) (hcs : cs.length < n + 1) :
        Agree (cs.length + 1) (valueOf (list fun ds =>
          if _h : ds.length < cs.length then anyValue ds else .error .malformed))
          (valueOf (list anyValue)) := by
      refine Agree.valueOf (Agree.list ⟨fun ds hds => dif_pos hds, fun ds v rest hds hok => ?_⟩)
      rw [dif_pos hds] at hok
      exact ih.length_le ds v rest (by omega) hok
    constructor
    · intro cs hcs
      rw [anyValue]
      exact (hlayer cs hcs).eq cs (Nat.lt_succ_self _)
    · intro cs v rest hcs hok
      rw [anyValue] at hok
      exact (hlayer cs hcs).length_le cs v rest (Nat.lt_succ_self _) hok

/-- There is one reader that reads the items of a list as it reads values. -/
theorem fixed_iff {d : Decoder Value} : d = valueOf (list d) ↔ d = anyValue := by
  have hany : anyValue = valueOf (list anyValue) := by
    funext cs
    exact (anyValue_agree (cs.length + 1)).eq cs (Nat.lt_succ_self _)
  refine ⟨fun hd => ?_, fun hd => hd ▸ hany⟩
  -- Two readers that are a layer over themselves agree on one byte more with each layer.
  have hagree (n : Nat) : Agree n d anyValue := by
    induction n with
    | zero => exact agree_zero _ _
    | succ n ih =>
      rw [hd, hany]
      exact ih.list.valueOf
  funext cs
  exact (hagree (cs.length + 1)).eq cs (Nat.lt_succ_self _)

/-! ### What the limit leaves out -/

/-- One reader reads just what the other one reads, if it has a property. -/
def Restricts (d e : Decoder α) (P : α → Prop) : Prop :=
  ∀ bs a rest, d bs = .ok (a, rest) ↔ e bs = .ok (a, rest) ∧ P a

theorem Decoder.Yields.restricts (h : d.Yields P) : Restricts d d P := fun bs a rest =>
  ⟨fun hok => ⟨hok, h bs a rest hok⟩, And.left⟩

/-- The second parts are compared only where the first one is admitted; where it is not, nothing that
follows may be either. -/
theorem Restricts.bind {Q : β → Prop} {f g : α → Decoder β} (h : Restricts d e P)
    (hf : ∀ a, P a → Restricts (f a) (g a) Q) (hg : ∀ a, (g a).Yields fun b => Q b → P a) :
    Restricts (d >>= f) (e >>= g) Q := by
  intro bs b rest
  constructor
  · intro hok
    obtain ⟨a, mid, ha, hb⟩ := Decoder.bind_eq_ok.1 hok
    obtain ⟨ha, hp⟩ := (h bs a mid).1 ha
    obtain ⟨hb, hq⟩ := (hf a hp mid b rest).1 hb
    exact ⟨Decoder.bind_eq_ok.2 ⟨a, mid, ha, hb⟩, hq⟩
  -- The first part is admitted because of what follows it.
  · rintro ⟨hok, hq⟩
    obtain ⟨a, mid, ha, hb⟩ := Decoder.bind_eq_ok.1 hok
    have hp := hg a mid b rest hb hq
    exact Decoder.bind_eq_ok.2 ⟨a, mid, (h bs a mid).2 ⟨ha, hp⟩, (hf a hp mid b rest).2 ⟨hb, hq⟩⟩

theorem Restricts.after {Q : β → Prop} {f g : α → Decoder β} (d : Decoder α)
    (hf : ∀ a, Restricts (f a) (g a) Q) : Restricts (d >>= f) (d >>= g) Q :=
  Restricts.bind (P := fun _ => True) (Decoder.Yields.restricts fun _ _ _ _ => trivial)
    (fun a _ => hf a) fun _ _ _ _ _ _ => trivial

theorem Restricts.map {Q : β → Prop} {f : α → β} (h : Restricts d e P) (hf : ∀ a, Q (f a) ↔ P a) :
    Restricts (f <$> d) (f <$> e) Q := by
  rw [map_eq_pure_bind, map_eq_pure_bind]
  refine h.bind (fun a hp => Decoder.Yields.restricts (Decoder.yields_pure ((hf a).2 hp))) fun a => ?_
  exact Decoder.yields_pure (hf a).1

theorem Restricts.list (h : Restricts d e P) :
    Restricts (Wire.list d) (Wire.list e) fun as => ∀ a ∈ as, P a := by
  refine Restricts.after nat64 fun n => ?_
  induction n with
  | zero => exact Decoder.Yields.restricts (Decoder.yields_pure (List.forall_mem_nil P))
  | succ n ih =>
    refine h.bind (fun a hp => ih.bind (fun as hps => ?_) fun as => ?_) fun a => ?_
    · exact Decoder.Yields.restricts (Decoder.yields_pure (List.forall_mem_cons.2 ⟨hp, hps⟩))
    · exact Decoder.yields_pure fun hps => (List.forall_mem_cons.1 hps).2
    · exact Decoder.yields_bind fun as => Decoder.yields_pure fun hps => (List.forall_mem_cons.1 hps).1

theorem depth_list_le {depth : Nat} {vs : List Value} :
    (Value.list vs).depth ≤ depth + 1 ↔ ∀ v ∈ vs, v.depth ≤ depth := by
  rw [Value.depth]
  refine ⟨fun h v hv => ?_, fun h => Nat.succ_le_succ (depthList_le h)⟩
  exact Nat.le_trans (depth_le_depthList hv) (Nat.le_of_succ_le_succ h)

/-- Only lists are kept out by the limit. -/
theorem Restricts.contentOf {depth : Nat} {items items' : Decoder (List Value)}
    (h : Restricts items items' fun vs => (Value.list vs).depth ≤ depth) (tag : Nat) :
    Restricts (contentOf items tag) (contentOf items' tag) (·.depth ≤ depth) := by
  unfold Wire.contentOf
  split
  · exact Decoder.Yields.restricts (Decoder.yields_pure (Nat.zero_le _))
  · exact Decoder.Yields.restricts (Decoder.yields_map fun _ => Nat.zero_le _)
  · exact Decoder.Yields.restricts (Decoder.yields_map fun _ => Nat.zero_le _)
  · exact Decoder.Yields.restricts (Decoder.yields_map fun _ => Nat.zero_le _)
  · exact Decoder.Yields.restricts (Decoder.yields_map fun _ => Nat.zero_le _)
  · exact h.map fun _ => Iff.rfl
  · exact Decoder.Yields.restricts nofun

/-- With one more list allowed, a list is read whose items may be nested as deep as before. -/
theorem value_restricts (depth : Nat) : Restricts (value depth) anyValue (·.depth ≤ depth) := by
  have hany : anyValue = valueOf (list anyValue) := fixed_iff.2 rfl
  induction depth with
  | zero =>
    rw [value_zero, hany]
    refine Restricts.after nat32 (Restricts.contentOf fun bs vs rest => ?_)
    exact ⟨nofun, fun h => absurd h.2 (Nat.not_succ_le_zero _)⟩
  | succ depth ih =>
    rw [value_succ, hany]
    refine Restricts.after nat32 (Restricts.contentOf fun bs vs rest => ?_)
    exact (ih.list bs vs rest).trans (and_congr_right fun _ => depth_list_le.symm)

/-- Whatever is told about the values that are read is told about the values that messages carry. -/
theorem Restricts.opOf {d e : Decoder Value} {P : Value → Prop} (h : Restricts d e P) (index : Nat) :
    Restricts (opOf d index) (opOf e index) fun o => ∀ v ∈ o.carried?, P v := by
  unfold Wire.opOf
  split
  · exact h.map fun v => by simp only [Op.carried?, Option.mem_some_iff, forall_eq']
  -- No operation with another number carries a value.
  · rename_i hindex
    refine Decoder.Yields.restricts fun bs o rest hok => ?_
    have hnone : o.carried? = none := by
      have ho := yields_op 0 index bs o rest hok
      cases o with
      | ofValue v => exact absurd ho.symm hindex
      | _ => rfl
    rw [hnone]
    exact nofun

theorem Restricts.requestOf {d e : Decoder Value} {P : Value → Prop} (h : Restricts d e P) :
    Restricts (requestOf d) (requestOf e) fun r => ∀ v ∈ r.carried?, P v := by
  refine Restricts.after nat32 fun index => ?_
  split
  · exact Decoder.Yields.restricts (Decoder.yields_pure nofun)
  · split
    · exact Decoder.Yields.restricts (Decoder.yields_map fun _ => nofun)
    · split
      · exact Restricts.after key fun session => (h.opOf index).map fun _ => Iff.rfl
      · exact Decoder.Yields.restricts nofun

theorem Restricts.responseOf {d e : Decoder Value} {P : Value → Prop} (h : Restricts d e P) :
    Restricts (responseOf d) (responseOf e) fun r => ∀ v ∈ r.carried?, P v := by
  refine Restricts.after nat32 fun index => ?_
  split
  · exact Decoder.Yields.restricts (Decoder.yields_pure nofun)
  · exact Decoder.Yields.restricts (Decoder.yields_map fun _ => nofun)
  · exact Decoder.Yields.restricts (Decoder.yields_map fun _ => nofun)
  · exact h.map fun v => by simp only [Response.carried?, Option.mem_some_iff, forall_eq']
  · exact Decoder.Yields.restricts (Decoder.yields_map fun _ => nofun)
  · exact Decoder.Yields.restricts (Decoder.yields_map fun _ => nofun)
  · exact Decoder.Yields.restricts nofun

theorem Restricts.replyOf {d e : Decoder Value} {P : Value → Prop} (h : Restricts d e P) :
    Restricts (replyOf d) (replyOf e) fun r => ∀ v ∈ Reply.carried? r, P v := by
  refine Restricts.after nat32 fun index => ?_
  split
  · exact h.responseOf.map fun _ => Iff.rfl
  · exact Decoder.Yields.restricts (Decoder.yields_map fun _ => nofun)
  · exact Decoder.Yields.restricts nofun

theorem Restricts.run (h : Restricts d e P) (bs : List UInt8) (a : α) :
    d.run bs = .ok a ↔ e.run bs = .ok a ∧ P a := by
  rw [Decoder.run_eq_ok, Decoder.run_eq_ok, ← exists_and_right]
  exact exists_congr fun rest => h bs a rest

/-! ### What is written -/

theorem encodeValue_ok_iff {v : Value} :
    (∃ bs, encodeValue v = .ok bs) ↔ v.depth ≤ Value.maxDepth :=
  ⟨fun ⟨_, h⟩ => depth_le_of_valueBytes h, valueBytes_ok⟩

theorem nesting_le_iff {r : Request} :
    r.nesting ≤ Value.maxDepth ↔ ∀ v ∈ r.carried?, v.depth ≤ Value.maxDepth := by
  cases r with
  | act session o =>
    cases o with
    | ofValue v => simp only [Request.nesting, Op.nesting, Request.carried?, Op.carried?,
        Option.mem_some_iff, forall_eq']
    | _ => exact ⟨fun _ v hv => (by cases hv), fun _ => Nat.zero_le _⟩
  | _ => exact ⟨fun _ v hv => (by cases hv), fun _ => Nat.zero_le _⟩

theorem Reply.nesting_le_iff {r : Reply} :
    Reply.nesting r ≤ Value.maxDepth ↔ ∀ v ∈ Reply.carried? r, v.depth ≤ Value.maxDepth := by
  cases r with
  | ok r =>
    cases r with
    | value v => simp only [Reply.nesting, Response.nesting, Reply.carried?, Response.carried?,
        Option.mem_some_iff, forall_eq']
    | _ => exact ⟨fun _ v hv => (by cases hv), fun _ => Nat.zero_le _⟩
  | error f => exact ⟨fun _ v hv => (by cases hv), fun _ => Nat.zero_le _⟩

theorem encodeRequest_ok_iff {r : Request} :
    (∃ bs, encodeRequest r = .ok bs) ↔ r.nesting ≤ Value.maxDepth := by
  refine ⟨fun ⟨bs, h⟩ => ?_, encodeRequest_ok⟩
  cases r with
  | act session o =>
    obtain ⟨content, ho, -⟩ := requestBytes_act h
    cases o with
    | ofValue v => exact depth_le_of_valueBytes ho
    | _ => exact Nat.zero_le _
  | _ => exact Nat.zero_le _

/-- Writer and reader of some messages keep the limit for nested lists: that is all for which a message is
not written, and all in which the reader differs from the one without a limit. So what can be read can
be written. -/
structure KeepsLimit (encode : α → Except EncodeError (List UInt8))
    (decode : List UInt8 → Except DecodeError α) (unlimited : Decoder α) (carried? : α → Option Value) :
    Prop where
  writes : ∀ a, (∃ bs, encode a = .ok bs) ↔ ∀ v ∈ carried? a, v.depth ≤ Value.maxDepth
  reads : ∀ bs a, decode bs = .ok a ↔
    unlimited.run bs = .ok a ∧ ∀ v ∈ carried? a, v.depth ≤ Value.maxDepth
  carries : ∀ a, (∃ bs, encode a = .ok bs) ↔ ∀ v ∈ carried? a, ∃ bs, encodeValue v = .ok bs
  rewrites : ∀ bs a, decode bs = .ok a → ∃ cs, encode a = .ok cs

theorem Restricts.keepsLimit {carried? : α → Option Value} {encode : α → Except EncodeError (List UInt8)}
    (h : Restricts d e fun a => ∀ v ∈ carried? a, v.depth ≤ Value.maxDepth)
    (hw : ∀ a, (∃ bs, encode a = .ok bs) ↔ ∀ v ∈ carried? a, v.depth ≤ Value.maxDepth) :
    KeepsLimit encode d.run e carried? where
  writes := hw
  reads := h.run
  carries a := by simp only [hw, encodeValue_ok_iff]
  rewrites bs a hok := (hw a).2 ((h.run bs a).1 hok).2

/-- The limit is the same in both directions, for values and for what carries them. The format without it
is the same one, but that the items of a list are read as any value is; there is just one such reader. -/
theorem messages_keepLimit :
    (KeepsLimit encodeValue decodeValue anyValue some ∧
      KeepsLimit encodeRequest decodeRequest (requestOf anyValue) Request.carried? ∧
      KeepsLimit encodeReply decodeReply (replyOf anyValue) Reply.carried?) ∧
    (∀ d : Decoder Value, d = valueOf (list d) ↔ d = anyValue) ∧
    ∀ depth, value (depth + 1) = valueOf (list (value depth)) ∧
      request depth = requestOf (value depth) ∧ reply depth = replyOf (value depth) := by
  have hvalue := value_restricts Value.maxDepth
  have hsome : Restricts (value Value.maxDepth) anyValue fun v =>
      ∀ w ∈ some v, w.depth ≤ Value.maxDepth := by
    simpa only [Option.mem_some_iff, forall_eq'] using hvalue
  have hrequest : Restricts (request Value.maxDepth) (requestOf anyValue) fun r =>
      ∀ v ∈ r.carried?, v.depth ≤ Value.maxDepth := by
    rw [request_eq]
    exact hvalue.requestOf
  have hreply : Restricts (reply Value.maxDepth) (replyOf anyValue) fun r =>
      ∀ v ∈ Reply.carried? r, v.depth ≤ Value.maxDepth := hvalue.replyOf
  refine ⟨⟨hsome.keepsLimit fun v => ?_, hrequest.keepsLimit fun r => ?_, hreply.keepsLimit fun r => ?_⟩,
    fun d => fixed_iff, fun depth => ⟨value_succ depth, request_eq depth, reply_eq depth⟩⟩
  · simp only [encodeValue_ok_iff, Option.mem_some_iff, forall_eq']
  · rw [encodeRequest_ok_iff, nesting_le_iff]
  · rw [encodeReply_ok_iff, Reply.nesting_le_iff]

/-- The limit counts lists, be they empty, and a list starts again where its shallow neighbour did. -/
example :
    let lists (n : Nat) : List UInt8 := (List.replicate n [5, 2, 5, 0]).flatten
    (decodeValue (lists 63 ++ [5, 0])).toOption.map Value.depth = some 64 ∧
      decodeValue (lists 64 ++ [5, 0]) = .error .malformed := by
  decide +kernel

end Wire
end InstancePool
