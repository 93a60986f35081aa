import InstancePool.Interp.Basic
import InstancePool.Wire.Value
import InstancePool.Value.Text

/-!
The operations of an interpreter. Each one checks all it needs before it changes anything, so an
operation that fails leaves the interpreter as it was; only a module whose text was found and read
stays cached when the name sought in it is missing.
-/

namespace InstancePool

namespace Heap

/-- The value of an object. -/
def value (h : Heap) (n : ObjectIndex) : Except Failure Value :=
  match h.get n with
  | .value v => .ok v
  | o => .error (.notAValue o.typeName)

/-- The member of a namespace. -/
def member (h : Heap) (n : ObjectIndex) (name : String) : Except Failure ObjectIndex :=
  match h.get n with
  | .space members =>
    match members.get? name with
    | some m => .ok m
    | none => .error (.noMember name)
  | o => .error (.noAttribute o.typeName name)

end Heap

/-- The sum of two values: numbers are added, texts and lists joined. -/
def Value.sum (a b : Value) : Except Failure Value :=
  match a, b with
  | .int i, .int j =>
    let s := i.toInt + j.toInt
    if -2 ^ 63 ≤ s ∧ s < 2 ^ 63 then .ok (.int (Int64.ofInt s)) else .error .overflow
  | .float x, .float y => .ok (.float (x.add y))
  | .int i, .float y => .ok (.float ((Binary64.ofInt i.toInt).add y))
  | .float x, .int j => .ok (.float (x.add (Binary64.ofInt j.toInt)))
  | .str s, .str t => .ok (.str (s ++ t))
  | .list xs, .list ys => .ok (.list (xs ++ ys))
  | a, b => .error (.operands a.typeName b.typeName)

/-- The number of characters of a text or of items of a list. -/
def Value.length : Value → Except Failure Nat
  | .str s => .ok s.length
  | .list items => .ok items.length
  | v => .error (.noLength v.typeName)

/-- What a builtin returns: one of its arguments, or a new object. -/
inductive CallResult where
  | existing (n : ObjectIndex)
  | fresh (v : Value)
  deriving Repr, DecidableEq

/-- Applies a builtin to objects. -/
def Builtin.apply (h : Heap) (b : Builtin) (args : List ObjectIndex) : Except Failure CallResult :=
  match b, args with
  | .add, [x, y] => do
    let a ← h.value x
    let c ← h.value y
    .fresh <$> a.sum c
  | .len, [x] => do
    let v ← h.value x
    let n ← v.length
    pure (.fresh (.int (Int64.ofNat n)))
  | .echo, [x] => pure (.existing x)
  | .id, [x] => pure (.fresh (.int (Int64.ofNat (identity x))))
  | .fail, [] => .error (.raised "failure requested")
  | .fail, x :: _ => do
    let v ← h.value x
    .error (.raised v.display)
  | .list, xs => (.fresh ∘ .list) <$> xs.mapM h.value
  | .add, xs => .error (.arity b 2 xs.length)
  | .len, xs | .echo, xs | .id, xs => .error (.arity b 1 xs.length)

/-- The object that a reference means in the session `key` with the given slots. -/
def resolveRef (key : SessionKey) (slots : List ObjectIndex) (r : Ref) :
    Except Failure ObjectIndex :=
  if r.session ≠ key then .error (.notOwned r key)
  else
    match slots[r.slot.toNat]? with
    | some n => .ok n
    | none => .error (.notLive r)

namespace Engine

/-- Gives an object the next slot of a session. -/
def handOut (e : Engine) (key : SessionKey) (slots : List ObjectIndex) (n : ObjectIndex) :
    Response × Engine :=
  (.ref ⟨key, UInt32.ofNat slots.length⟩,
    { e with interp :=
      { e.interp with sessions := e.interp.sessions.insert key (slots ++ [n]) } })

/-- Makes an object of a value and gives it the next slot of a session. -/
def handOutNew (e : Engine) (key : SessionKey) (slots : List ObjectIndex) (v : Value) :
    Response × Engine :=
  let (n, heap) := e.heap.alloc (.value v)
  { e with heap }.handOut key slots n

/-- Finds a module: a cached one, or one made of the text that `source` has for the name. -/
def findModule (source : Option Resolver → String → Option String) (name : String) (e : Engine) :
    Except Failure ObjectIndex × Engine :=
  match e.interp.modules.get? name with
  | some n => (.ok n, e)
  | none =>
    match source e.interp.resolver name with
    | none => (.error (.noModule name), e)
    | some text =>
      let (bindings, problem) := ModuleText.read text
      let (members, heap) := e.heap.allocBindings bindings
      match problem with
      | some (line, problem) => (.error (.badModule name line problem), { e with heap })
      | none =>
        let (n, heap) := heap.alloc (.space members)
        (.ok n, ⟨heap, { e.interp with modules := e.interp.modules.insert name n }⟩)

/-- An operation other than `global` in the session `key` with the given slots. -/
def attempt (e : Engine) (key : SessionKey) (slots : List ObjectIndex) :
    Op → Except Failure (Response × Engine)
  | .global _ name => .error (.noMember name)
  | .eval source =>
    match Literal.parse source with
    | .ok v => .ok (e.handOutNew key slots v)
    | .error cause => .error (.badLiteral cause)
  | .ofValue v => .ok (e.handOutNew key slots v)
  | .toValue target => do
    let n ← resolveRef key slots target
    let v ← e.heap.value n
    pure (.value v, e)
  | .attr target name => do
    let n ← resolveRef key slots target
    let m ← e.heap.member n name
    pure (e.handOut key slots m)
  | .setAttr target name value => do
    let n ← resolveRef key slots target
    let m ← resolveRef key slots value
    match e.heap.get n with
    | .space members =>
      pure (.unit, { e with heap := e.heap.set n (.space (members.insert name m)) })
    | o => .error (.notSettable name o.typeName)
  | .call callee args => do
    let n ← resolveRef key slots callee
    match e.heap.get n with
    | .builtin b =>
      let args ← args.mapM (resolveRef key slots)
      match ← b.apply e.heap args with
      | .existing m => pure (e.handOut key slots m)
      | .fresh v => pure (e.handOutNew key slots v)
    | o => .error (.notCallable o.typeName)
  | .isOwner target => .ok (.bool (target.session = key && target.slot.toNat < slots.length), e)
  | .serialize _ target => do
    let n ← resolveRef key slots target
    match e.heap.get n with
    | .value v =>
      match Wire.encodeValue v with
      | .ok data => pure (.bytes data, e)
      | .error cause => .error (.serializing cause)
    | o => .error (.notSerializable o.typeName)
  | .restore id data =>
    match e.interp.loaded.get? id with
    | some n => .ok (e.handOut key slots n)
    | none =>
      match Wire.decodeValue data with
      | .error cause => .error (.restoring id cause)
      | .ok v =>
        let (n, heap) := e.heap.alloc (.value v)
        let interp := { e.interp with
          loaded := e.interp.loaded.insert id n
          restores := e.interp.restores + 1 }
        .ok ((⟨heap, interp⟩ : Engine).handOut key slots n)
  | .unload id =>
    .ok (.bool (e.interp.loaded.contains id),
      { e with interp := { e.interp with loaded := e.interp.loaded.erase id } })

/-- The result of an attempt: when it failed, nothing has changed. -/
def settle (e : Engine) : Except Failure (Response × Engine) → Except Failure Response × Engine
  | .ok (r, e) => (.ok r, e)
  | .error f => (.error f, e)

/-- Performs an operation in a session. `source` finds the texts of modules. -/
def perform (source : Option Resolver → String → Option String) (key : SessionKey) (op : Op)
    (e : Engine) : Except Failure Response × Engine :=
  match e.interp.sessions.get? key with
  | none => (.error (.unknownSession key), e)
  | some slots =>
    match op with
    | .global module name =>
      match e.findModule source module with
      | (.error f, e) => (.error f, e)
      | (.ok n, e) => e.settle ((e.heap.member n name).map (e.handOut key slots))
    | op => e.settle (e.attempt key slots op)

end Engine

end InstancePool
