import InstancePool.Table

/-!
Load balancers. A balancer counts the uses of each of its slots; a thread that acquires one scans
the slots from its own cursor, takes the first idle one, and if all are busy takes the least used.
The cursor of a thread is shared by all balancers that it touches.
-/

namespace InstancePool

/-- The use counts of the slots, of which there is at least one. -/
structure Balancer where
  loads : List UInt64
  nonempty : loads ≠ []
  deriving Repr, DecidableEq

/-- What a balancer refuses. -/
inductive BalancerError where
  /-- A balancer was to have no slots. -/
  | noSlots
  /-- A slot was freed more often than acquired. -/
  | overfreed (slot : Nat)
  /-- There is no such slot. -/
  | noSuchSlot (slot : Nat)
  deriving Repr, DecidableEq

def BalancerError.message : BalancerError → String
  | .noSlots => "load balancer needs at least one slot"
  | .overfreed slot => "slot " ++ toString slot ++ " freed more often than acquired"
  | .noSuchSlot slot => "slot " ++ toString slot ++ " does not exist"

namespace Balancer

/-- A balancer with `n` idle slots. -/
def create (n : Nat) : Except BalancerError Balancer :=
  if h : n = 0 then .error .noSlots
  else .ok ⟨List.replicate n 0, fun e => h ((List.replicate_eq_nil_iff _).1 e)⟩

/-- The number of slots. -/
def size (b : Balancer) : Nat := b.loads.length

/-- The uses of a slot; a slot that does not exist is as used as can be. -/
def load (b : Balancer) (slot : Nat) : UInt64 := (b.loads[slot]?).getD 0xFFFFFFFFFFFFFFFF

/-- Changes the uses of a slot. -/
def update (b : Balancer) (slot : Nat) (f : UInt64 → UInt64) : Balancer :=
  ⟨b.loads.modify slot f, fun e => b.nonempty <| List.length_eq_zero_iff.1 <| by
    rw [← List.length_modify f b.loads slot, e, List.length_nil]⟩

/-- What a scan comes to. -/
structure Choice where
  slot : Nat
  /-- Where the thread goes on next time. -/
  cursor : Nat
  deriving Repr, DecidableEq

/-- The slot that a cursor stands at: beyond the last one it stands at the first. -/
def start (b : Balancer) (cursor : Nat) : Nat := if cursor < b.size then cursor else 0

/-- Scans the given number of slots from the cursor for an idle one. `least` is the first of the
least used slots seen so far, and `uses` its count. -/
def scan (b : Balancer) : (steps cursor least : Nat) → (uses : UInt64) → Choice
  | 0, cursor, least, _ => ⟨least, cursor⟩
  | steps + 1, cursor, least, uses =>
    let slot := b.start cursor
    let n := b.load slot
    if n = 0 then ⟨slot, slot + 1⟩
    else if n < uses then b.scan steps (slot + 1) slot n
    else b.scan steps (slot + 1) least uses

/-- The slot that a thread with the given cursor takes. -/
def choose (b : Balancer) (cursor : Nat) : Choice := b.scan b.size cursor 0 0xFFFFFFFFFFFFFFFF

/-- Takes a slot. -/
def acquire (b : Balancer) (cursor : Nat) : Choice × Balancer :=
  (b.choose cursor, b.update (b.choose cursor).slot (· + 1))

/-- Gives a slot back. A slot that was not in use is counted down all the same before the
complaint. -/
def free (b : Balancer) (slot : Nat) : Except BalancerError Unit × Balancer :=
  if slot < b.size then
    (if b.load slot = 0 then .error (.overfreed slot) else .ok (), b.update slot (· - 1))
  else (.error (.noSuchSlot slot), b)

end Balancer

/-- A thread: the main one, or one with a name. -/
abbrev Thread := Option String

/-- Some balancers, and the cursors of the threads that use them. -/
structure Fleet where
  balancers : List Balancer := []
  cursors : Table Thread Nat := Table.empty
  /-- What the balancers complained about. -/
  complaints : List BalancerError := []
  deriving Repr

namespace Fleet

/-- The cursor of a thread; it starts at zero. -/
def cursor (f : Fleet) (t : Thread) : Nat := (f.cursors.get? t).getD 0

/-- Adds a balancer with `n` slots and returns its number. -/
def add (f : Fleet) (n : Nat) : Except BalancerError (Nat × Fleet) :=
  (Balancer.create n).map fun b =>
    (f.balancers.length, { f with balancers := f.balancers ++ [b] })

/-- The use counts of a balancer. -/
def loads (f : Fleet) (k : Nat) : Option (List UInt64) := (f.balancers[k]?).map Balancer.loads

/-- A thread takes a slot of a balancer. -/
def acquire (f : Fleet) (k : Nat) (t : Thread) : Option (Nat × Fleet) :=
  (f.balancers[k]?).map fun b =>
    let (choice, b) := b.acquire (f.cursor t)
    (choice.slot,
      { f with balancers := f.balancers.set k b, cursors := f.cursors.insert t choice.cursor })

/-- Gives a slot of a balancer back. A complaint is noted. -/
def free (f : Fleet) (k slot : Nat) : Option (Except BalancerError Unit × Fleet) :=
  (f.balancers[k]?).map fun b =>
    match b.free slot with
    | (.ok (), b) => (.ok (), { f with balancers := f.balancers.set k b })
    | (.error e, b) =>
      (.error e, { f with balancers := f.balancers.set k b, complaints := f.complaints ++ [e] })

end Fleet

end InstancePool
