import InstancePool.Error
import InstancePool.Resolver

/-!
The boundary between a host and an image. An image is its entry points and nothing else: what they
do to its state `σ`, and the buffers `β` in which they leave their output.
-/

namespace InstancePool

/-- What an entry point reports. Every code is possible. -/
structure Status where
  code : UInt32
  deriving Repr, DecidableEq

namespace Status

def ok : Status := ⟨0⟩
def failed : Status := ⟨1⟩
def incompatible : Status := ⟨2⟩

def isOk (s : Status) : Bool := s = ok

def display (s : Status) : String :=
  if s = ok then "ok"
  else if s = failed then "failed"
  else if s = incompatible then "incompatible"
  else "unknown status " ++ toString s.code.toNat

end Status

/-- Bytes that the other side lends for the time of a call: so many of what is in memory, or none
where there is no memory. -/
structure Loan where
  memory : Option (List UInt8)
  length : Nat
  deriving Repr, DecidableEq

/-- The bytes that may be read. -/
def Loan.bytes (l : Loan) : List UInt8 := (l.memory.getD []).take l.length

/-- Bytes that the other side allocated, or nothing. -/
structure Buffer where
  memory : Option (List UInt8) := none
  deriving Repr, DecidableEq

namespace Buffer

def empty : Buffer := {}

def ofBytes (bytes : List UInt8) : Buffer := ⟨some bytes⟩

def bytes (b : Buffer) : List UInt8 := b.memory.getD []

def size (b : Buffer) : Nat := b.bytes.length

end Buffer

/-- The entry points of an image with states `σ` and output buffers `β`. -/
structure Image (σ β : Type) where
  /-- Answers a request. -/
  dispatch : List UInt8 → σ → (Status × β) × σ
  /-- The bytes in a buffer. They are there until the buffer is released. -/
  read : β → σ → List UInt8
  /-- Takes a buffer back. -/
  release : β → σ → σ
  /-- Takes the resolver of the host in place of the one before. -/
  install : Resolver → σ → σ
  finalize : σ → Status × σ

/-- The version of the interface that hosts and images share. -/
def interfaceVersion : UInt32 := 1

/-- The entry point that makes an interpreter. -/
def factorySymbol : String := "manyrun_new_runtime"

/-- The entry point that tells an image its own handle. -/
def bindSymbol : String := "manyrun_set_self"

/-- The entry point that unloads the extensions of an image. -/
def flushSymbol : String := "manyrun_flush_native_libs"

/-- What the factory of an image leaves behind. -/
structure FactoryResult where
  status : Status := .ok
  version : UInt32 := interfaceVersion
  /-- There is no interpreter in it. -/
  isNull : Bool := false
  deriving Repr, DecidableEq

/-- Whether a host can use what a factory made: first the status counts, then the version. -/
def FactoryResult.check (r : FactoryResult) : Except Error Unit :=
  if r.status = .incompatible then
    .error (.integrity factorySymbol
      ("image does not speak ABI version " ++ toString interfaceVersion.toNat))
  else if r.status = .failed then .error (.runtime ⟨.runtime, "runtime factory failed"⟩)
  else if r.status ≠ .ok then
    .error (.integrity factorySymbol ("factory returned " ++ r.status.display))
  else if r.version ≠ interfaceVersion then
    .error (.integrity factorySymbol
      ("runtime ABI version " ++ toString r.version.toNat ++ ", host expects " ++
        toString interfaceVersion.toNat))
  else if r.isNull then .error (.integrity factorySymbol "factory returned a null runtime")
  else .ok ()

end InstancePool
