import InstancePool.Table
import InstancePool.Text.Utf8

/-!
Where an interpreter finds the texts of modules that it does not have. A resolver is a description;
`Resolver.lookup` asks it. Crossing the boundary of an image, a name goes out as bytes and the text
comes back through emitted pieces, of which the last one counts.
-/

namespace InstancePool

/-- Names and source texts of modules. -/
abbrev Sources := Table String String

/-- What a resolver on the other side of a boundary does when asked: the texts it emits, and
whether it claims to know the name. -/
structure Found where
  texts : List (List UInt8)
  hit : Bool
  deriving Repr, DecidableEq

/-- The text that the asking side takes: the last one emitted, if the name is known. -/
def Found.text? (f : Found) : Option String :=
  if f.hit then f.texts.getLast?.map Text.decodeLenient else none

inductive Resolver where
  /-- A fixed table. -/
  | fixed (sources : Sources)
  /-- A registry of the host, asked anew every time. -/
  | registry (index : Nat)
  /-- A resolver on the other side of a boundary with fixed answers to names given as bytes. -/
  | scripted (answers : List (List UInt8 × Found))
  /-- A resolver of the host on the other side of a boundary. -/
  | remote (host : Resolver)
  deriving Repr

namespace Resolver

/-- What a host does when an image asks it for the name with the given bytes: a name that is no
text is unknown, and a known text is emitted once. -/
def answer (lookup : String → Option String) (name : List UInt8) : Found :=
  match (Text.ofUtf8? name).bind lookup with
  | some source => ⟨[Text.utf8Bytes source], true⟩
  | none => ⟨[], false⟩

/-- The fixed answer to a name; a name without one is unknown. -/
def scriptedAnswer (answers : List (List UInt8 × Found)) (name : List UInt8) : Found :=
  ((answers.find? fun a => a.1 = name).map Prod.snd).getD ⟨[], false⟩

/-- The source text of a module, given what the registries of the host hold. -/
def lookup (registries : Nat → Sources) : Resolver → String → Option String
  | .fixed sources, name => sources.get? name
  | .registry index, name => (registries index).get? name
  | .scripted answers, name => (scriptedAnswer answers (Text.utf8Bytes name)).text?
  | .remote host, name => (answer (host.lookup registries) (Text.utf8Bytes name)).text?

end Resolver

end InstancePool
