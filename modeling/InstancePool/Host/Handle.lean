/-!
How the things of a host refer to each other: by number.
-/

namespace InstancePool

abbrev LoaderId := Nat
abbrev SourceId := Nat
abbrev EnvironmentId := Nat
abbrev InstanceId := Nat
abbrev ManagerId := Nat
abbrev SessionId := Nat
abbrev ReplicaId := Nat

/-- How an interpreter is reached: in the process itself, or through a channel. -/
inductive Link where
  | direct (interp : Nat)
  | channel (index : Nat)
  deriving Repr, DecidableEq

end InstancePool
