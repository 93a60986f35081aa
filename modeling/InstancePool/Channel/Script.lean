import InstancePool.Channel.Basic

/-!
Images that follow a script: each dispatch takes the next answer of a list. They count what the host
does to them.
-/

namespace InstancePool

/-- The answer to one dispatch. -/
structure ScriptedAnswer where
  status : Status := .ok
  output : List UInt8 := []
  deriving Repr, DecidableEq

/-- The buffer of an answer; without output it is left alone. -/
def ScriptedAnswer.buffer (a : ScriptedAnswer) : Buffer :=
  if a.output = [] then .empty else .ofBytes a.output

structure Script where
  /-- The answers that are left. -/
  answers : List ScriptedAnswer
  /-- What finalization reports. -/
  finalStatus : Status := .ok
  /-- The requests that came in. -/
  seen : List (List UInt8) := []
  /-- How many buffers were given back. -/
  released : Nat := 0
  /-- How many resolvers were installed. -/
  installed : Nat := 0
  /-- How often the image was finalized. -/
  finalized : Nat := 0
  resolver : Option Resolver := none
  deriving Repr

namespace Script

/-- Takes the next answer; without one the dispatch fails. -/
def dispatch (bytes : List UInt8) (s : Script) : (Status × Buffer) × Script :=
  match s.answers with
  | a :: rest => ((a.status, a.buffer), { s with answers := rest, seen := s.seen ++ [bytes] })
  | [] => ((.failed, .empty), { s with seen := s.seen ++ [bytes] })

/-- The entry points of a scripted image. -/
def image : Image Script Buffer where
  dispatch := dispatch
  read buffer _ := buffer.bytes
  release _ s := { s with released := s.released + 1 }
  install r s := { s with resolver := some r, installed := s.installed + 1 }
  finalize s := (s.finalStatus, { s with finalized := s.finalized + 1, resolver := none })

end Script

end InstancePool
