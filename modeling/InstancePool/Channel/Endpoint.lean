import InstancePool.Channel.Basic
import InstancePool.Machine

/-!
An interpreter behind the boundary. The endpoint decodes each request, performs it in one of the
sessions that it serves, and encodes the reply; there is no output only where the reply has no
encoding.
-/

namespace InstancePool

/-- The image side of an exported interpreter. -/
structure Endpoint where
  interp : Nat
  /-- The sessions opened through this endpoint and not closed. -/
  served : List SessionKey := []
  deriving Repr, DecidableEq

namespace Endpoint

/-- Performs a request. Only sessions that this endpoint opened can be named. -/
def serve (source : TextSource) : Request → Machine × Endpoint → Reply × (Machine × Endpoint)
  | .openSession, (m, e) =>
    match m.openSession e.interp with
    | (.ok key, m) => (.ok (.session key), (m, { e with served := e.served ++ [key] }))
    | (.error cause, m) => (.error cause.toFault, (m, e))
  | .closeSession key, (m, e) =>
    if key ∈ e.served then
      (.ok .unit, (m.closeSession e.interp key, { e with served := e.served.erase key }))
    else (.ok .unit, (m, e))
  | .act key op, (m, e) =>
    if key ∈ e.served then
      let (result, m) := m.perform source e.interp key op
      (result.mapError Error.toFault, (m, e))
    else (.error (Failure.unknownSession key).fault, (m, e))

/-- Answers the bytes of a request. -/
def dispatch (source : TextSource) (bytes : List UInt8) (s : Machine × Endpoint) :
    (Status × Buffer) × (Machine × Endpoint) :=
  let (reply, s) := match Wire.decodeRequest bytes with
    | .ok request => serve source request s
    | .error cause => (.error ⟨.protocol, (WireError.decode cause).message⟩, s)
  match Wire.encodeReply reply with
  | .ok output => ((.ok, .ofBytes output), s)
  | .error _ => ((.failed, .empty), s)

/-- Closes all sessions that are served, then finalizes the interpreter. -/
def finalize : Machine × Endpoint → Status × (Machine × Endpoint)
  | (m, e) =>
    let m := e.served.foldl (fun m key => m.closeSession e.interp key) m
    let (result, m) := m.finalize e.interp
    (match result with
      | .ok () => .ok
      | .error _ => .failed, (m, { e with served := [] }))

/-- The entry points of an exported interpreter. -/
def image (source : TextSource) : Image (Machine × Endpoint) Buffer where
  dispatch := dispatch source
  read buffer _ := buffer.bytes
  release _ s := s
  install r s := (s.1.setResolver s.2.interp (.remote r), s.2)
  finalize := finalize

end Endpoint

end InstancePool
