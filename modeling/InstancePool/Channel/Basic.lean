import InstancePool.Channel.Image
import InstancePool.Wire.Message

/-!
The host's side of the boundary. A channel talks to any image: each call encodes one request,
dispatches it once and gives the output buffer back after reading it, whatever the image answers.
Once finalized, a channel is closed and leaves the image alone.
-/

namespace InstancePool

/-- A connection to an image in the state `peer`. -/
structure Channel (σ : Type) where
  live : Bool := true
  peer : σ
  deriving Repr

namespace Channel

variable {σ β α : Type}

/-- What a host makes of the status and the output of a dispatch. -/
def interpret (name : String) (status : Status) (output : List UInt8) : Except Error Response :=
  if status.isOk then
    match Wire.decodeReply output with
    | .error cause => .error (.protocol (.decode cause))
    | .ok (.error fault) => .error (.runtime fault)
    | .ok (.ok response) => .ok response
  else
    .error (.runtime ⟨.protocol,
      "runtime could not answer " ++ name ++ " (" ++ status.display ++ ")"⟩)

/-- Sends a request and waits for its response. -/
def call (image : Image σ β) (request : Request) (c : Channel σ) :
    Except Error Response × Channel σ :=
  if c.live then
    match Wire.encodeRequest request with
    | .error cause => (.error (.protocol (.encode cause)), c)
    | .ok bytes =>
      let ((status, buffer), peer) := image.dispatch bytes c.peer
      (interpret request.name status (image.read buffer peer),
        { c with peer := image.release buffer peer })
  else (.error .closed, c)

/-- The content of a response of the expected form. -/
def extract (f : Response → Except WireError α) : Except Error Response → Except Error α
  | .ok r => (f r).mapError .protocol
  | .error e => .error e

def openSession (image : Image σ β) (c : Channel σ) : Except Error SessionKey × Channel σ :=
  let (result, c) := c.call image .openSession
  (extract Response.toSession result, c)

/-- Performs an operation in a session. -/
def perform (image : Image σ β) (key : SessionKey) (op : Op) (c : Channel σ) :
    Except Error Response × Channel σ :=
  let (result, c) := c.call image (.act key op)
  (extract (Response.expect op.answers) result, c)

/-- Closes a session. The outcome is lost. -/
def closeSession (image : Image σ β) (key : SessionKey) (c : Channel σ) : Channel σ :=
  (c.call image (.closeSession key)).2

/-- Hands a resolver to the image, unless the channel is closed. -/
def setResolver (image : Image σ β) (r : Resolver) (c : Channel σ) : Channel σ :=
  if c.live then { c with peer := image.install r c.peer } else c

/-- Finalizes the interpreter of the image and closes the channel. -/
def finalize (image : Image σ β) (c : Channel σ) : Except Error Unit × Channel σ :=
  if c.live then
    let (status, peer) := image.finalize c.peer
    (if status.isOk then .ok ()
      else .error (.teardown ("runtime finalizer returned " ++ status.display)),
      ⟨false, peer⟩)
  else (.error .closed, c)

end Channel

end InstancePool
