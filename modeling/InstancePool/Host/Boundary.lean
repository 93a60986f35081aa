import InstancePool.Host.Basic

/-!
The boundary itself: scripted images, and requests that reach an image without a channel around
them.
-/

namespace InstancePool

open HostM

namespace Host

/-- Adds a scripted image and returns the number of the channel to it. -/
def addScript (script : Script) : HostM Nat := addChannel (.scripted script)

/-- Connects to an image, if what its factory made can be used. -/
def connect (index : Nat) (result : FactoryResult) : HostM Link := do
  settle result.check
  pure (.channel index)

/-- The script behind a channel. -/
def script? (h : Host) (index : Nat) : Option Script :=
  match h.channels[index]? with
  | some ⟨_, .scripted s⟩ => some s
  | _ => none

/-- What the image finds when it asks the resolver that it was given for the name with the given
bytes; nothing if it has none. -/
def askResolver (h : Host) (s : Script) (name : List UInt8) : Option Found :=
  s.resolver.map fun r => Resolver.answer (fun text => h.texts (some r) text) name

/-- Dispatches the bytes of a request, without a channel around it. -/
def dispatch (index : Nat) (bytes : List UInt8) : HostM (Status × List UInt8) :=
  onChannel index fun image c =>
    let ((status, buffer), peer) := image.dispatch bytes c.peer
    (.ok (status, image.read buffer peer), { c with peer := image.release buffer peer })

/-- Finalizes an image, without a channel around it. -/
def finalizeImage (index : Nat) : HostM Status :=
  onChannel index fun image c =>
    let (status, peer) := image.finalize c.peer
    (.ok status, ⟨false, peer⟩)

/-- Gives an interpreter a resolver with fixed answers from across the boundary. -/
def installAnswers (interp : Nat) (answers : List (List UInt8 × Found)) : HostM Unit :=
  ofMachine fun m => (.ok (), m.setResolver interp (.scripted answers))

end Host

end InstancePool
