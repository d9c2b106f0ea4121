import Cadence.Foundation.ObjectStore

/-!
# Channels as objects

`Channel` holds a pointer to its event loop, and each class derived from it a pointer to its
implementation. This is what the moves and swaps of the classes do with the two.
-/

namespace Cadence

abbrev EventLoop := Nat

/-- An implementation, by the loop it was created on. -/
structure ChannelImpl where
  loop : EventLoop
  deriving DecidableEq

structure Channel where
  ioContext : Option EventLoop
  pimpl : Option ChannelImpl
  deriving DecidableEq

inductive ChannelClass where
  | udpSocket
  | datagramDomainSocket
  | pipe
  | serialChannel
  | streamSocket
  deriving DecidableEq

abbrev Channels := ObjectStore Nat Channel

namespace Channels

def construct (channels : Channels) (lhs : Nat) (loop : EventLoop) : Option Channels :=
  if channels lhs = none then some (channels.put lhs ⟨some loop, some ⟨loop⟩⟩) else none

/-- The move constructors: `Channel(std::move(rhs))` and `_pimpl(std::move(rhs._pimpl))`. -/
def moveConstruct (channels : Channels) (lhs rhs : Nat) : Option Channels :=
  if channels lhs = none then
    (channels rhs).map fun y => (channels.put rhs ⟨none, none⟩).put lhs y
  else none

/-- `swap(_pimpl, rhs._pimpl)`, the `swap` of each of the classes. -/
def swap (channels : Channels) (lhs rhs : Nat) : Option Channels := do
  let x ← channels lhs
  let y ← channels rhs
  return (channels.put lhs { x with pimpl := y.pimpl }).put rhs { y with pimpl := x.pimpl }

/-- `Channel::swap`. -/
def swapBase (channels : Channels) (lhs rhs : Nat) : Option Channels := do
  let x ← channels lhs
  let y ← channels rhs
  return (channels.put lhs { x with ioContext := y.ioContext }).put rhs
    { y with ioContext := x.ioContext }

def movePimpl (channels : Channels) (lhs rhs : Nat) : Option Channels := do
  let y ← channels rhs
  let channels := channels.put rhs { y with pimpl := none }
  let x ← channels lhs
  return channels.put lhs { x with pimpl := y.pimpl }

/-- `operator=`: defaulted for a stream socket, and the `swap` of the class for the others. -/
def moveAssign : ChannelClass → Channels → Nat → Nat → Option Channels
  | .streamSocket, channels, lhs, rhs =>
      (channels.swapBase lhs rhs).bind fun channels => channels.movePimpl lhs rhs
  | _, channels, lhs, rhs => channels.swap lhs rhs

inductive Action where
  | construct (lhs : Nat) (loop : EventLoop)
  | moveConstruct (lhs rhs : Nat)
  | moveAssign (lhs rhs : Nat)
  | swap (lhs rhs : Nat)
  | destroy (lhs : Nat)

def step (channelClass : ChannelClass) (channels : Channels) : Action → Option Channels
  | .construct lhs loop => channels.construct lhs loop
  | .moveConstruct lhs rhs => channels.moveConstruct lhs rhs
  | .moveAssign lhs rhs => moveAssign channelClass channels lhs rhs
  | .swap lhs rhs => channels.swap lhs rhs
  | .destroy lhs => some (channels.remove lhs)

end Channels

end Cadence
