import Cadence.Async.AsioHelper
import Cadence.ByteBuffer

/-!
# The UDP socket

Every `asyncReadFrom` hands asio the same endpoint object to write the sender to. An operation is
performed when a datagram is stored in its buffer, and delivered when its handler runs.
-/

namespace Cadence

open ByteCursor

variable {Writer : Type} [ByteWriter Writer]

/-- `UdpImpl::ReadFromHandler`: what its promise is set to, and the buffer after it. -/
def ReadFromHandler (destBuffer : Writer) (peerEndpoint : AsioEndpoint) (ec : Option Errno)
    (length : Nat) : Except Error IPEndpoint × Writer :=
  match ec with
  | some ec => (.error (fromAsioError ec "asyncReadFrom"), destBuffer)
  | none => (.ok (fromAsioEndpoint peerEndpoint), advanced destBuffer length)

inductive Arrival where
  | stored (sender : AsioEndpoint) (length : Nat)
  | failed (ec : Errno)

structure ReadFrom (Writer : Type) where
  dest : Writer
  view : MemoryView

structure Performed (Writer : Type) where
  dest : Writer
  arrival : Arrival

structure Resolved where
  arrival : Arrival
  value : Except Error IPEndpoint

structure UdpImpl (Writer : Type) where
  pe : AsioEndpoint
  posted : List (ReadFrom Writer)
  performed : List (Performed Writer)
  resolved : List Resolved

namespace UdpImpl

inductive Action (Writer : Type) where
  | asyncReadFrom (dest : Writer) (bytesToRead : Nat)
  | perform (sender : AsioEndpoint) (data : List Byte)
  | fail (ec : Errno)
  | deliver

def create (pe : AsioEndpoint) : UdpImpl Writer := ⟨pe, [], [], []⟩

def asyncReadFrom (impl : UdpImpl Writer) (dest : Writer) (bytesToRead : Nat) :
    Except Exception (UdpImpl Writer) :=
  (asioBuffer dest bytesToRead).map fun view =>
    { impl with posted := impl.posted ++ [⟨dest, view⟩] }

/-- A datagram arrives for the operation posted first. What does not fit the buffer is dropped. -/
def perform (impl : UdpImpl Writer) (sender : AsioEndpoint) (data : List Byte) :
    Option (UdpImpl Writer) :=
  match impl.posted with
  | [] => none
  | operation :: posted =>
      let data := data.take operation.view.length
      some { impl with
        pe := sender
        posted := posted
        performed := impl.performed ++
          [⟨ByteWriter.store operation.dest operation.view.offset data,
            .stored sender data.length⟩] }

def fail (impl : UdpImpl Writer) (ec : Errno) : Option (UdpImpl Writer) :=
  match impl.posted with
  | [] => none
  | operation :: posted =>
      some { impl with
        posted := posted
        performed := impl.performed ++ [⟨operation.dest, .failed ec⟩] }

def deliver (impl : UdpImpl Writer) : Option (UdpImpl Writer) :=
  match impl.performed with
  | [] => none
  | operation :: performed =>
      let (value, _) := match operation.arrival with
        | .stored _ length => ReadFromHandler operation.dest impl.pe none length
        | .failed ec => ReadFromHandler operation.dest impl.pe (some ec) 0
      some { impl with
        performed := performed
        resolved := impl.resolved ++ [⟨operation.arrival, value⟩] }

def step (impl : UdpImpl Writer) : Action Writer → Option (UdpImpl Writer)
  | .asyncReadFrom dest bytesToRead => (impl.asyncReadFrom dest bytesToRead).toOption
  | .perform sender data => impl.perform sender data
  | .fail ec => impl.fail ec
  | .deliver => impl.deliver

end UdpImpl

end Cadence
