import Cadence.Async.AsioHelper
import Cadence.ByteBuffer

/-!
# Opening, connecting and sending on datagram sockets

`UdpSocket` and `DatagramDomainSocket` over asio's socket, of which only whether it is open matters
here. The caller of the model says how each native call ends.
-/

namespace Cadence

open ByteCursor

/-- `asio::error::already_open`, which is a number of a category of asio's own. -/
def already_open : Errno := 1

structure NativeSocket where
  is_open : Bool
  deriving DecidableEq

namespace NativeSocket

def openSocket (socket : NativeSocket) (failure : Option Errno) : Option Errno × NativeSocket :=
  if socket.is_open then (some already_open, socket)
  else
    match failure with
    | some ec => (some ec, socket)
    | none => (none, ⟨true⟩)

-- a closed socket is opened for the protocol of the peer first
def connect (socket : NativeSocket) (openFailure failure : Option Errno) :
    Option Errno × NativeSocket :=
  if socket.is_open then (failure, socket)
  else
    match openFailure with
    | some ec => (some ec, socket)
    | none => (failure, ⟨true⟩)

def sendTo (socket : NativeSocket) (outcome : Except Errno Nat) : Except Errno Nat :=
  if socket.is_open then outcome else .error EBADF

end NativeSocket

def fromErrorCode (ec : Option Errno) (tag : String) : Except Error Unit :=
  match ec with
  | some ec => .error (fromAsioError ec tag)
  | none => .ok ()

/-! ### `UdpSocket` -/

namespace UdpSocket

variable {Reader : Type} [ByteCursor Reader]

/-- A call of `asyncWriteTo` when its future is resolved. `send` is what was handed to
`async_send_to`. -/
structure WriteTo (Reader : Type) where
  socket : NativeSocket
  send : Option (AsioEndpoint × MemoryView)
  future : Except Error Unit
  src : Reader

def asyncWriteTo (socket : NativeSocket) (addr : IPEndpoint) (src : Reader) (bytesToWrite : Nat)
    (openFailure : Option Errno) (outcome : Except Errno Nat) :
    Except Exception (WriteTo Reader) :=
  let destEndpoint := toAsioEndpoint addr
  let (e, opened) := if socket.is_open then (none, socket) else socket.openSocket openFailure
  -- the test is for success, the value of which is then reported as the error
  if socket.is_open = false ∧ e = none then
    .ok ⟨opened, none, .error (fromAsioError 0 "asyncWriteTo:open"), src⟩
  else
    (asioBuffer src bytesToWrite).map fun view =>
      match opened.sendTo outcome with
      | .error ec =>
          ⟨opened, some (destEndpoint, view),
            .error (fromAsioError ec "asyncWriteTo:async_send_to"), src⟩
      | .ok length => ⟨opened, some (destEndpoint, view), .ok (), advanced src length⟩

def connect (socket : NativeSocket) (openFailure failure : Option Errno) :
    Except Error Unit × NativeSocket :=
  let (ec, socket) := socket.connect openFailure failure
  (fromErrorCode ec "connect", socket)

def openSocket (socket : NativeSocket) (failure : Option Errno) :
    Except Error Unit × NativeSocket :=
  let (ec, socket) := socket.openSocket failure
  (fromErrorCode ec "open", socket)

def close : NativeSocket := ⟨false⟩

end UdpSocket

/-! ### `DatagramDomainSocket` -/

namespace DatagramDomainSocket

/-- No result for an empty name, whose terminator would go in front of the array. -/
def toAsioLocalDatagramEndpoint (sunPathSize : Nat) (addr : UnixEndpoint) :
    Option AsioLocalEndpoint := do
  let totalSize := min addr.str.length sunPathSize
  let sunPath ← strncpy (List.replicate sunPathSize none) addr.str totalSize
  let sunPath ← if totalSize = 0 then none else sunPath.store (totalSize - 1) 0
  let path ← sunPath.cString
  return ⟨path⟩

/-- `SocketImpl::connect`. -/
def connectImpl (socket : NativeSocket) (endpoint : UnixEndpoint)
    (openFailure failure : Option Errno) : Option (Except Error Unit × NativeSocket) :=
  (toAsioLocalDatagramEndpoint sunPathSize endpoint).map fun _ =>
    let (ec, socket) := socket.connect openFailure failure
    (fromErrorCode ec "connect", socket)

/-- `DatagramDomainSocket::connect`, which returns `void` and drops the result. -/
def connect (socket : NativeSocket) (endpoint : UnixEndpoint) (openFailure failure : Option Errno) :
    Option (Except Exception Unit × NativeSocket) :=
  (connectImpl socket endpoint openFailure failure).map fun (_, socket) => (.ok (), socket)

/-! The names of a socket, which asio reads from the kernel into the `sockaddr_un` of an endpoint. -/

/-- `offsetof(sockaddr_un, sun_path)`, which is also where `sa_data` begins in a `sockaddr`. -/
def sunPathOffset : Nat := 2

/-- An endpoint that asio hands out, with the whole of `sun_path`. -/
structure NativeName where
  sunPath : List Byte
  pathLength : Nat
  deriving DecidableEq

def NativeName.size (name : NativeName) : Nat := sunPathOffset + name.pathLength

/-- The kernel has put the path of `e` at the front of `sun_path`. -/
def NativeName.Returns (name : NativeName) (e : AsioLocalEndpoint) : Prop :=
  name.pathLength = e.path.length ∧ e.path <+: name.sunPath

/-- `makeString(data->sa_data, size)`, without a result where that reads behind `sun_path`. -/
def NativeName.makeString (name : NativeName) : Option UnixEndpoint :=
  if name.size ≤ name.sunPath.length then some ⟨name.sunPath.take name.size⟩ else none

structure SocketImpl where
  local_endpoint : NativeName
  remote_endpoint : NativeName
  deriving DecidableEq

namespace SocketImpl

def getLocalEndpoint (socket : SocketImpl) : Option UnixEndpoint :=
  socket.local_endpoint.makeString

def getRemoteEndpoint (socket : SocketImpl) : Option UnixEndpoint :=
  socket.remote_endpoint.makeString

end SocketImpl

end DatagramDomainSocket

end Cadence
