import Cadence.ByteBuffer

/-!
# Stream channels

Four implementations of `Channel` move bytes of a stream. A native operation completes with an error
code and the number of bytes it transferred, and what each path of each implementation then does with
the cursor of the buffer is written down here under the name of the path.
-/

namespace Cadence

open ByteCursor

/-- How much a native operation transfers before it completes without an error: everything, as the
composed `read`, `write`, `async_read` and `async_write` do, or something, as `async_read_some` and
`async_write_some` do. -/
inductive NativeCall where
  | transferAll
  | transferSome
  deriving DecidableEq

def NativeCall.MayComplete (n : Nat) (ec : Option Errno) (length : Nat) : NativeCall → Prop
  | .transferAll => length ≤ n ∧ (ec = none → length = n)
  | .transferSome => length ≤ n ∧ (ec ≠ none → length = 0) ∧ (ec = none → 0 < n → 0 < length)

instance (call : NativeCall) (n : Nat) (ec : Option Errno) (length : Nat) :
    Decidable (call.MayComplete n ec length) := by
  cases call <;> unfold NativeCall.MayComplete <;> infer_instance

theorem NativeCall.MayComplete.length_le {call : NativeCall} {n length : Nat} {ec : Option Errno}
    (hcomplete : call.MayComplete n ec length) : length ≤ n := by
  cases call <;> exact hcomplete.1

section Paths

variable {Buffer : Type} [ByteCursor Buffer]

abbrev Outcome (Buffer : Type) := Except Error Unit × Buffer

def advanceOnSuccess (tag : String) (buffer : Buffer) (ec : Option Errno) (length : Nat) :
    Outcome Buffer :=
  match ec with
  | some ec => (.error (fromAsioError ec tag), buffer)
  | none => (.ok (), advanced buffer length)

def advanceAlways (tag : String) (buffer : Buffer) (ec : Option Errno) (length : Nat) :
    Outcome Buffer :=
  let buffer := advanced buffer length
  match ec with
  | some ec => (.error (fromAsioError ec tag), buffer)
  | none => (.ok (), buffer)

def returnAdvance (tag : String) (buffer : Buffer) (ec : Option Errno) (length : Nat) :
    Outcome Buffer :=
  match ec with
  | some ec => (.error (fromAsioError ec tag), buffer)
  | none =>
      match advance buffer length with
      | .ok next => (.ok (), next)
      | .error e => (.error e, buffer)

namespace TcpSocketImpl

def asyncRead : Buffer → Option Errno → Nat → Outcome Buffer := advanceOnSuccess "asyncRead"
def asyncWrite : Buffer → Option Errno → Nat → Outcome Buffer := advanceOnSuccess "asyncWrite"
def read : Buffer → Option Errno → Nat → Outcome Buffer := returnAdvance "read"
def write : Buffer → Option Errno → Nat → Outcome Buffer := returnAdvance "write"

end TcpSocketImpl

namespace StreamDomainSocketImpl

def asyncRead : Buffer → Option Errno → Nat → Outcome Buffer := advanceAlways "asyncRead"
def asyncWrite : Buffer → Option Errno → Nat → Outcome Buffer := advanceAlways "asyncWrite"
def read : Buffer → Option Errno → Nat → Outcome Buffer := advanceOnSuccess "read"
def write : Buffer → Option Errno → Nat → Outcome Buffer := advanceOnSuccess "write"

end StreamDomainSocketImpl

namespace PipeImpl

def asyncRead : Buffer → Option Errno → Nat → Outcome Buffer := advanceOnSuccess "asyncRead"
def asyncWrite : Buffer → Option Errno → Nat → Outcome Buffer := advanceOnSuccess "asyncWrite"
def read : Buffer → Option Errno → Nat → Outcome Buffer := advanceOnSuccess "read"
def write : Buffer → Option Errno → Nat → Outcome Buffer := advanceOnSuccess "write"

end PipeImpl

namespace SerialImpl

def asyncRead : Buffer → Option Errno → Nat → Outcome Buffer := advanceOnSuccess "asyncRead"
def asyncWrite : Buffer → Option Errno → Nat → Outcome Buffer := advanceOnSuccess "asyncWrite"
def read : Buffer → Option Errno → Nat → Outcome Buffer := advanceOnSuccess "read"
def write : Buffer → Option Errno → Nat → Outcome Buffer := advanceOnSuccess "write"

end SerialImpl

inductive Transport where
  | tcp
  | streamDomain
  | pipe
  | serial
  deriving DecidableEq

inductive Operation where
  | asyncRead
  | asyncWrite
  | read
  | write
  deriving DecidableEq

namespace Transport

/-- The path that an operation on a channel ends with. -/
def finish : Transport → Operation → Buffer → Option Errno → Nat → Outcome Buffer
  | .tcp, .asyncRead => TcpSocketImpl.asyncRead
  | .tcp, .asyncWrite => TcpSocketImpl.asyncWrite
  | .tcp, .read => TcpSocketImpl.read
  | .tcp, .write => TcpSocketImpl.write
  | .streamDomain, .asyncRead => StreamDomainSocketImpl.asyncRead
  | .streamDomain, .asyncWrite => StreamDomainSocketImpl.asyncWrite
  | .streamDomain, .read => StreamDomainSocketImpl.read
  | .streamDomain, .write => StreamDomainSocketImpl.write
  | .pipe, .asyncRead => PipeImpl.asyncRead
  | .pipe, .asyncWrite => PipeImpl.asyncWrite
  | .pipe, .read => PipeImpl.read
  | .pipe, .write => PipeImpl.write
  | .serial, .asyncRead => SerialImpl.asyncRead
  | .serial, .asyncWrite => SerialImpl.asyncWrite
  | .serial, .read => SerialImpl.read
  | .serial, .write => SerialImpl.write

def nativeCall : Transport → Operation → NativeCall
  | .pipe, .asyncRead | .pipe, .asyncWrite | .serial, .asyncRead | .serial, .asyncWrite =>
      .transferSome
  | _, _ => .transferAll

def Advances (transport : Transport) (operation : Operation) (ec : Option Errno) : Prop :=
  ec = none ∨ transport = .streamDomain ∧ (operation = .asyncRead ∨ operation = .asyncWrite)

instance (transport : Transport) (operation : Operation) (ec : Option Errno) :
    Decidable (transport.Advances operation ec) :=
  inferInstanceAs (Decidable (_ ∨ _))

end Transport

/-! ### What the paths do -/

section Spec

variable {buffer : Buffer} {ec : Option Errno} {length : Nat} {tag : String}

/-- The future or result is a success exactly without an error code, and the cursor moves by the
transferred length when the path moves it at all. -/
structure Finished (advances : Prop) (buffer : Buffer) (ec : Option Errno) (length : Nat)
    (outcome : Outcome Buffer) : Prop where
  ok_iff : outcome.1 = .ok () ↔ ec = none
  bytes : bytes outcome.2 = bytes buffer
  moved : advances → position outcome.2 = position buffer + length
  stayed : ¬ advances → position outcome.2 = position buffer

theorem finished_advanceOnSuccess (hlength : position buffer + length ≤ (bytes buffer).length) :
    Finished (ec = none) buffer ec length (advanceOnSuccess tag buffer ec length) := by
  cases ec with
  | none =>
      obtain ⟨hposition, hbytes⟩ := advanced_of_le hlength
      exact ⟨by simp [advanceOnSuccess], hbytes, fun _ => hposition, fun hne => absurd rfl hne⟩
  | some ec =>
      exact ⟨by simp [advanceOnSuccess], rfl, (by simp), fun _ => rfl⟩

theorem finished_advanceAlways (hlength : position buffer + length ≤ (bytes buffer).length) :
    Finished True buffer ec length (advanceAlways tag buffer ec length) := by
  obtain ⟨hposition, hbytes⟩ := advanced_of_le hlength
  cases ec <;>
    exact ⟨by simp [advanceAlways], hbytes, fun _ => hposition, fun hne => absurd trivial hne⟩

theorem finished_returnAdvance (hlength : position buffer + length ≤ (bytes buffer).length) :
    Finished (ec = none) buffer ec length (returnAdvance tag buffer ec length) := by
  cases ec with
  | none =>
      obtain ⟨next, hnext, hposition, hbytes⟩ := advance_of_le buffer length hlength
      have houtcome : returnAdvance tag buffer none length = (.ok (), next) := by
        simp [returnAdvance, hnext]
      rw [houtcome]
      exact ⟨by simp, hbytes, fun _ => hposition, fun hne => absurd rfl hne⟩
  | some ec =>
      exact ⟨by simp [returnAdvance], rfl, (by simp), fun _ => rfl⟩

theorem Finished.congr {advances advances' : Prop} {outcome : Outcome Buffer}
    (hfinished : Finished advances buffer ec length outcome) (hiff : advances ↔ advances') :
    Finished advances' buffer ec length outcome :=
  ⟨hfinished.ok_iff, hfinished.bytes, fun h => hfinished.moved (hiff.mpr h),
    fun h => hfinished.stayed fun h' => h (hiff.mp h')⟩

theorem Transport.finished_finish (transport : Transport) (operation : Operation)
    (ec : Option Errno) (hlength : position buffer + length ≤ (bytes buffer).length) :
    Finished (transport.Advances operation ec) buffer ec length
      (transport.finish operation buffer ec length) := by
  cases transport with
  | tcp =>
      cases operation
      case asyncRead => exact (finished_advanceOnSuccess hlength).congr (by simp [Advances])
      case asyncWrite => exact (finished_advanceOnSuccess hlength).congr (by simp [Advances])
      case read => exact (finished_returnAdvance hlength).congr (by simp [Advances])
      case write => exact (finished_returnAdvance hlength).congr (by simp [Advances])
  | streamDomain =>
      cases operation
      case asyncRead => exact (finished_advanceAlways hlength).congr (by simp [Advances])
      case asyncWrite => exact (finished_advanceAlways hlength).congr (by simp [Advances])
      case read => exact (finished_advanceOnSuccess hlength).congr (by simp [Advances])
      case write => exact (finished_advanceOnSuccess hlength).congr (by simp [Advances])
  | pipe | serial =>
      cases operation <;>
        exact (finished_advanceOnSuccess hlength).congr (by simp [Advances])

end Spec

end Paths

end Cadence
