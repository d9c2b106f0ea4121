import Cadence.Async.Channel

/-!
# The sessions of the example server

The example server reads ten bytes of a connection, answers with their digits and a newline, and reads
on. The promise of an operation is set by its handler, and what `then` was given runs there. Nothing
but the operation in progress refers to the session, so a session is gone when an operation fails.

The address of a client is asked for when its connection has been accepted. That raises when the
client has reset the connection by then, and nothing catches it, so that it ends the program.
-/

namespace Cadence

open ByteCursor Segment

namespace Program

variable {Reader Writer : Type} [MemoryReader Reader] [MemoryWriter Writer]

/-- The alphabet of `Base16Encoder`, which comes from another library: two digits for a byte. -/
structure Base16 where
  high : Byte → Byte
  low : Byte → Byte

def Base16.encode (alphabet : Base16) (data : List Byte) : List Byte :=
  data.flatMap fun byte => [alphabet.high byte, alphabet.low byte]

def newline : Byte := 10

/-- The operation in progress, with the number of bytes it has moved, or the handler that is to run. -/
inductive Phase where
  | reading (view : MemoryView) (moved : Nat)
  | readDone (ec : Option Errno) (length : Nat)
  | writing (view : MemoryView) (moved : Nat)
  | writeDone (ec : Option Errno) (length : Nat)
  | gone
  deriving DecidableEq

/-- A session and its connection: what has come in and has not been read, whether the client has
finished, and how much can be sent. What came in and what was sent altogether is recorded beside it,
and whether an operation has failed other than by the end of the stream. -/
structure Session (Reader Writer : Type) where
  writer : Writer
  reader : Reader
  phase : Phase
  incoming : List Byte
  ended : Bool
  room : Nat
  arrived : List Byte
  sent : List Byte
  failed : Bool

namespace Session

/-- The composed operation for a view. One for no bytes is complete at once. -/
def started (operation : MemoryView → Nat → Phase) (done : Option Errno → Nat → Phase) :
    Except Exception MemoryView → Phase
  | .ok view => if view.length = 0 then done none 0 else operation view 0
  | .error _ => .gone

def doRead (session : Session Reader Writer) (stopped : Bool) : Session Reader Writer :=
  if stopped then { session with phase := .gone }
  else
    let writer := MemoryWriter.clear session.writer
    { session with
      writer := writer
      phase := started .reading .readDone (asioBuffer writer (remaining writer)) }

/-- A writer of the memory that `reader` reads, with the response written to it. -/
def encodedResponce (alphabet : Base16) (session : Session Reader Writer) : Writer :=
  let encodedResponce := MemoryWriter.wrapMemory (bytes session.reader)
  MemoryWriter.written
    (MemoryWriter.written encodedResponce
      (alphabet.encode (MemoryWriter.viewWritten session.writer)))
    [newline]

def respond (alphabet : Base16) (session : Session Reader Writer) : Session Reader Writer :=
  let reader := MemoryReader.remap session.reader (bytes (session.encodedResponce alphabet))
  { session with
    reader := reader
    phase := started .writing .writeDone (asioBuffer reader (remaining reader)) }

def readHandler (alphabet : Base16) (session : Session Reader Writer) (ec : Option Errno)
    (length : Nat) : Session Reader Writer :=
  match TcpSocketImpl.asyncRead session.writer ec length with
  | (.ok (), writer) => respond alphabet { session with writer := writer }
  | (.error _, writer) => { session with writer := writer, phase := .gone }

def writeHandler (session : Session Reader Writer) (stopped : Bool) (ec : Option Errno)
    (length : Nat) : Session Reader Writer :=
  match TcpSocketImpl.asyncWrite session.reader ec length with
  | (.ok (), reader) => doRead { session with reader := MemoryReader.rewind reader } stopped
  | (.error _, reader) => { session with reader := reader, phase := .gone }

section Handlers

variable {alphabet : Base16} {session : Session Reader Writer} {stopped : Bool} {ec : Errno}
  {length : Nat}

theorem reader_respond : (session.respond alphabet).reader =
    MemoryReader.remap session.reader (bytes (session.encodedResponce alphabet)) := rfl

theorem sent_respond : (session.respond alphabet).sent = session.sent := by
  rw [respond]

theorem arrived_respond : (session.respond alphabet).arrived = session.arrived := by
  rw [respond]

theorem incoming_respond : (session.respond alphabet).incoming = session.incoming := by
  rw [respond]

theorem readHandler_error : session.readHandler alphabet (some ec) length =
    { session with phase := .gone } := rfl

theorem readHandler_ok : session.readHandler alphabet none length =
    respond alphabet { session with writer := advanced session.writer length } := rfl

theorem writeHandler_error : session.writeHandler stopped (some ec) length =
    { session with phase := .gone } := rfl

theorem writeHandler_ok : session.writeHandler stopped none length =
    doRead { session with reader := MemoryReader.rewind (advanced session.reader length) } stopped :=
  rfl

end Handlers

/-- A session over the two arrays, with what happens to be in them. -/
def create (inBuffer : Fin 10 → Byte) (outBuffer : Fin 21 → Byte) (room : Nat) :
    Session Reader Writer where
  writer := MemoryWriter.wrapMemory (List.ofFn inBuffer)
  reader := MemoryReader.wrapMemory (List.ofFn outBuffer)
  phase := .gone
  incoming := []
  ended := false
  room := room
  arrived := []
  sent := []
  failed := false

/-- `getRemoteEndpoint` is called for the message and again by the constructor of the session. -/
def onNewConnection (stopped : Bool) (printed constructed : Option Errno)
    (inBuffer : Fin 10 → Byte) (outBuffer : Fin 21 → Byte) (room : Nat) :
    Except Errno (Session Reader Writer) :=
  match printed, constructed with
  | some ec, _ => .error ec
  | none, some ec => .error ec
  | none, none => .ok (doRead (create inBuffer outBuffer room) stopped)

inductive Action where
  | arrive (data : List Byte)
  | finish
  | drain (count : Nat)
  | readSome (count : Nat)
  | readEnd
  | readFail (ec : Errno)
  | readHandler
  | writeSome (count : Nat)
  | writeFail (ec : Errno)
  | writeHandler

/-- What the loop does by itself. The client and the network do the rest. -/
def OfLoop : Action → Prop
  | .readSome _ | .readEnd | .readHandler | .writeSome _ | .writeHandler => True
  | .arrive _ | .finish | .drain _ | .readFail _ | .writeFail _ => False

/-- Some of what has come in is read into the view. -/
def readSome (session : Session Reader Writer) (view : MemoryView) (moved count : Nat) :
    Session Reader Writer :=
  { session with
    writer := ByteWriter.store session.writer (view.offset + moved) (session.incoming.take count)
    incoming := session.incoming.drop count
    phase :=
      if moved + count = view.length then .readDone none view.length
      else .reading view (moved + count) }

/-- Some of what is in the view is sent. -/
def writeSome (session : Session Reader Writer) (view : MemoryView) (moved count : Nat) :
    Session Reader Writer :=
  { session with
    sent := session.sent ++
      between (bytes session.reader) (view.offset + moved) (view.offset + moved + count)
    room := session.room - count
    phase :=
      if moved + count = view.length then .writeDone none view.length
      else .writing view (moved + count) }

def step (alphabet : Base16) (stopped : Bool) (session : Session Reader Writer) :
    Action → Option (Session Reader Writer)
  | .arrive data =>
      if session.ended then none
      else
        some { session with
          incoming := session.incoming ++ data
          arrived := session.arrived ++ data }
  | .finish => some { session with ended := true }
  | .drain count => some { session with room := session.room + count }
  | .readSome count =>
      match session.phase with
      | .reading view moved =>
          if ¬ stopped ∧ 0 < count ∧ moved + count ≤ view.length ∧
              count ≤ session.incoming.length then
            some (session.readSome view moved count)
          else none
      | _ => none
  | .readEnd =>
      match session.phase with
      | .reading _ moved =>
          if ¬ stopped ∧ session.incoming = [] ∧ session.ended then
            some { session with phase := .readDone (some eof) moved }
          else none
      | _ => none
  | .readFail ec =>
      match session.phase with
      | .reading _ moved => some { session with phase := .readDone (some ec) moved, failed := true }
      | _ => none
  | .readHandler =>
      match session.phase with
      | .readDone ec length => if stopped then none else some (session.readHandler alphabet ec length)
      | _ => none
  | .writeSome count =>
      match session.phase with
      | .writing view moved =>
          if ¬ stopped ∧ 0 < count ∧ moved + count ≤ view.length ∧ count ≤ session.room then
            some (session.writeSome view moved count)
          else none
      | _ => none
  | .writeFail ec =>
      match session.phase with
      | .writing _ moved => some { session with phase := .writeDone (some ec) moved, failed := true }
      | _ => none
  | .writeHandler =>
      match session.phase with
      | .writeDone ec length =>
          if stopped then none else some (session.writeHandler stopped ec length)
      | _ => none

end Session

/-- `loop.run()`, which returns when the loop is stopped and raises what a handler raises. -/
inductive Loop where
  | running
  | stopped
  | raised (ec : Errno)
  deriving DecidableEq

/-- The event loop and the sessions, in the order in which their connections were accepted. -/
structure Server (Reader Writer : Type) where
  loop : Loop
  sessions : List (Session Reader Writer)

namespace Server

inductive Action where
  | accept (printed constructed : Option Errno) (inBuffer : Fin 10 → Byte)
      (outBuffer : Fin 21 → Byte) (room : Nat)
  | stop
  | session (i : Nat) (action : Session.Action)

def OfLoop : Action → Prop
  | .session _ action => Session.OfLoop action
  | .accept _ _ _ _ _ | .stop => False

def start : Server Reader Writer := ⟨.running, []⟩

/-- No handler runs any more. -/
def isStopped (server : Server Reader Writer) : Bool := server.loop ≠ .running

def accept (server : Server Reader Writer) (session : Except Errno (Session Reader Writer)) :
    Server Reader Writer :=
  match session with
  | .ok session => { server with sessions := server.sessions ++ [session] }
  | .error ec => { server with loop := .raised ec }

def step (alphabet : Base16) (server : Server Reader Writer) :
    Action → Option (Server Reader Writer)
  | .accept printed constructed inBuffer outBuffer room =>
      if server.isStopped then none
      else
        some (server.accept
          (Session.onNewConnection server.isStopped printed constructed inBuffer outBuffer room))
  | .stop => if server.isStopped then none else some { server with loop := .stopped }
  | .session i action =>
      match server.sessions[i]? with
      | none => none
      | some session =>
          (session.step alphabet server.isStopped action).map fun next =>
            { server with sessions := server.sessions.set i next }

end Server

end Program

end Cadence
