import Cadence.Foundation.ObjectStore
import Cadence.Proof.BufferedResults

/-!
# The platform file system

`PlatformFilesystem` creates, opens and removes files by name. A name leads to a file of the operating
system, and so does every file object that was made by it; the file stays as long as either does. Two
paths that lead to the same place are one name.
-/

namespace Cadence

open BufferedResults

/-- A file of the operating system, and the file objects that have it open. -/
structure SharedFile where
  content : List Byte
  sessions : ObjectStore Nat Session

namespace SharedFile

/-- A file object sees the file as the others have left it. -/
def load (content : List Byte) (session : Session) : Session :=
  { session with fp := session.fp.map fun stream =>
      { stream with file := { stream.file with content := content } } }

/-- The file behind a stream after a call, one that closes the stream included. -/
def contentAfter (session next : Session) (call : Call) (content : List Byte) : List Byte :=
  match session.fp, next.fp with
  | _, some stream => stream.file.content
  | some stream, none =>
      match stream.fflush call.2 with
      | some (_, flushed) => flushed.file.content
      | none => content
  | none, none => content

inductive Action where
  | attach (loc : Nat)
  | call (loc : Nat) (call : Call)
  | destroy (loc : Nat) (steps : List LibraryStep)

def attach (file : SharedFile) (loc : Nat) : SharedFile :=
  { file with sessions := file.sessions.put loc (.opened file.content) }

def call (file : SharedFile) (loc : Nat) (call : Call) : Option SharedFile :=
  (file.sessions loc).bind fun old =>
    let session := load file.content old
    (BufferedResults.step session call).map fun next =>
      ⟨contentAfter session next call file.content, file.sessions.put loc next⟩

/-- `~BufferedFile()` closes the stream first. -/
def destroy (file : SharedFile) (loc : Nat) (steps : List LibraryStep) : Option SharedFile :=
  (file.call loc (.close, steps)).map fun closed =>
    { closed with sessions := closed.sessions.remove loc }

def step (file : SharedFile) : Action → Option SharedFile
  | .attach loc => some (file.attach loc)
  | .call loc request => file.call loc request
  | .destroy loc steps => file.destroy loc steps

end SharedFile

inductive DirEntry where
  | file (inode : Nat)
  | directory
  deriving DecidableEq

/-- A file object, made by `create` or `open`. -/
structure FileObject where
  inode : Nat
  session : Session

/-- The names, the files and the file objects there are. -/
structure FileStore (Location : Type) where
  names : ObjectStore Location DirEntry
  inodes : List (List Byte)
  objects : ObjectStore Nat FileObject

namespace PlatformFilesystem

variable {Location : Type} [DecidableEq Location]

variable (resolve : Path → Location) (store : FileStore Location)

/-- `fopen` with the mode `w+x`. Apart from a name that is taken, the environment makes it fail. -/
def create (loc : Nat) (path : Path) (outcome : Option Errno) :
    Except Exception (FileStore Location) :=
  match outcome, store.names (resolve path) with
  | some errno, _ => .error (.ioException errno)
  | none, some _ => .error (.ioException EEXIST)
  | none, none =>
      .ok {
        names := store.names.put (resolve path) (.file store.inodes.length)
        inodes := store.inodes ++ [[]]
        objects := store.objects.put loc ⟨store.inodes.length, .opened []⟩ }

/-- `fopen` with the mode `r+`. -/
def open' (loc : Nat) (path : Path) (outcome : Option Errno) :
    Except Exception (FileStore Location) :=
  match outcome, store.names (resolve path) with
  | some errno, _ => .error (.ioException errno)
  | none, none => .error (.ioException ENOENT)
  | none, some .directory => .error (.ioException EISDIR)
  | none, some (.file inode) =>
      .ok { store with
        objects := store.objects.put loc ⟨inode, .opened (store.inodes.getD inode [])⟩ }

/-- `::remove`, which removes an empty directory as well. -/
def unlink (path : Path) (outcome : Option Errno) : Except Exception (FileStore Location) :=
  match outcome, store.names (resolve path) with
  | some errno, _ => .error (.ioException errno)
  | none, none => .error (.ioException ENOENT)
  | none, some _ => .ok { store with names := store.names.remove (resolve path) }

def exists' (path : Path) : Bool := (store.names (resolve path)).isSome

def isFile (path : Path) : Except Exception Bool :=
  match store.names (resolve path) with
  | none => .error (.ioException ENOENT)
  | some entry => .ok (entry ≠ .directory)

def isDirectory (path : Path) : Except Exception Bool :=
  match store.names (resolve path) with
  | none => .error (.ioException ENOENT)
  | some entry => .ok (entry = .directory)

def fileAt (inode : Nat) : SharedFile where
  content := store.inodes.getD inode []
  sessions loc := (store.objects loc).bind fun object =>
    if object.inode = inode then some object.session else none

/-- The store when one of its files has changed, and the file objects that have it open. -/
def withFile (inode : Nat) (file : SharedFile) : FileStore Location where
  names := store.names
  inodes := store.inodes.set inode file.content
  objects loc :=
    match store.objects loc with
    | some object =>
        if object.inode = inode then (file.sessions loc).map fun session => ⟨inode, session⟩
        else some object
    | none => none

/-- A call of a file object, or its destructor, works on the file that it has open. -/
def onFile (loc : Nat) (f : SharedFile → Option SharedFile) : Option (FileStore Location) :=
  (store.objects loc).bind fun object =>
    (f (fileAt store object.inode)).map fun file => withFile store object.inode file

inductive Action where
  | create (loc : Nat) (path : Path) (outcome : Option Errno)
  | open' (loc : Nat) (path : Path) (outcome : Option Errno)
  | unlink (path : Path) (outcome : Option Errno)
  | call (loc : Nat) (call : Call)
  | destroy (loc : Nat) (steps : List LibraryStep)

/-- What a call that raises leaves is what there was. -/
def orUnchanged (result : Except Exception (FileStore Location)) : FileStore Location :=
  match result with
  | .ok next => next
  | .error _ => store

def step : Action → Option (FileStore Location)
  | .create loc path outcome =>
      if store.objects loc = none then
        some (orUnchanged store (create resolve store loc path outcome))
      else none
  | .open' loc path outcome =>
      if store.objects loc = none then
        some (orUnchanged store (open' resolve store loc path outcome))
      else none
  | .unlink path outcome => some (orUnchanged store (unlink resolve store path outcome))
  | .call loc request => onFile store loc fun file => file.call loc request
  | .destroy loc steps => onFile store loc fun file => file.destroy loc steps

end PlatformFilesystem

end Cadence
