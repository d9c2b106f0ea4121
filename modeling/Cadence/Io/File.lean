import Cadence.Foundation.ObjectStore
import Cadence.Io.Selectable

/-!
# Files and what is built of them

The classes that own descriptors: `File`, `Serial` and `PlatformFilesystem::BufferedFile` derived from
it, `Duplex` with two of them, and `SharedMemory`. Objects are told apart by their location, because a
function that takes a `File&` can be given any `File` there is, also one inside another object.
-/

namespace Cadence

abbrev Path := String

structure Closed where
  result : Except Exception Unit
  fd : PollId
  /-- The descriptors passed to a native close, or to `fclose` by way of their `FILE`. -/
  released : List PollId

/-- `::close(fd)`, which raises for an error and is followed by `invalidateFd()` else. -/
def nativeClose (fd : PollId) (ec : Option Errno) : Closed :=
  match ec with
  | some ec => ⟨.error (.ioException ec), fd, [fd]⟩
  | none => ⟨.ok (), InvalidFd, [fd]⟩

def File.close (fd : PollId) (ec : Option Errno) : Closed :=
  if fd = InvalidFd then ⟨.ok (), fd, []⟩ else nativeClose fd ec

def SharedMemory.close (fd : PollId) (ec : Option Errno) : Closed :=
  if fd = InvalidFd then ⟨.error .notOpen, fd, []⟩ else nativeClose fd ec

/-- `BufferedFile::close`, given the descriptor of `_fp`. `_fp` becomes null. -/
def BufferedFile.close (fp : Option PollId) : Closed :=
  ⟨.ok (), InvalidFd, fp.toList⟩

def validFd (fd : PollId) : Option PollId :=
  if fd = InvalidFd then none else some fd

section Close

variable {fd : PollId} {ec : Option Errno}

theorem File.close_of_succeeds (hsucceeds : fd ≠ InvalidFd → ec = none) :
    File.close fd ec = ⟨.ok (), InvalidFd, (validFd fd).toList⟩ := by
  unfold File.close validFd
  split
  next hclosed => rw [hclosed]; rfl
  next hopen => rw [hsucceeds hopen]; rfl

theorem File.close_none : File.close fd none = ⟨.ok (), InvalidFd, (validFd fd).toList⟩ :=
  close_of_succeeds fun _ => rfl

theorem File.close_of_not_succeeds (hfails : ¬ (fd ≠ InvalidFd → ec = none)) :
    fd ≠ InvalidFd ∧ ∃ e, File.close fd ec = ⟨.error e, fd, [fd]⟩ := by
  obtain ⟨hopen, hec⟩ := Classical.not_imp.mp hfails
  obtain ⟨errno, rfl⟩ := Option.ne_none_iff_exists'.mp hec
  exact ⟨hopen, .ioException errno, if_neg hopen⟩

theorem File.released_close : (File.close fd ec).released = (validFd fd).toList := by
  unfold File.close validFd
  split
  next => rfl
  next => cases ec <;> rfl

theorem SharedMemory.close_of_opened (hopen : fd ≠ InvalidFd) :
    SharedMemory.close fd ec = File.close fd ec := by
  rw [SharedMemory.close, File.close, if_neg hopen, if_neg hopen]

theorem SharedMemory.close_of_succeeds (hsucceeds : fd ≠ InvalidFd → ec = none) :
    (SharedMemory.close fd ec).fd = InvalidFd ∧
      (SharedMemory.close fd ec).released = (validFd fd).toList := by
  by_cases hopen : fd = InvalidFd
  · rw [hopen]
    exact ⟨rfl, rfl⟩
  · rw [close_of_opened hopen, File.close_of_succeeds hsucceeds]
    exact ⟨rfl, rfl⟩

end Close

inductive IoObject where
  | file (fd : PollId)
  | serial (fd : PollId)
  | duplex (in' out : PollId)
  | sharedMemory (fd : PollId) (linkedPath : Option Path)
  /-- `fp` is the descriptor of `_fp`, while that is not null. -/
  | bufferedFile (fd : PollId) (fp : Option PollId)
  deriving DecidableEq

inductive Member where
  | whole
  | readEnd
  | writeEnd
  deriving DecidableEq

namespace IoObject

def getFile : IoObject → Member → Option PollId
  | .file fd, .whole | .serial fd, .whole | .bufferedFile fd _, .whole => some fd
  | .duplex in' _, .readEnd => some in'
  | .duplex _ out, .writeEnd => some out
  | _, _ => none

def setFile : IoObject → Member → PollId → IoObject
  | .file _, .whole, fd => .file fd
  | .serial _, .whole, fd => .serial fd
  | .bufferedFile _ fp, .whole, fd => .bufferedFile fd fp
  | .duplex _ out, .readEnd, fd => .duplex fd out
  | .duplex in' _, .writeEnd, fd => .duplex in' fd
  | object, _, _ => object

def isOpened : IoObject → Bool
  | .file fd | .serial fd | .bufferedFile fd _ | .sharedMemory fd _ => fd != InvalidFd
  | .duplex in' out => in' != InvalidFd || out != InvalidFd

def isBuffered : IoObject → Bool
  | .bufferedFile _ _ => true
  | _ => false

def descriptors : IoObject → List PollId
  | .file fd | .serial fd | .sharedMemory fd _ => (validFd fd).toList
  | .duplex in' out => (validFd in').toList ++ (validFd out).toList
  | .bufferedFile fd fp => (validFd fd).toList ++ fp.toList

end IoObject

abbrev IoObjects := ObjectStore Nat IoObject

/-- A `File`, by the location of the object it is or belongs to. -/
abbrev Slot := Nat × Member

namespace IoObjects

def getFile (objects : IoObjects) (slot : Slot) : Option PollId :=
  (objects slot.1).bind fun object => object.getFile slot.2

def setFile (objects : IoObjects) (slot : Slot) (fd : PollId) : IoObjects :=
  match objects slot.1 with
  | some object => objects.put slot.1 (object.setFile slot.2 fd)
  | none => objects

def isBuffered (objects : IoObjects) (slot : Slot) : Bool :=
  (objects slot.1).any IoObject.isBuffered

/-- `File(File&& other)`: the descriptor of the new file, and the objects without it. -/
def moveFrom (objects : IoObjects) (other : Slot) : Option (PollId × IoObjects) :=
  (objects.getFile other).map fun fd => (fd, objects.setFile other InvalidFd)

def swapFile (objects : IoObjects) (lhs rhs : Slot) : Option IoObjects := do
  let x ← objects.getFile lhs
  let y ← objects.getFile rhs
  return (objects.setFile lhs y).setFile rhs x

end IoObjects

structure IoWorld where
  objects : IoObjects
  adopted : List PollId
  released : List PollId
  unlinked : List Path

namespace IoWorld

def create : IoWorld := ⟨fun _ => none, [], [], []⟩

def construct (world : IoWorld) (loc : Nat) (object : IoObject) : Option IoWorld :=
  if world.objects loc = none then
    some { world with objects := world.objects.put loc object }
  else none

theorem construct_eq_some {world next : IoWorld} {loc : Nat} {object : IoObject}
    (hconstruct : world.construct loc object = some next) :
    world.objects loc = none ∧ next = { world with objects := world.objects.put loc object } := by
  unfold construct at hconstruct
  split at hconstruct
  next hnone => exact ⟨hnone, (Option.some.inj hconstruct).symm⟩
  next => cases hconstruct

def adopt (world : IoWorld) (fd : PollId) : Option IoWorld :=
  if fd ≠ InvalidFd ∧ fd ∉ world.adopted then
    some { world with adopted := world.adopted ++ [fd] }
  else none

/-- The virtual `close` of the `File` at a slot. Every native close succeeds. -/
def closeFile (world : IoWorld) (slot : Slot) : Option IoWorld :=
  match world.objects slot.1, slot.2 with
  | some (.bufferedFile _ fp), .whole =>
      let closed := BufferedFile.close fp
      some { world with
        objects := world.objects.put slot.1 (.bufferedFile closed.fd none)
        released := world.released ++ closed.released }
  | _, _ =>
      (world.objects.getFile slot).map fun fd =>
        let closed := File.close fd none
        { world with
          objects := world.objects.setFile slot closed.fd
          released := world.released ++ closed.released }

def closeDuplex (world : IoWorld) (loc : Nat) : Option IoWorld :=
  (world.closeFile (loc, .readEnd)).bind fun world => world.closeFile (loc, .writeEnd)

/-- A call on a closed object raises and changes nothing. -/
def closeSharedMemory (world : IoWorld) (loc : Nat) : Option IoWorld :=
  match world.objects loc with
  | some (.sharedMemory fd linkedPath) =>
      let closed := SharedMemory.close fd none
      some { world with
        objects := world.objects.put loc (.sharedMemory closed.fd linkedPath)
        released := world.released ++ closed.released }
  | _ => none

def moveFile (world : IoWorld) (loc : Nat) (other : Slot) : Option IoWorld :=
  (world.objects.moveFrom other).bind fun (fd, objects) =>
    { world with objects := objects }.construct loc (.file fd)

def moveSerial (world : IoWorld) (loc other : Nat) : Option IoWorld :=
  match world.objects other with
  | some (.serial _) =>
      (world.objects.moveFrom (other, .whole)).bind fun (fd, objects) =>
        { world with objects := objects }.construct loc (.serial fd)
  | _ => none

/-- `Duplex(File&& inFile, File&& outFile)`. -/
def moveFiles (world : IoWorld) (loc : Nat) (inFile outFile : Slot) : Option IoWorld :=
  (world.objects.moveFrom inFile).bind fun (in', objects) =>
    (objects.moveFrom outFile).bind fun (out, objects) =>
      { world with objects := objects }.construct loc (.duplex in' out)

/-- `Duplex(Duplex&& rhs)`. -/
def moveDuplex (world : IoWorld) (loc rhs : Nat) : Option IoWorld :=
  world.moveFiles loc (rhs, .readEnd) (rhs, .writeEnd)

def moveSharedMemory (world : IoWorld) (loc other : Nat) : Option IoWorld :=
  match world.objects other with
  | some (.sharedMemory fd linkedPath) =>
      { world with objects := world.objects.put other (.sharedMemory InvalidFd none) }.construct
        loc (.sharedMemory fd linkedPath)
  | _ => none

def swapFile (world : IoWorld) (lhs rhs : Slot) : Option IoWorld :=
  (world.objects.swapFile lhs rhs).map fun objects => { world with objects := objects }

def swapDuplex (world : IoWorld) (lhs rhs : Nat) : Option IoWorld :=
  (world.swapFile (lhs, .readEnd) (rhs, .readEnd)).bind fun world =>
    world.swapFile (lhs, .writeEnd) (rhs, .writeEnd)

def swapSharedMemory (world : IoWorld) (lhs rhs : Nat) : Option IoWorld :=
  match world.objects lhs, world.objects rhs with
  | some (.sharedMemory fd linkedPath), some (.sharedMemory fd' linkedPath') =>
      some { world with
        objects := (world.objects.put lhs (.sharedMemory fd' linkedPath')).put rhs
          (.sharedMemory fd linkedPath) }
  | _, _ => none

def swapBufferedFile (world : IoWorld) (lhs rhs : Nat) : Option IoWorld :=
  match world.objects lhs, world.objects rhs with
  | some (.bufferedFile fd fp), some (.bufferedFile fd' fp') =>
      some { world with
        objects := (world.objects.put lhs (.bufferedFile fd' fp')).put rhs (.bufferedFile fd fp) }
  | _, _ => none

def remove (world : IoWorld) (loc : Nat) : IoWorld :=
  { world with objects := world.objects.remove loc }

/-- The destructors. Members are destroyed last to first. -/
def destroy (world : IoWorld) (loc : Nat) : Option IoWorld :=
  match world.objects loc with
  | some (.file _) | some (.serial _) | some (.bufferedFile _ _) =>
      (world.closeFile (loc, .whole)).map fun world => world.remove loc
  | some (.duplex _ _) =>
      ((world.closeFile (loc, .writeEnd)).bind fun world =>
        world.closeFile (loc, .readEnd)).map fun world => world.remove loc
  | some (.sharedMemory fd linkedPath) =>
      if fd = InvalidFd then some (world.remove loc)
      else
        some { world.remove loc with
          released := world.released ++ [fd]
          unlinked := world.unlinked ++ linkedPath.toList }
  | none => none

/-- `fromFd`, the constructors that open a descriptor, and `PlatformFilesystem::open`, the move
constructors, the assignments (each of which swaps), the swaps, `close` and the destructors. A
`File&` is a slot, and the swaps of a `Serial` are those of a `File`. -/
inductive Action where
  | adoptFile (loc : Nat) (fd : PollId)
  | adoptSerial (loc : Nat) (fd : PollId)
  | adoptDuplex (loc : Nat) (inFid outFid : PollId)
  | adoptSharedMemory (loc : Nat) (fd : PollId) (linkedPath : Option Path)
  | adoptBufferedFile (loc : Nat) (fd : PollId)
  | moveFile (loc : Nat) (other : Slot)
  | moveSerial (loc other : Nat)
  | moveFiles (loc : Nat) (inFile outFile : Slot)
  | moveDuplex (loc rhs : Nat)
  | moveSharedMemory (loc other : Nat)
  | swapFile (lhs rhs : Slot)
  | swapDuplex (lhs rhs : Nat)
  | swapSharedMemory (lhs rhs : Nat)
  | swapBufferedFile (lhs rhs : Nat)
  | closeFile (slot : Slot)
  | closeDuplex (loc : Nat)
  | closeSharedMemory (loc : Nat)
  | destroy (loc : Nat)

def step (world : IoWorld) : Action → Option IoWorld
  | .adoptFile loc fd => (world.adopt fd).bind fun world => world.construct loc (.file fd)
  | .adoptSerial loc fd => (world.adopt fd).bind fun world => world.construct loc (.serial fd)
  | .adoptDuplex loc inFid outFid =>
      ((world.adopt inFid).bind fun world => world.adopt outFid).bind fun world =>
        world.construct loc (.duplex inFid outFid)
  | .adoptSharedMemory loc fd linkedPath =>
      (world.adopt fd).bind fun world => world.construct loc (.sharedMemory fd linkedPath)
  | .adoptBufferedFile loc fd =>
      (world.adopt fd).bind fun world => world.construct loc (.bufferedFile fd (some fd))
  | .moveFile loc other => world.moveFile loc other
  | .moveSerial loc other => world.moveSerial loc other
  | .moveFiles loc inFile outFile => world.moveFiles loc inFile outFile
  | .moveDuplex loc rhs => world.moveDuplex loc rhs
  | .moveSharedMemory loc other => world.moveSharedMemory loc other
  | .swapFile lhs rhs => world.swapFile lhs rhs
  | .swapDuplex lhs rhs => world.swapDuplex lhs rhs
  | .swapSharedMemory lhs rhs => world.swapSharedMemory lhs rhs
  | .swapBufferedFile lhs rhs => world.swapBufferedFile lhs rhs
  | .closeFile slot => world.closeFile slot
  | .closeDuplex loc => world.closeDuplex loc
  | .closeSharedMemory loc => world.closeSharedMemory loc
  | .destroy loc => world.destroy loc

end IoWorld

end Cadence
