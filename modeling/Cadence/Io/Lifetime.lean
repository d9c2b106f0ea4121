import Cadence.Io.File

/-!
# The lifetime of an object

One object that owns descriptors, from the moment it adopts them until it is destroyed, with the
outcome of each native close. On Linux a descriptor is released also by a close that fails, so all that
counts is how often it is passed to a close.
-/

namespace Cadence

structure IoObject.Closed where
  result : Except Exception Unit
  object : IoObject
  released : List PollId

def Closed.of (closed : Closed) (object : PollId → IoObject) : IoObject.Closed :=
  ⟨closed.result, object closed.fd, closed.released⟩

namespace IoObject

/-- The virtual `close`. The second outcome is that of the close of `_out`. -/
def close (object : IoObject) (ec ec' : Option Errno) : IoObject.Closed :=
  match object with
  | .file fd => (File.close fd ec).of .file
  | .serial fd => (File.close fd ec).of .serial
  | .sharedMemory fd linkedPath => (SharedMemory.close fd ec).of fun fd => .sharedMemory fd linkedPath
  | .bufferedFile _ fp => (BufferedFile.close fp).of fun fd => .bufferedFile fd none
  | .duplex in' out =>
      let closedIn := File.close in' ec
      match closedIn.result with
      | .error e => ⟨.error e, .duplex closedIn.fd out, closedIn.released⟩
      | .ok () =>
          let closedOut := File.close out ec'
          ⟨closedOut.result, .duplex closedIn.fd closedOut.fd,
            closedIn.released ++ closedOut.released⟩

/-- The descriptors that the destructor closes. An exception thrown there ends the program, so that
the `_in` of a duplex is not closed after a failed close of `_out`. -/
def destroy (object : IoObject) (ec ec' : Option Errno) : List PollId :=
  match object with
  | .file fd | .serial fd => (File.close fd ec).released
  | .sharedMemory fd _ => if fd ≠ InvalidFd then [fd] else []
  | .bufferedFile _ fp => (BufferedFile.close fp).released
  | .duplex in' out =>
      let closedOut := File.close out ec'
      match closedOut.result with
      | .error _ => closedOut.released
      | .ok () => closedOut.released ++ (File.close in' ec).released

end IoObject

/-- How an object comes by its descriptors. -/
inductive Adoption where
  | file (fd : PollId)
  | serial (fd : PollId)
  | sharedMemory (fd : PollId) (linkedPath : Option Path)
  | bufferedFile (fd : PollId)
  | duplex (inFid outFid : PollId) (distinct : inFid ≠ outFid)

def Adoption.object : Adoption → IoObject
  | .file fd => .file fd
  | .serial fd => .serial fd
  | .sharedMemory fd linkedPath => .sharedMemory fd linkedPath
  | .bufferedFile fd => .bufferedFile fd (some fd)
  | .duplex inFid outFid _ => .duplex inFid outFid

structure Lifetime where
  object : Option IoObject
  released : List PollId
  /-- Whether the last `close` raised. -/
  raised : Bool
  deriving DecidableEq

namespace Lifetime

def adopt (adoption : Adoption) : Lifetime := ⟨some adoption.object, [], false⟩

inductive Action where
  | close (ec ec' : Option Errno)
  | destroy (ec ec' : Option Errno)

def close (life : Lifetime) (object : IoObject) (ec ec' : Option Errno) : Lifetime :=
  let closed := object.close ec ec'
  { object := some closed.object
    released := life.released ++ closed.released
    raised := match closed.result with
      | .error _ => true
      | .ok () => false }

def destroy (life : Lifetime) (object : IoObject) (ec ec' : Option Errno) : Lifetime :=
  { object := none
    released := life.released ++ object.destroy ec ec'
    raised := false }

def step (life : Lifetime) : Action → Option Lifetime
  | .close ec ec' => life.object.map fun object => life.close object ec ec'
  | .destroy ec ec' => life.object.map fun object => life.destroy object ec ec'

end Lifetime

/-! ### Among other objects -/

namespace IoWorld

def closeObject (world : IoWorld) (loc : Nat) : Option IoWorld :=
  match world.objects loc with
  | some (.duplex _ _) => world.closeDuplex loc
  | some (.sharedMemory _ _) => world.closeSharedMemory loc
  | _ => world.closeFile (loc, .whole)

variable {world next : IoWorld} {loc : Nat} {object : IoObject}

/-- A `File` that is not buffered is closed in place. -/
theorem closeFile_eq_some {member : Member} {fd : PollId} (hobject : world.objects loc = some object)
    (hfile : object.getFile member = some fd) (hplain : object.isBuffered = false) :
    world.closeFile (loc, member) = some { world with
      objects := world.objects.put loc (object.setFile member InvalidFd)
      released := world.released ++ (validFd fd).toList } := by
  have hget : world.objects.getFile (loc, member) = some fd := by
    rw [IoObjects.getFile, hobject, Option.bind_some, hfile]
  have hset : world.objects.setFile (loc, member) InvalidFd =
      world.objects.put loc (object.setFile member InvalidFd) := by
    simp only [IoObjects.setFile, hobject]
  cases object with
  | bufferedFile => cases hplain
  | file | serial | duplex | sharedMemory =>
      simp only [closeFile, hobject, hget, Option.map_some, File.close_none, hset]

theorem closeObject_eq (hobject : world.objects loc = some object)
    (hclose : world.closeObject loc = some next) :
    next.objects loc = some (object.close none none).object ∧
      next.released = world.released ++ (object.close none none).released := by
  unfold closeObject at hclose
  cases object with
  | file fd | serial fd =>
      rw [hobject, closeFile_eq_some hobject rfl rfl] at hclose
      obtain rfl := Option.some.inj hclose
      simp only [IoObject.close, File.close_none]
      exact ⟨ObjectStore.put_self, rfl⟩
  | bufferedFile fd fp =>
      simp only [hobject, closeFile] at hclose
      obtain rfl := Option.some.inj hclose
      exact ⟨ObjectStore.put_self, rfl⟩
  | sharedMemory fd linkedPath =>
      simp only [hobject, closeSharedMemory] at hclose
      obtain rfl := Option.some.inj hclose
      exact ⟨ObjectStore.put_self, rfl⟩
  | duplex in' out =>
      rw [hobject] at hclose
      obtain ⟨middle, hin, hout⟩ := Option.bind_eq_some_iff.mp hclose
      rw [closeFile_eq_some hobject rfl rfl] at hin
      obtain rfl := Option.some.inj hin
      rw [closeFile_eq_some ObjectStore.put_self rfl rfl] at hout
      obtain rfl := Option.some.inj hout
      simp only [IoObject.close, File.close_none]
      exact ⟨ObjectStore.put_self, List.append_assoc _ _ _⟩

theorem released_destroy (hobject : world.objects loc = some object)
    (hdestroy : world.destroy loc = some next) :
    next.released = world.released ++ object.destroy none none := by
  unfold IoWorld.destroy at hdestroy
  cases object with
  | file fd | serial fd =>
      rw [hobject] at hdestroy
      obtain ⟨closed, hclose, rfl⟩ := Option.map_eq_some_iff.mp hdestroy
      rw [closeFile_eq_some hobject rfl rfl] at hclose
      obtain rfl := Option.some.inj hclose
      rw [IoObject.destroy, File.close_none]
      rfl
  | bufferedFile fd fp =>
      simp only [hobject, closeFile, Option.map_some] at hdestroy
      obtain rfl := Option.some.inj hdestroy
      rfl
  | sharedMemory fd linkedPath =>
      simp only [hobject] at hdestroy
      split at hdestroy
      next hclosed =>
        obtain rfl := Option.some.inj hdestroy
        simp [remove, IoObject.destroy, hclosed]
      next hopen =>
        obtain rfl := Option.some.inj hdestroy
        simp [IoObject.destroy, hopen]
  | duplex in' out =>
      rw [hobject] at hdestroy
      obtain ⟨closed, hboth, rfl⟩ := Option.map_eq_some_iff.mp hdestroy
      obtain ⟨middle, hout, hin⟩ := Option.bind_eq_some_iff.mp hboth
      rw [closeFile_eq_some hobject rfl rfl] at hout
      obtain rfl := Option.some.inj hout
      rw [closeFile_eq_some ObjectStore.put_self rfl rfl] at hin
      obtain rfl := Option.some.inj hin
      simp only [IoObject.destroy, File.close_none, remove]
      exact List.append_assoc _ _ _

end IoWorld

end Cadence
