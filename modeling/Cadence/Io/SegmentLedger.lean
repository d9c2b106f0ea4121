import Cadence.Foundation.Ownership
import Cadence.Io.File

/-!
# Segments and who made them

Shared memory objects, with a record of which call of `create` made the segment that each of them
holds. The record follows what an object has through moves and swaps, and stays with an object that is
closed. A name that a destructor unlinks is written down next to it.
-/

namespace Cadence

/-- A call of `SharedMemory::create` that returned. -/
structure Creation where
  number : Nat
  path : Path
  deriving DecidableEq

structure SegmentLedger where
  io : IoWorld
  creationAt : Nat → Option Creation
  creations : List Creation
  unlinked : List (Option Creation × Path)

namespace SegmentLedger

def empty : SegmentLedger := ⟨.create, fun _ => none, [], []⟩

/-- `SharedMemory{ fd, std::move(pathname) }`. -/
def create (ledger : SegmentLedger) (loc : Nat) (path : Path) (fd : PollId) :
    Option SegmentLedger :=
  if fd = InvalidFd then none
  else
    (ledger.io.construct loc (.sharedMemory fd (some path))).map fun io =>
      { ledger with
        io := io
        creationAt := Function.update ledger.creationAt loc (some ⟨ledger.creations.length, path⟩)
        creations := ledger.creations ++ [⟨ledger.creations.length, path⟩] }

/-- `SharedMemory{ fd }`. -/
def openSegment (ledger : SegmentLedger) (loc : Nat) (fd : PollId) : Option SegmentLedger :=
  if fd = InvalidFd then none
  else
    (ledger.io.construct loc (.sharedMemory fd none)).map fun io => { ledger with io := io }

def moveConstruct (ledger : SegmentLedger) (loc other : Nat) : Option SegmentLedger :=
  (ledger.io.moveSharedMemory loc other).map fun io =>
    { ledger with
      io := io
      creationAt := Function.update (Function.update ledger.creationAt other none) loc
        (ledger.creationAt other) }

def swap (ledger : SegmentLedger) (lhs rhs : Nat) : Option SegmentLedger :=
  (ledger.io.swapSharedMemory lhs rhs).map fun io =>
    { ledger with io := io, creationAt := ledger.creationAt ∘ Equiv.swap lhs rhs }

def close (ledger : SegmentLedger) (loc : Nat) : Option SegmentLedger :=
  (ledger.io.closeSharedMemory loc).map fun io => { ledger with io := io }

def destroy (ledger : SegmentLedger) (loc : Nat) : Option SegmentLedger :=
  (ledger.io.destroy loc).map fun io =>
    { ledger with
      io := io
      creationAt := Function.update ledger.creationAt loc none
      unlinked := ledger.unlinked ++
        (io.unlinked.drop ledger.io.unlinked.length).map fun path =>
          (ledger.creationAt loc, path) }

inductive Action where
  | create (loc : Nat) (path : Path) (fd : PollId)
  | openSegment (loc : Nat) (fd : PollId)
  | moveConstruct (loc other : Nat)
  | moveAssign (lhs rhs : Nat)
  | swap (lhs rhs : Nat)
  | close (loc : Nat)
  | destroy (loc : Nat)

def step (ledger : SegmentLedger) : Action → Option SegmentLedger
  | .create loc path fd => ledger.create loc path fd
  | .openSegment loc fd => ledger.openSegment loc fd
  | .moveConstruct loc other => ledger.moveConstruct loc other
  | .moveAssign lhs rhs | .swap lhs rhs => ledger.swap lhs rhs
  | .close loc => ledger.close loc
  | .destroy loc => ledger.destroy loc

end SegmentLedger

end Cadence
