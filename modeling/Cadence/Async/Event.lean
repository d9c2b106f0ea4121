import Cadence.Error
import Cadence.Foundation.Operations

/-!
# Events

An `Event` is an eventfd, a counter of the kernel that `notify` increments. A wait is a read, which
takes the whole count and leaves none. The loop reads for the wait that was started first, and runs
the handler of a wait later.
-/

namespace Cadence

open Operations

/-- The largest value of an eventfd. -/
def eventfdMax : Nat := 2 ^ 64 - 2

structure EventImpl where
  count : Nat
  isOpen : Bool
  waits : Table Unit (Except Errno Nat)
  /-- The calls of `notify` that have not raised. -/
  notified : Nat
  deriving DecidableEq

namespace EventImpl

def create : EventImpl := ⟨0, true, [], 0⟩

/-- `eventfd_write` of one, which does not block. -/
def notify (impl : EventImpl) : Except Exception EventImpl :=
  if impl.count < eventfdMax then
    .ok { impl with count := impl.count + 1, notified := impl.notified + 1 }
  else .error (.ioException EAGAIN)

def asyncWait (impl : EventImpl) : EventImpl := { impl with waits := impl.waits.start () }

/-- The handler of a wait, given how the read ended. -/
def handler : Except Errno Nat → Except Error Unit
  | .error error => .error (fromAsioError error "asyncAwait")
  | .ok _ => .ok ()

/-- The read for the first wait. There is nothing to read while the count is zero. -/
def read (impl : EventImpl) : Option EventImpl :=
  match impl.waits.firstWaiting with
  | some () =>
      if 0 < impl.count then
        some { impl with
          count := 0
          waits := impl.waits.complete (fun _ => .ok impl.count) 1 }
      else none
  | none => none

def fail (impl : EventImpl) (error : Errno) : EventImpl :=
  { impl with waits := impl.waits.complete (fun _ => .error error) 1 }

/-- The descriptor is closed, which cancels the waits that are left. -/
def destroy (impl : EventImpl) : EventImpl :=
  { impl with
    isOpen := false
    waits := impl.waits.completeAll fun _ => .error ECANCELED }

inductive Action where
  | notify
  | asyncWait
  | destroy
  | read
  | fail (error : Errno)
  | deliver (i : Nat)

/-- The actions of the loop. -/
def OfLoop : Action → Prop
  | .read | .deliver _ => True
  | .notify | .asyncWait | .destroy | .fail _ => False

/-- A call that raises leaves the event as it is. -/
def step (impl : EventImpl) : Action → Option EventImpl
  | .notify =>
      if impl.isOpen then
        match impl.notify with
        | .ok next => some next
        | .error _ => some impl
      else none
  | .asyncWait => if impl.isOpen then some impl.asyncWait else none
  | .destroy => if impl.isOpen then some impl.destroy else none
  | .read => if impl.isOpen then impl.read else none
  | .fail error => if impl.isOpen then some (impl.fail error) else none
  | .deliver i => (impl.waits.deliver i).map fun waits => { impl with waits := waits }

end EventImpl

end Cadence
