import Cadence.Foundation.StdVector
import Mathlib.Logic.Function.Basic
import Cadence.Io.Selector

/-!
# The epoll back-end

`EPollSelectorImpl` over the kernel's epoll instance. The kernel keeps, for each registered
descriptor, the `epoll_event` given with it; the pointer in it is the address of an element of
`_selectables`, and `getEvent` reads the descriptor and the user data through it.

A system call takes its result from the caller of the model: `failure` makes `epoll_ctl` fail with
that error, and `epoll_wait` returns what it is given.
-/

namespace Cadence

open Selector

def EPOLLIN : BitVec 32 := 0x001
def EPOLLOUT : BitVec 32 := 0x004
def EPOLLERR : BitVec 32 := 0x008
def EPOLLHUP : BitVec 32 := 0x010

/-- `epoll_event`. A null pointer is `none`. -/
structure EpollEvent where
  events : BitVec 32
  ptr : Option SlotAddress
  deriving DecidableEq

/-- The kernel's interest list: the event each registered descriptor was added with. -/
structure EpollInstance where
  interest : PollId → Option EpollEvent

namespace EpollInstance

def Registers (epoll : EpollInstance) (fd : PollId) : Prop := (epoll.interest fd).isSome

instance (epoll : EpollInstance) (fd : PollId) : Decidable (epoll.Registers fd) :=
  inferInstanceAs (Decidable (_ = true))

-- `epoll_create` only checks that the size is positive
def create (size : Int) (failure : Option Errno) : Except Errno EpollInstance :=
  match failure with
  | some errno => .error errno
  | none => if 0 < size then .ok ⟨fun _ => none⟩ else .error EINVAL

def ctlAdd (epoll : EpollInstance) (fd : PollId) (event : EpollEvent) (failure : Option Errno) :
    Except Errno EpollInstance :=
  match failure with
  | some errno => .error errno
  | none =>
      if epoll.Registers fd then .error EEXIST
      else .ok ⟨Function.update epoll.interest fd (some event)⟩

def ctlDel (epoll : EpollInstance) (fd : PollId) (failure : Option Errno) :
    Except Errno EpollInstance :=
  match failure with
  | some errno => .error errno
  | none =>
      if epoll.Registers fd then .ok ⟨Function.update epoll.interest fd none⟩
      else .error ENOENT

/-- The last descriptor of the file is closed. -/
def forget (epoll : EpollInstance) (fd : PollId) : EpollInstance :=
  ⟨Function.update epoll.interest fd none⟩

structure Report where
  fd : PollId
  events : BitVec 32
  deriving DecidableEq

/-- The kernel reports registered descriptors, each at most once, and no more than asked for. -/
def MayReport (epoll : EpollInstance) (maxEvents : Nat) (reports : List Report) : Prop :=
  reports.length ≤ maxEvents ∧ (reports.map Report.fd).Nodup ∧
    ∀ report ∈ reports, epoll.Registers report.fd

/-- What `epoll_wait` writes for a report: the conditions found and the pointer registered. -/
def eventOf (epoll : EpollInstance) (report : Report) : EpollEvent :=
  ⟨report.events, (epoll.interest report.fd).bind EpollEvent.ptr⟩

end EpollInstance

inductive WaitOutcome where
  | failed (errno : Errno)
  | ready (reports : List EpollInstance.Report)

structure EPollSelectorImpl (Data : Type) where
  selectables : StdVector (Selectable Data)
  evlist : List EpollEvent
  epoll : EpollInstance

namespace EPollSelectorImpl

variable {Data : Type} (growth : GrowthPolicy)

-- `epoll_create` takes the size as an `int`
def create (maxReportedEvents : BitVec 32) (failure : Option Errno) :
    Except Exception (EPollSelectorImpl Data) :=
  match EpollInstance.create maxReportedEvents.toInt failure with
  | .error errno => .error (.ioException errno)
  | .ok epoll =>
      .ok { selectables := StdVector.empty.reserve maxReportedEvents.toNat
            evlist := List.replicate maxReportedEvents.toNat ⟨0, none⟩
            epoll := epoll }

-- the element is in the vector before the kernel is asked
def addRaw (impl : EPollSelectorImpl Data) (fd : PollId) (nativeEvents : BitVec 32) (data : Data)
    (failure : Option Errno) : Except Exception Unit × EPollSelectorImpl Data :=
  let selectables := impl.selectables.pushBack growth ⟨fd, data⟩
  let epollEvent : EpollEvent := ⟨nativeEvents, some selectables.backAddress⟩
  match impl.epoll.ctlAdd fd epollEvent failure with
  | .error errno => (.error (.ioException errno), { impl with selectables := selectables })
  | .ok epoll => (.ok (), { impl with selectables := selectables, epoll := epoll })

def nativeEvents (events : BitVec 32) : BitVec 32 :=
  let native : BitVec 32 := 0
  let native := orIf (hasFlag events Selector.Read) native EPOLLIN
  let native := orIf (hasFlag events Selector.Write) native EPOLLOUT
  let native := orIf (hasFlag events Selector.Error) native EPOLLERR
  orIf (hasFlag events Selector.Hup) native EPOLLHUP

def add (impl : EPollSelectorImpl Data) (fd : PollId) (events : BitVec 32) (data : Data)
    (failure : Option Errno) : Except Exception Unit × EPollSelectorImpl Data :=
  impl.addRaw growth fd (nativeEvents events) data failure

def eraseSelectables (impl : EPollSelectorImpl Data) (fd : PollId) : EPollSelectorImpl Data :=
  { impl with selectables := impl.selectables.eraseIf fun x => x.fd == fd }

-- an error of `epoll_ctl` other than `ENOENT` raises before the vector is touched
def remove (impl : EPollSelectorImpl Data) (fd : PollId) (failure : Option Errno) :
    Except Exception Unit × EPollSelectorImpl Data :=
  match impl.epoll.ctlDel fd failure with
  | .error errno =>
      if errno ≠ ENOENT then (.error (.ioException errno), impl)
      else (.ok (), impl.eraseSelectables fd)
  | .ok epoll => (.ok (), { impl with epoll := epoll }.eraseSelectables fd)

def receive (impl : EPollSelectorImpl Data) (reports : List EpollInstance.Report) :
    EPollSelectorImpl Data :=
  { impl with
    evlist := reports.map impl.epoll.eventOf ++ impl.evlist.drop reports.length }

/-- The remaining `attempts` of `poll`, the next one being the wait number `i`. -/
def pollLoop (impl : EPollSelectorImpl Data) (waits : Nat → WaitOutcome) (i : Nat) :
    (attempts : Nat) → Except Exception ReadyIdRange × EPollSelectorImpl Data
  | 0 => (.ok ⟨0, 0⟩, impl)
  | attempts + 1 =>
      match waits i with
      | .failed errno =>
          if errno ≠ EINTR then (.error (.ioException errno), impl)
          else pollLoop impl waits (i + 1) attempts
      | .ready reports => (.ok ⟨0, reports.length⟩, impl.receive reports)

def poll (impl : EPollSelectorImpl Data) (waits : Nat → WaitOutcome) :
    Except Exception ReadyIdRange × EPollSelectorImpl Data :=
  impl.pollLoop waits 0 3

def eventFlags (events : BitVec 32) : BitVec 32 :=
  let flags : BitVec 32 := 0
  let flags := orIf (hasFlag events EPOLLIN) flags Selector.Read
  let flags := orIf (hasFlag events EPOLLOUT) flags Selector.Write
  let flags := orIf (hasFlag events EPOLLERR) flags Selector.Error
  orIf (hasFlag events EPOLLHUP) flags Selector.Hup

/-- `getEvent`. There is no result when the index is outside `_evlist`, or the pointer found there
does not reach an element of the vector. -/
def getEvent (impl : EPollSelectorImpl Data) (i : Nat) : Option (Event Data) := do
  let ev ← impl.evlist[i]?
  let ptr ← ev.ptr
  let selected ← impl.selectables.deref ptr
  return ⟨selected.fd, eventFlags ev.events, selected.data⟩

def advance (offsetIndex : Nat) : Nat := offsetIndex + 1

/-! ### What the calls do -/

section Calls

variable {growth} {impl : EPollSelectorImpl Data} {fd : PollId}

theorem create_eq_ok {maxReportedEvents : BitVec 32} {failure : Option Errno}
    (hcreate : create maxReportedEvents failure = .ok impl) :
    0 < maxReportedEvents.toNat ∧ impl.selectables.elems = [] ∧
      impl.selectables.capacity = maxReportedEvents.toNat ∧
      impl.evlist.length = maxReportedEvents.toNat ∧ ∀ fd, ¬ impl.epoll.Registers fd := by
  unfold create EpollInstance.create at hcreate
  cases failure with
  | some errno => simp at hcreate
  | none =>
      by_cases hsize : 0 < maxReportedEvents.toInt
      · simp only [if_pos hsize, Except.ok.injEq] at hcreate
        subst hcreate
        have hpos : 0 < maxReportedEvents.toNat := by
          rw [BitVec.toInt_eq_toNat_cond] at hsize
          split at hsize <;> omega
        refine ⟨hpos, ?_, StdVector.capacity_reserve_empty _, by simp, ?_⟩
        · rw [StdVector.elems_reserve]
          rfl
        · simp [EpollInstance.Registers]
      · simp [hsize] at hcreate

theorem addRaw_none_eq_ok {nativeEvents : BitVec 32} {data : Data} {next : EPollSelectorImpl Data}
    (hadd : impl.addRaw growth fd nativeEvents data none = (.ok (), next)) :
    ¬ impl.epoll.Registers fd ∧
      next.selectables = impl.selectables.pushBack growth ⟨fd, data⟩ ∧
      next.evlist = impl.evlist ∧
      next.epoll.interest = Function.update impl.epoll.interest fd
        (some ⟨nativeEvents, some (impl.selectables.pushBack growth ⟨fd, data⟩).backAddress⟩) := by
  unfold addRaw EpollInstance.ctlAdd at hadd
  by_cases hfd : impl.epoll.Registers fd
  · simp [hfd] at hadd
  · simp only [if_neg hfd, Prod.mk.injEq, true_and] at hadd
    subst hadd
    exact ⟨hfd, rfl, rfl, rfl⟩

theorem remove_none_eq_ok {next : EPollSelectorImpl Data}
    (hremove : impl.remove fd none = (.ok (), next)) :
    next.selectables = impl.selectables.eraseIf (fun x => x.fd == fd) ∧
      next.evlist = impl.evlist ∧
      next.epoll.interest = Function.update impl.epoll.interest fd none := by
  unfold remove EpollInstance.ctlDel at hremove
  by_cases hfd : impl.epoll.Registers fd
  · simp only [if_pos hfd, Prod.mk.injEq, true_and] at hremove
    subst hremove
    exact ⟨rfl, rfl, rfl⟩
  · simp only [if_neg hfd, ne_eq, not_true_eq_false, if_false, Prod.mk.injEq, true_and] at hremove
    subst hremove
    refine ⟨rfl, rfl, ?_⟩
    have hnone : impl.epoll.interest fd = none := by
      simpa [EpollInstance.Registers] using hfd
    rw [← hnone, Function.update_eq_self]
    rfl

theorem registers_addRaw_iff {nativeEvents : BitVec 32} {data : Data}
    {next : EPollSelectorImpl Data} {other : PollId}
    (hadd : impl.addRaw growth fd nativeEvents data none = (.ok (), next)) :
    next.epoll.Registers other ↔ other = fd ∨ impl.epoll.Registers other := by
  obtain ⟨_, _, _, hinterest⟩ := addRaw_none_eq_ok hadd
  by_cases heq : other = fd
  · simp [EpollInstance.Registers, hinterest, heq]
  · simp [EpollInstance.Registers, hinterest, heq]

theorem registers_remove_iff {next : EPollSelectorImpl Data} {other : PollId}
    (hremove : impl.remove fd none = (.ok (), next)) :
    next.epoll.Registers other ↔ other ≠ fd ∧ impl.epoll.Registers other := by
  obtain ⟨_, _, hinterest⟩ := remove_none_eq_ok hremove
  by_cases heq : other = fd
  · simp [EpollInstance.Registers, hinterest, heq]
  · simp [EpollInstance.Registers, hinterest, heq]

/-- `epoll_wait` hands over the reports after at most two interrupts. -/
def Delivers (waits : Nat → WaitOutcome) (reports : List EpollInstance.Report) : Prop :=
  ∃ i < 3, waits i = .ready reports ∧ ∀ j < i, waits j = .failed EINTR

theorem pollLoop_of_ready {waits : Nat → WaitOutcome} {reports : List EpollInstance.Report}
    {attempts first k : Nat} (hk : k < attempts) (hready : waits (first + k) = .ready reports)
    (hinterrupted : ∀ j < k, waits (first + j) = .failed EINTR) :
    impl.pollLoop waits first attempts = (.ok ⟨0, reports.length⟩, impl.receive reports) := by
  induction attempts generalizing first k with
  | zero => omega
  | succ attempts ih =>
      cases k with
      | zero =>
          rw [pollLoop, show waits first = .ready reports from hready]
      | succ k =>
          rw [pollLoop, show waits first = .failed EINTR from hinterrupted 0 (by omega)]
          simp only [ne_eq, not_true_eq_false, if_false]
          refine ih (k := k) (by omega) ?_ fun j hj => ?_
          · rw [← hready]
            congr 1
            omega
          · rw [← hinterrupted (j + 1) (by omega)]
            congr 1
            omega

theorem poll_of_delivers {waits : Nat → WaitOutcome} {reports : List EpollInstance.Report}
    (hdelivers : Delivers waits reports) :
    impl.poll waits = (.ok ⟨0, reports.length⟩, impl.receive reports) := by
  obtain ⟨i, hi, hready, hinterrupted⟩ := hdelivers
  exact pollLoop_of_ready hi (by simpa using hready) (by simpa using hinterrupted)

/-- Every attempt is interrupted. -/
def Interrupted (waits : Nat → WaitOutcome) : Prop := ∀ i < 3, waits i = .failed EINTR

theorem pollLoop_of_interrupted {waits : Nat → WaitOutcome} {attempts first : Nat}
    (hinterrupted : ∀ j < attempts, waits (first + j) = .failed EINTR) :
    impl.pollLoop waits first attempts = (.ok ⟨0, 0⟩, impl) := by
  induction attempts generalizing first with
  | zero => rfl
  | succ attempts ih =>
      rw [pollLoop, show waits first = .failed EINTR from hinterrupted 0 (Nat.succ_pos _)]
      simp only [ne_eq, not_true_eq_false, if_false]
      refine ih fun j hj => ?_
      rw [Nat.add_right_comm]
      exact hinterrupted (j + 1) (by omega)

theorem poll_of_interrupted {waits : Nat → WaitOutcome} (hinterrupted : Interrupted waits) :
    impl.poll waits = (.ok ⟨0, 0⟩, impl) :=
  pollLoop_of_interrupted fun j hj => by
    rw [Nat.zero_add]
    exact hinterrupted j hj

def reached (impl : EPollSelectorImpl Data) (fd : PollId) : Option (Selectable Data) := do
  let event ← impl.epoll.interest fd
  let ptr ← event.ptr
  impl.selectables.deref ptr

theorem getEvent_receive {reports : List EpollInstance.Report} {i : Nat}
    {report : EpollInstance.Report} (hreport : reports[i]? = some report) :
    (impl.receive reports).getEvent i =
      (impl.reached report.fd).map fun x => ⟨x.fd, eventFlags report.events, x.data⟩ := by
  have hi : i < reports.length := (List.getElem?_eq_some_iff.mp hreport).1
  have hev : (impl.receive reports).evlist[i]? = some (impl.epoll.eventOf report) := by
    simp only [receive]
    rw [List.getElem?_append_left (by simpa using hi), List.getElem?_map, hreport]
    rfl
  unfold getEvent reached
  rw [hev]
  cases hinterest : impl.epoll.interest report.fd with
  | none => simp [EpollInstance.eventOf, hinterest]
  | some event =>
      cases hptr : event.ptr with
      | none => simp [EpollInstance.eventOf, hinterest, hptr]
      | some ptr =>
          cases hderef : impl.selectables.deref ptr <;>
            simp [EpollInstance.eventOf, hinterest, hptr, receive, hderef]

end Calls

end EPollSelectorImpl

end Cadence
