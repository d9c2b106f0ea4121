import Cadence.Io.SelectorEpoll
import Cadence.Io.SelectorPoll

/-!
# What the kernel reports

A descriptor has the same condition whichever system call asks for it. Both calls answer with the
conditions asked for and, unasked, with errors and hang-ups, and they number the conditions alike.
-/

namespace Cadence

open Selector

def POLLHUP {width : Nat} : BitVec width := BitVec.ofNat width 0x0010
def POLLNVAL {width : Nat} : BitVec width := BitVec.ofNat width 0x0020

structure Condition where
  readable : Bool
  urgent : Bool
  writable : Bool
  error : Bool
  hangUp : Bool
  peerClosed : Bool

namespace Condition

def bits {width : Nat} (condition : Condition) : BitVec width :=
  let bits : BitVec width := 0
  let bits := orIf condition.readable bits POLLIN
  let bits := orIf condition.urgent bits POLLPRI
  let bits := orIf condition.writable bits POLLOUT
  let bits := orIf condition.error bits POLLERR
  let bits := orIf condition.hangUp bits POLLHUP
  orIf condition.peerClosed bits POLLRDHUP

def answer {width : Nat} (condition : Condition) (requested : BitVec width) : BitVec width :=
  (requested ||| POLLERR ||| POLLHUP) &&& condition.bits

end Condition

/-- The `revents` of `poll(2)`. -/
def PollSelectorImpl.answers {Data : Type} (impl : PollSelectorImpl Data)
    (conditions : PollId → Condition) (i : Nat) : BitVec 16 :=
  match impl.pollfds[i]? with
  | some p => (conditions p.fd).answer p.events
  | none => 0

/-- `epoll_wait` hands over every registered descriptor that has something to report. -/
structure EpollInstance.Answers (epoll : EpollInstance) (conditions : PollId → Condition)
    (maxEvents : Nat) (reports : List EpollInstance.Report) : Prop where
  mayReport : epoll.MayReport maxEvents reports
  events : ∀ report ∈ reports, ∃ event, epoll.interest report.fd = some event ∧
    report.events = (conditions report.fd).answer event.events ∧ report.events ≠ 0
  complete : ∀ fd event, epoll.interest fd = some event →
    (conditions fd).answer event.events ≠ 0 → fd ∈ reports.map EpollInstance.Report.fd

end Cadence
