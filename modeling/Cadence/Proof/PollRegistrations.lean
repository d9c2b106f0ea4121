import Cadence.Foundation.Journal
import Cadence.Io.SelectorPoll
import Mathlib.Data.List.Induction

/-!
# The two tables of the poll back-end

A call appends one entry to both tables, or drops the entries of a descriptor from both. So each is a
projection of the same list of registrations, whatever descriptors the calls repeat or invent.
-/

namespace Cadence.PollRegistrations

open Selector

variable {Data : Type}

inductive Call (Data : Type) where
  | add (fd : PollId) (events : BitVec 32) (data : Data)
  | addSelectable (selectable : ISelectable Data) (events : BitVec 32)
  | addRaw (fd : PollId) (nativeEvents : BitVec 32) (data : Data)
  | remove (fd : PollId)
  | removeSelectable (selectable : ISelectable Data)
  | poll (outcome : PollOutcome)

def apply (impl : PollSelectorImpl Data) : Call Data → PollSelectorImpl Data
  | .add fd events data => impl.add fd events data
  | .addSelectable selectable events => impl.addSelectable selectable events
  | .addRaw fd nativeEvents data => impl.addRaw fd nativeEvents data
  | .remove fd => impl.remove fd
  | .removeSelectable selectable => impl.removeSelectable selectable
  | .poll outcome => (impl.poll outcome).2

def applyAll (calls : List (Call Data)) : PollSelectorImpl Data :=
  calls.foldl apply PollSelectorImpl.create

structure Registration (Data : Type) where
  fd : PollId
  interest : BitVec 16
  data : Data

def registrationsOf (fd : PollId) : Journal.Entry (Registration Data) :=
  .drop fun registration => registration.fd == fd

def interestOf (events : BitVec 32) : BitVec 16 :=
  (PollSelectorImpl.nativeEvents events).setWidth 16

def Call.entry : Call Data → Option (Journal.Entry (Registration Data))
  | .add fd events data => some (.append ⟨fd, interestOf events, data⟩)
  | .addSelectable selectable events =>
      some (.append ⟨selectable.getSelectId, interestOf events, selectable.address⟩)
  | .addRaw fd nativeEvents data => some (.append ⟨fd, nativeEvents.setWidth 16, data⟩)
  | .remove fd => some (registrationsOf fd)
  | .removeSelectable selectable => some (registrationsOf selectable.getSelectId)
  | .poll _ => none

/-- All registrations made, in order, without those whose descriptor was removed after them. -/
def registrations (calls : List (Call Data)) : List (Registration Data) :=
  Journal.surviving (calls.filterMap Call.entry)

structure Projects (impl : PollSelectorImpl Data) (registrations : List (Registration Data)) :
    Prop where
  selectables : impl.selectables =
    registrations.map fun registration => ⟨registration.fd, registration.data⟩
  pollfds : (impl.pollfds.map fun pollfd => (pollfd.fd, pollfd.events)) =
    registrations.map fun registration => (registration.fd, registration.interest)
  event : ∀ i, impl.getEvent i =
    impl.pollfds[i]?.bind fun pollfd => registrations[i]?.map fun registration =>
      ⟨registration.fd, PollSelectorImpl.eventFlags pollfd.revents, registration.data⟩
  length_eq : impl.selectables.length = impl.pollfds.length

/-! ### One call -/

section Step

variable {impl : PollSelectorImpl Data} {list : List (Registration Data)}

theorem Projects.of_tables
    (hselectables : impl.selectables =
      list.map fun registration => ⟨registration.fd, registration.data⟩)
    (hpollfds : (impl.pollfds.map fun pollfd => (pollfd.fd, pollfd.events)) =
      list.map fun registration => (registration.fd, registration.interest)) :
    Projects impl list where
  selectables := hselectables
  pollfds := hpollfds
  event i := by
    unfold PollSelectorImpl.getEvent
    rw [hselectables, List.getElem?_map]
    cases impl.pollfds[i]? <;> cases list[i]? <;> rfl
  length_eq := by
    have hlength := congrArg List.length hpollfds
    rw [List.length_map, List.length_map] at hlength
    rw [hselectables, List.length_map, hlength]

theorem Projects.addRaw (fd : PollId) (nativeEvents : BitVec 32) (data : Data)
    (hprojects : Projects impl list) :
    Projects (impl.addRaw fd nativeEvents data)
      (list ++ [⟨fd, nativeEvents.setWidth 16, data⟩]) := by
  apply Projects.of_tables
  · simp [PollSelectorImpl.addRaw, hprojects.selectables]
  · simp [PollSelectorImpl.addRaw, hprojects.pollfds]

theorem Projects.remove (fd : PollId) (hprojects : Projects impl list) :
    Projects (impl.remove fd) (list.filter fun registration => !(registration.fd == fd)) := by
  apply Projects.of_tables
  · simp only [PollSelectorImpl.remove, hprojects.selectables, List.filter_map]
    rfl
  · have hfilter : (impl.pollfds.filter fun pollfd => pollfd.fd != fd).map
          (fun pollfd => (pollfd.fd, pollfd.events)) =
        (impl.pollfds.map fun pollfd => (pollfd.fd, pollfd.events)).filter
          fun entry => entry.1 != fd := by
      rw [List.filter_map]
      rfl
    simp only [PollSelectorImpl.remove]
    rw [hfilter, hprojects.pollfds, List.filter_map]
    rfl

theorem Projects.poll (outcome : PollOutcome) (hprojects : Projects impl list) :
    Projects (impl.poll outcome).2 list := by
  cases outcome with
  | failed errno => exact hprojects
  | ready revents =>
      apply Projects.of_tables
      · exact hprojects.selectables
      · rw [← hprojects.pollfds]
        apply List.ext_getElem?
        intro i
        simp [PollSelectorImpl.poll, PollSelectorImpl.writeRevents, Function.comp_def]

end Step

/-! ### A sequence of calls -/

theorem registrations_concat (calls : List (Call Data)) (call : Call Data) :
    registrations (calls ++ [call]) =
      call.entry.elim (registrations calls) fun entry => entry.apply (registrations calls) := by
  unfold registrations
  rw [List.filterMap_append]
  cases hentry : call.entry with
  | none => simp [hentry]
  | some entry => simp [hentry, Journal.surviving_concat]

theorem Projects.apply {impl : PollSelectorImpl Data} {list : List (Registration Data)}
    (call : Call Data) (hprojects : Projects impl list) :
    Projects (apply impl call) (call.entry.elim list fun entry => entry.apply list) := by
  cases call with
  | add fd events data => exact hprojects.addRaw fd (PollSelectorImpl.nativeEvents events) data
  | addSelectable selectable events =>
      exact hprojects.addRaw selectable.getSelectId (PollSelectorImpl.nativeEvents events)
        selectable.address
  | addRaw fd nativeEvents data => exact hprojects.addRaw fd nativeEvents data
  | remove fd => exact hprojects.remove fd
  | removeSelectable selectable => exact hprojects.remove selectable.getSelectId
  | poll outcome => exact hprojects.poll outcome

/-- **Coupled tables.** After any calls both tables are projections of the registrations that are
left, and an event pairs the answer for one of them with its own descriptor and data. -/
theorem projects_applyAll (calls : List (Call Data)) :
    Projects (applyAll calls) (registrations calls) := by
  induction calls using List.reverseRecOn with
  | nil => exact Projects.of_tables rfl rfl
  | append_singleton calls call ih =>
      rw [applyAll, List.foldl_append, registrations_concat]
      exact ih.apply call

end Cadence.PollRegistrations
