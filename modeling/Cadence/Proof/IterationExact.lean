import Cadence.Proof.EpollAttribution
import Cadence.Proof.SelectorWalk

/-!
# Iterating over the result of a poll

The indices of the `poll(2)` back-end are those of all registrations, with gaps where nothing is ready;
those of the epoll back-end are those of the reports. An iterator over either stands at the ready ones
and at no others. What it gives there is the event of the registration that is ready, but for the
registrations that the pointers of the epoll back-end have lost.
-/

namespace Cadence.IterationExact

open Selector StepSystem PollRegistrations SelectorWalk

variable {Data : Type}

/-- Incrementing the iterator until it equals the end raises nothing, and it stands at the ready
indices in increasing order. Where there are none it equals the end at once and cannot be
incremented. -/
structure Exact (advance : Nat → Nat) (it : Iterator) (ready : Nat → Prop) : Prop where
  visits : ∃ steps indices, it.traverse advance it.end' steps = some indices ∧
    indices.Pairwise (· < ·) ∧ ∀ i, i ∈ indices ↔ ready i
  idle : (∀ i, ¬ ready i) → it.eq it.end' = true ∧
    it.increment advance = .error (.indexOutOfRange it.index 0 it.size)

/-- Each index at which the iterator stands is that of a registration, whose event it gives. -/
structure PollExact (calls : List (PollRegistrations.Call Data)) (revents : Nat → BitVec 16)
    (pimpl : Nat) (range : ReadyIdRange) (answered : PollSelectorImpl Data) : Prop where
  exact : Exact answered.advance (Selector.poll pimpl range)
    fun i => i < (registrations calls).length ∧ revents i ≠ 0
  event : ∀ i registration, (registrations calls)[i]? = some registration →
    answered.getEvent i = some ⟨registration.fd, PollSelectorImpl.eventFlags (revents i),
      registration.data⟩

/-- Each index at which the iterator stands is that of a report, and gives the event of the
registration that was reported. -/
structure EpollExact (client : EpollAttribution.Client Data) (reports : List EpollInstance.Report)
    (pimpl : Nat) (range : ReadyIdRange) (received : EPollSelectorImpl Data) : Prop where
  exact : Exact EPollSelectorImpl.advance (Selector.poll pimpl range) fun i => i < reports.length
  event : ∀ i report, reports[i]? = some report →
    ∃ registration ∈ client.registered, registration.fd = report.fd ∧
      received.getEvent i = some ⟨registration.fd, EPollSelectorImpl.eventFlags report.events,
        registration.data⟩

/-- The client iterates over whatever the kernel may report, or over nothing when every wait has been
interrupted. -/
def EpollIterates (client : EpollAttribution.Client Data) : Prop :=
  ∀ reports waits pimpl, client.impl.epoll.MayReport client.impl.evlist.length reports →
    (EPollSelectorImpl.Delivers waits reports ∨
      EPollSelectorImpl.Interrupted waits ∧ reports = []) →
    ∃ range received, client.impl.poll waits = (.ok range, received) ∧
      EpollExact client reports pimpl range received

/-- A selector that has been created, and what its client has done with it since. -/
inductive Usage (Data : Type) where
  | poll (calls : List (PollRegistrations.Call Data))
  | epoll (growth : GrowthPolicy) (maxEvents : BitVec 32)
      (actions : List (EpollAttribution.Action Data))

/-- Whatever the native wait returns, now or at any time before. -/
def IteratesExactly : Usage Data → Prop
  | .poll calls => ∀ revents pimpl, ∃ range answered,
      (applyAll calls).poll (.ready revents) = (.ok range, answered) ∧
        PollExact calls revents pimpl range answered
  | .epoll growth maxEvents actions => ∀ impl, EPollSelectorImpl.create maxEvents none = .ok impl →
      Always (EpollAttribution.step growth) EpollIterates ⟨impl, []⟩ actions

/-- The kernel has no pointer to an element that has moved: there are at most `maxEvents`
registrations at a time, and only the latest of them is ever removed. -/
def KeepsPointers : Usage Data → Prop
  | .poll _ => True
  | .epoll growth maxEvents actions => ∀ impl, EPollSelectorImpl.create maxEvents none = .ok impl →
      Guarded (EpollAttribution.step growth) (EpollAttribution.LastInFirstOut maxEvents.toNat)
        ⟨impl, []⟩ actions

theorem exact_idle {advance : Nat → Nat} {ready : Nat → Prop} {pimpl : Nat}
    (hnone : ∀ i, ¬ ready i) : Exact advance (Selector.poll pimpl ⟨0, 0⟩) ready where
  visits := ⟨0, [], by simp [Iterator.traverse, Iterator.eq, Iterator.end', Selector.poll],
    List.Pairwise.nil, fun i => iff_of_false List.not_mem_nil (hnone i)⟩
  idle _ := ⟨Iterator.eq_end'_iff.mpr rfl, Iterator.increment_of_not_lt (Nat.lt_irrefl 0)⟩

theorem exact_table {α : Type} {table : List α} {isReady : α → Bool} {advance : Nat → Nat}
    {ready : Nat → Prop} {pimpl first : Nat}
    (hadvance : ∀ i < table.length, NextReady table isReady i (advance i))
    (hready : ∀ i, ready i ↔ ∃ x, table[i]? = some x ∧ isReady x = true)
    (hfirst : ready first) (hbefore : ∀ i < first, ¬ ready i) :
    Exact advance (Selector.poll pimpl ⟨first, table.length⟩) ready := by
  obtain ⟨x, hx, hxready⟩ := (hready first).mp hfirst
  have hlt := (List.getElem?_eq_some_iff.mp hx).1
  have hstart (y : α) (hy : table[first]? = some y) : isReady y = true := by
    obtain rfl : x = y := Option.some.inj (hx.symm.trans hy)
    exact hxready
  obtain ⟨indices, htraverse, hordered, hmem⟩ :=
    traverse_eq_some hadvance pimpl hlt.le hstart le_rfl
  refine ⟨⟨_, indices, htraverse, hordered, fun i => ?_⟩, fun hnone => absurd hfirst (hnone first)⟩
  rw [hmem, ← hready]
  constructor
  · exact fun h => h.2
  · exact fun h => ⟨not_lt.mp fun hi => hbefore i hi h, h⟩

theorem poll_exact (calls : List (PollRegistrations.Call Data)) (revents : Nat → BitVec 16)
    (pimpl : Nat) :
    PollExact calls revents pimpl ((applyAll calls).writeRevents revents).rangeOf
      ((applyAll calls).writeRevents revents) := by
  have hprojects : Projects ((applyAll calls).writeRevents revents) (registrations calls) :=
    (projects_applyAll calls).poll (.ready revents)
  have hrevents (i : Nat) (p : PollFd)
      (hp : ((applyAll calls).writeRevents revents).pollfds[i]? = some p) :
      p.revents = revents i := PollSelectorImpl.revents_writeRevents hp
  have hlength : ((applyAll calls).writeRevents revents).pollfds.length =
      (registrations calls).length := by
    rw [← hprojects.length_eq, hprojects.selectables, List.length_map]
  generalize (applyAll calls).writeRevents revents = answered at hprojects hrevents hlength
  have hready (i : Nat) : (i < (registrations calls).length ∧ revents i ≠ 0) ↔
      ∃ p, answered.pollfds[i]? = some p ∧ (p.revents != 0) = true := by
    constructor
    · rintro ⟨hi, hne⟩
      have hp := List.getElem?_eq_getElem (hlength ▸ hi)
      exact ⟨_, hp, by simpa [hrevents i _ hp] using hne⟩
    · rintro ⟨p, hp, hne⟩
      have hi := (List.getElem?_eq_some_iff.mp hp).1
      exact ⟨hlength ▸ hi, by simpa [hrevents i p hp] using hne⟩
  have hisReady (i : Nat) : answered.isReady i = true ↔
      (i < (registrations calls).length ∧ revents i ≠ 0) := by
    rw [hready, PollSelectorImpl.isReady_iff]
    simp
  constructor
  · rcases answered.rangeOf_spec with ⟨hrange, hnone⟩ | ⟨hcount, hfound⟩
    · rw [hrange]
      refine exact_idle fun i hi => ?_
      have hidle := hnone i
      rw [(hisReady i).mpr hi] at hidle
      cases hidle
    · have hrange : answered.rangeOf =
          ⟨answered.rangeOf.firstReady, answered.pollfds.length⟩ := by rw [← hcount]
      rw [hrange]
      refine exact_table (fun i hi => nextReady_advance answered hi) hready
        ((hisReady _).mp hfound) fun i hi hi' => ?_
      have hidle := PollSelectorImpl.not_isReady_of_lt_firstReady hi
      rw [(hisReady i).mpr hi'] at hidle
      cases hidle
  · intro i registration hregistration
    have hi := (List.getElem?_eq_some_iff.mp hregistration).1
    have hp := List.getElem?_eq_getElem (hlength ▸ hi)
    rw [hprojects.event, hp, hregistration, Option.bind_some, Option.map_some, hrevents i _ hp]

theorem exact_reports {reports : List EpollInstance.Report} (pimpl : Nat) :
    Exact EPollSelectorImpl.advance (Selector.poll pimpl ⟨0, reports.length⟩)
      fun i => i < reports.length := by
  cases hempty : reports.length with
  | zero => exact exact_idle fun i => Nat.not_lt_zero i
  | succ count =>
      have hadvance (i : Nat) (hi : i < reports.length) :
          NextReady reports (fun _ => true) i (EPollSelectorImpl.advance i) :=
        nextReady_report hi
      rw [← hempty]
      refine exact_table hadvance (fun i => ?_) (by omega) fun i hi => by omega
      simp [List.getElem?_eq_some_iff]

section Epoll

variable {client : EpollAttribution.Client Data} {maxEvents : Nat}

theorem epollIterates_of_invariant (hinv : EpollAttribution.Invariant maxEvents client) :
    EpollIterates client := by
  intro reports waits pimpl hreports hwaits
  rcases hwaits with hdelivers | ⟨hinterrupted, rfl⟩
  · refine ⟨_, _, EPollSelectorImpl.poll_of_delivers hdelivers, exact_reports pimpl, ?_⟩
    intro i report hreport
    have hregisters := hreports.2.2 report (List.mem_of_getElem? hreport)
    obtain ⟨registration, hregistered, hfd⟩ := List.mem_map.mp ((hinv.registers _).mp hregisters)
    refine ⟨registration, hregistered, hfd, ?_⟩
    rw [EPollSelectorImpl.getEvent_receive hreport, ← hfd, hinv.reached registration hregistered]
    rfl
  · exact ⟨_, _, EPollSelectorImpl.poll_of_interrupted hinterrupted,
      exact_idle fun i => Nat.not_lt_zero i, fun i report hreport => (nomatch hreport)⟩

/-- An iteration that gives the events of the ready registrations attributes them. -/
theorem EpollIterates.attributed (hiterates : EpollIterates client) :
    EpollAttribution.Attributed client := by
  intro reports waits pimpl hreports hdelivers
  obtain ⟨range, received, hpoll, hexact⟩ := hiterates reports waits pimpl hreports (.inl hdelivers)
  refine ⟨range, received, hpoll, fun i _ hi => ?_⟩
  rw [EPollSelectorImpl.poll_of_delivers hdelivers] at hpoll
  obtain ⟨hrange, rfl⟩ := Prod.mk.inj hpoll
  obtain rfl := Except.ok.inj hrange
  have hreport : reports[i]? = some reports[i] := List.getElem?_eq_getElem hi
  obtain ⟨registration, hregistered, hfd, hevent⟩ := hexact.event i _ hreport
  exact ⟨_, registration, _, hreport, hregistered, hfd, hevent, rfl, rfl⟩

end Epoll

/-- **Exact iteration.** Whatever the native wait returns, the iterator gives the event of each ready
registration once and in increasing order before it equals the end: always over `poll(2)`, and over
epoll exactly when no pointer of the kernel has lost its registration. -/
theorem iteratesExactly_iff_keepsPointers (usage : Usage Data) :
    (IteratesExactly usage ↔ KeepsPointers usage) ∧
      ∀ index lower upper, assertIndexInRange index lower upper = .ok () ↔
        lower ≤ index ∧ index < upper := by
  constructor
  · cases usage with
    | poll calls =>
        refine iff_of_true (fun revents pimpl => ?_) trivial
        exact ⟨_, _, rfl, poll_exact calls revents pimpl⟩
    | epoll growth maxEvents actions =>
        refine forall₂_congr fun impl hcreate => ?_
        exact EpollAttribution.always_iff_lastInFirstOut epollIterates_of_invariant
          EpollIterates.attributed hcreate actions
  · intro index lower upper
    rw [assertIndexInRange]
    split
    next hin => exact iff_of_true rfl hin
    next hout => exact iff_of_false (fun hok => by cases hok) hout

/-- One event is asked for, and the second registration moves the first. -/
theorem not_iteratesExactly_of_growth :
    ¬ IteratesExactly (.epoll .doubling 1 [.addRaw 3 EPOLLIN 30, .addRaw 4 EPOLLIN 40] :
      Usage Nat) := by
  intro hexact
  have hlast := (hexact _ rfl).of_run rfl
  obtain ⟨range, received, hpoll, hiterates⟩ :=
    hlast [⟨3, EPOLLIN⟩] (fun _ => .ready [⟨3, EPOLLIN⟩]) 0
      ⟨by decide, by decide, by decide⟩ (.inl ⟨0, by decide, rfl, fun j hj => by omega⟩)
  cases hpoll
  obtain ⟨registration, _, _, hevent⟩ := hiterates.event 0 ⟨3, EPOLLIN⟩ rfl
  cases hevent

end Cadence.IterationExact
