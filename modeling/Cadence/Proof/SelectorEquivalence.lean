import Cadence.Foundation.StepSystem
import Cadence.Proof.SelectorWalk
import Mathlib.Data.List.NodupEquivFin
import Mathlib.Order.WellFounded

/-!
# Exchanging the back-ends

The same calls on a selector of either kind leave the same registrations in both. What a poll then
gives differs in four ways: the poll back-end ends at a signal, it counts the registrations and not
the ready ones, the two ask for and translate different conditions, and epoll finds the element of a
registration by an address that may be of another element by now.
-/

namespace Cadence.SelectorEquivalence

open Selector StepSystem PollRegistrations

/-! ### Flags -/

/-- The flags of an event, one after the other. -/
def flags (read write error hup : Bool) : BitVec 32 :=
  orIf hup (orIf error (orIf write (orIf read 0 Selector.Read) Selector.Write) Selector.Error)
    Selector.Hup

theorem flags_inj {read write error hup read' write' error' hup' : Bool} :
    flags read write error hup = flags read' write' error' hup' ↔
      read = read' ∧ write = write' ∧ error = error' ∧ hup = hup' := by
  revert read write error hup read' write' error' hup'
  decide +kernel

/-- What `add` of the poll back-end asks for. -/
def pollMask (read write hup : Bool) : BitVec 16 :=
  (orIf hup (orIf write (orIf read 0 (POLLIN ||| POLLPRI)) POLLOUT) POLLRDHUP : BitVec 32).setWidth 16

def epollMask (read write error hup : Bool) : BitVec 32 :=
  orIf hup (orIf error (orIf write (orIf read 0 EPOLLIN) EPOLLOUT) EPOLLERR) EPOLLHUP

theorem pollFlags_answer (condition : Condition) (read write hup : Bool) :
    PollSelectorImpl.eventFlags (condition.answer (pollMask read write hup)) =
      flags (read && (condition.readable || condition.urgent)) (write && condition.writable)
        condition.error (hup && condition.peerClosed) := by
  obtain ⟨readable, urgent, writable, error, hangUp, peerClosed⟩ := condition
  revert read write hup readable urgent writable error hangUp peerClosed
  decide +kernel

theorem epollFlags_answer (condition : Condition) (read write error hup : Bool) :
    EPollSelectorImpl.eventFlags (condition.answer (epollMask read write error hup)) =
      flags (read && condition.readable) (write && condition.writable) condition.error
        condition.hangUp := by
  obtain ⟨readable, urgent, writable, error', hangUp, peerClosed⟩ := condition
  revert read write error hup readable urgent writable error' hangUp peerClosed
  decide +kernel

theorem pollAnswer_ne_zero (condition : Condition) (read write hup : Bool) :
    (condition.answer (pollMask read write hup) != 0) =
      (read && (condition.readable || condition.urgent) || write && condition.writable ||
        condition.error || condition.hangUp || hup && condition.peerClosed) := by
  obtain ⟨readable, urgent, writable, error, hangUp, peerClosed⟩ := condition
  revert read write hup readable urgent writable error hangUp peerClosed
  decide +kernel

theorem epollAnswer_ne_zero (condition : Condition) (read write error hup : Bool) :
    (condition.answer (epollMask read write error hup) != 0) =
      (read && condition.readable || write && condition.writable || condition.error ||
        condition.hangUp) := by
  obtain ⟨readable, urgent, writable, error', hangUp, peerClosed⟩ := condition
  revert read write error hup readable urgent writable error' hangUp peerClosed
  decide +kernel

/-! ### The two selectors -/

variable {Data : Type}

/-- The arguments of an `add`. -/
structure Added (Data : Type) where
  fd : PollId
  events : BitVec 32
  data : Data

namespace Added

def registration (added : Added Data) : Registration Data :=
  ⟨added.fd, interestOf added.events, added.data⟩

def selectable (added : Added Data) : Selectable Data := ⟨added.fd, added.data⟩

/-- Epoll has something to report for it. -/
def ready (conditions : PollId → Condition) (added : Added Data) : Bool :=
  (conditions added.fd).answer (EPollSelectorImpl.nativeEvents added.events) != 0

/-- Urgent data comes with readable data if reading is asked for, and the peer's half-close is asked
for and there exactly when there is a hang-up. -/
def Translated (conditions : PollId → Condition) (added : Added Data) : Prop :=
  (hasFlag added.events Selector.Read = true → (conditions added.fd).urgent = true →
    (conditions added.fd).readable = true) ∧
  (hasFlag added.events Selector.Hup && (conditions added.fd).peerClosed) =
    (conditions added.fd).hangUp

instance (conditions : PollId → Condition) (added : Added Data) :
    Decidable (added.Translated conditions) :=
  inferInstanceAs (Decidable (_ ∧ _))

end Added

structure Selectors (Data : Type) where
  poll : PollSelectorImpl Data
  epoll : EPollSelectorImpl Data
  added : List (Added Data)

inductive Action (Data : Type) where
  | add (fd : PollId) (events : BitVec 32) (data : Data)
  | remove (fd : PollId)

/-- A call on both selectors. The descriptor given to `add` must be a new one. -/
def step (growth : GrowthPolicy) (selectors : Selectors Data) :
    Action Data → Option (Selectors Data)
  | .add fd events data =>
      match selectors.epoll.add growth fd events data none with
      | (.ok (), epoll) =>
          some ⟨selectors.poll.add fd events data, epoll, selectors.added ++ [⟨fd, events, data⟩]⟩
      | (.error _, _) => none
  | .remove fd =>
      match selectors.epoll.remove fd none with
      | (.ok (), epoll) =>
          some ⟨selectors.poll.remove fd, epoll, selectors.added.filter fun x => x.fd != fd⟩
      | (.error _, _) => none

/-- The size of the iterator and the events seen through it, or the exception. -/
abbrev Result (Data : Type) := Except Exception (Nat × Option (List (Event Data)))

/-- `poll` with a wait that is interrupted some times before the kernel answers. -/
def pollResult (selectors : Selectors Data) (conditions : PollId → Condition) (interrupts : Nat) :
    Result Data :=
  let outcome :=
    if interrupts = 0 then PollOutcome.ready (selectors.poll.answers conditions)
    else .failed EINTR
  match selectors.poll.poll outcome with
  | (.error raised, _) => .error raised
  | (.ok range, impl) =>
      let it := Selector.poll 0 range
      .ok (it.size, it.walk impl.getEvent impl.advance it.size)

def epollResult (selectors : Selectors Data) (reports : List EpollInstance.Report)
    (interrupts : Nat) : Result Data :=
  let waits := fun i => if i < interrupts then WaitOutcome.failed EINTR else .ready reports
  match selectors.epoll.poll waits with
  | (.error raised, _) => .error raised
  | (.ok range, impl) =>
      let it := Selector.poll 0 range
      .ok (it.size, it.walk impl.getEvent EPollSelectorImpl.advance it.size)

def SameResult : Result Data → Result Data → Prop
  | .ok (size, some events), .ok (size', some events') => size = size' ∧ events.Perm events'
  | .error raised, .error raised' => raised = raised'
  | _, _ => False

/-- The condition on the state before the call of `poll`, and on what the kernel finds. -/
structure Exchangeable (conditions : PollId → Condition) (interrupts : Nat)
    (selectors : Selectors Data) : Prop where
  uninterrupted : interrupts = 0
  translated : ∀ x ∈ selectors.added, x.Translated conditions
  allOrNone : (∀ x ∈ selectors.added, x.ready conditions = true) ∨
    ∀ x ∈ selectors.added, x.ready conditions = false
  reached : ∀ x ∈ selectors.added, x.ready conditions = true →
    selectors.epoll.reached x.fd = some x.selectable

/-- An address the kernel holds is of an earlier buffer, or of a slot the element was in first. -/
structure Invariant (selectors : Selectors Data) : Prop where
  projects : Projects selectors.poll (selectors.added.map Added.registration)
  elems : selectors.epoll.selectables.elems = selectors.added.map Added.selectable
  distinct : (selectors.added.map Added.fd).Nodup
  registers : ∀ fd, selectors.epoll.epoll.Registers fd ↔ fd ∈ selectors.added.map Added.fd
  interest : ∀ (i : Nat) x, selectors.added[i]? = some x → ∃ ptr,
    selectors.epoll.epoll.interest x.fd =
      some ⟨EPollSelectorImpl.nativeEvents x.events, some ptr⟩ ∧
    ptr.generation ≤ selectors.epoll.selectables.generation ∧
    (ptr.generation = selectors.epoll.selectables.generation → i ≤ ptr.slot)

section Readiness

variable {conditions : PollId → Condition} {x : Added Data}

theorem isReady_registration (conditions : PollId → Condition) (x : Added Data) :
    SelectorWalk.isReady conditions x.registration =
      (hasFlag x.events Selector.Read &&
          ((conditions x.fd).readable || (conditions x.fd).urgent) ||
        hasFlag x.events Selector.Write && (conditions x.fd).writable ||
        (conditions x.fd).error || (conditions x.fd).hangUp ||
        hasFlag x.events Selector.Hup && (conditions x.fd).peerClosed) :=
  pollAnswer_ne_zero _ _ _ _

theorem ready_eq (conditions : PollId → Condition) (x : Added Data) :
    x.ready conditions =
      (hasFlag x.events Selector.Read && (conditions x.fd).readable ||
        hasFlag x.events Selector.Write && (conditions x.fd).writable ||
        (conditions x.fd).error || (conditions x.fd).hangUp) :=
  epollAnswer_ne_zero _ _ _ (hasFlag x.events Selector.Error) (hasFlag x.events Selector.Hup)

theorem isReady_eq_ready (htranslated : x.Translated conditions) :
    SelectorWalk.isReady conditions x.registration = x.ready conditions := by
  rw [isReady_registration, ready_eq, htranslated.2]
  have hurgent := htranslated.1
  cases hread : hasFlag x.events Selector.Read <;>
    cases hready : (conditions x.fd).readable <;>
    cases hurg : (conditions x.fd).urgent <;> simp_all

theorem translated_of_idle (hpoll : SelectorWalk.isReady conditions x.registration = false) :
    x.Translated conditions := by
  rw [isReady_registration] at hpoll
  simp only [Bool.or_eq_false_iff] at hpoll
  obtain ⟨⟨⟨⟨hread, _⟩, _⟩, hhup⟩, hpeer⟩ := hpoll
  refine ⟨fun hflag hurgent => ?_, hpeer.trans hhup.symm⟩
  simp [hflag, hurgent] at hread

/-- The two events of a registration carry the same flags. -/
theorem eventFlags_eq_iff_translated (conditions : PollId → Condition) (x : Added Data) :
    PollSelectorImpl.eventFlags (SelectorWalk.revents conditions x.registration) =
        EPollSelectorImpl.eventFlags
          ((conditions x.fd).answer (EPollSelectorImpl.nativeEvents x.events)) ↔
      x.Translated conditions := by
  have hpoll := pollFlags_answer (conditions x.fd) (hasFlag x.events Selector.Read)
    (hasFlag x.events Selector.Write) (hasFlag x.events Selector.Hup)
  have hepoll := epollFlags_answer (conditions x.fd) (hasFlag x.events Selector.Read)
    (hasFlag x.events Selector.Write) (hasFlag x.events Selector.Error)
    (hasFlag x.events Selector.Hup)
  refine (Eq.congr hpoll hepoll).trans (flags_inj.trans ?_)
  unfold Added.Translated
  cases hasFlag x.events Selector.Read <;> cases (conditions x.fd).readable <;>
    cases (conditions x.fd).urgent <;> simp

end Readiness

/-! ### Runs -/

section Run

variable {growth : GrowthPolicy} {selectors next : Selectors Data}

theorem step_add {fd : PollId} {events : BitVec 32} {data : Data}
    (hstep : step growth selectors (.add fd events data) = some next) :
    ∃ epoll, selectors.epoll.add growth fd events data none = (.ok (), epoll) ∧
      next = ⟨selectors.poll.add fd events data, epoll,
        selectors.added ++ [⟨fd, events, data⟩]⟩ := by
  simp only [step] at hstep
  split at hstep
  next epoll hadd => exact ⟨epoll, hadd, (Option.some.inj hstep).symm⟩
  next => cases hstep

theorem step_remove {fd : PollId} (hstep : step growth selectors (.remove fd) = some next) :
    ∃ epoll, selectors.epoll.remove fd none = (.ok (), epoll) ∧
      next = ⟨selectors.poll.remove fd, epoll,
        selectors.added.filter fun x => x.fd != fd⟩ := by
  simp only [step] at hstep
  split at hstep
  next epoll hremove => exact ⟨epoll, hremove, (Option.some.inj hstep).symm⟩
  next => cases hstep

theorem generation_le_pushBack (growth : GrowthPolicy) (vector : StdVector (Selectable Data))
    (x : Selectable Data) : vector.generation ≤ (vector.pushBack growth x).generation := by
  by_cases hroom : vector.elems.length < vector.capacity
  · exact (StdVector.generation_pushBack_of_lt hroom).ge
  · rw [StdVector.generation_pushBack_of_not_lt hroom]
    exact Nat.le_succ _

theorem Invariant.add (hinv : Invariant selectors) {fd : PollId} {events : BitVec 32} {data : Data}
    (hstep : step growth selectors (.add fd events data) = some next) : Invariant next := by
  obtain ⟨epoll, hadd, rfl⟩ := step_add hstep
  obtain ⟨hnew, hselectables, _, hinterest⟩ := EPollSelectorImpl.addRaw_none_eq_ok hadd
  have hfresh : fd ∉ selectors.added.map Added.fd := fun hmem =>
    hnew ((hinv.registers fd).mpr hmem)
  constructor
  · have hprojects := hinv.projects.addRaw fd (PollSelectorImpl.nativeEvents events) data
    simpa [PollSelectorImpl.add, Added.registration, interestOf] using hprojects
  · simp [hselectables, hinv.elems, Added.selectable]
  · rw [List.map_append, List.map_singleton, ← List.concat_eq_append]
    exact List.Nodup.concat hfresh hinv.distinct
  · intro other
    rw [EPollSelectorImpl.registers_addRaw_iff hadd, hinv.registers, List.map_append, List.mem_append,
      or_comm]
    simp
  · intro i x hx
    have hgrow := generation_le_pushBack growth selectors.epoll.selectables ⟨fd, data⟩
    simp only [hselectables, hinterest]
    rcases Nat.lt_or_ge i selectors.added.length with hlt | hge
    · rw [List.getElem?_append_left hlt] at hx
      obtain ⟨ptr, hptr, hgeneration, hslot⟩ := hinv.interest i x hx
      have hne : x.fd ≠ fd := fun heq => hfresh (heq ▸ List.mem_map_of_mem (List.mem_of_getElem? hx))
      refine ⟨ptr, ?_, hgeneration.trans hgrow, fun hcurrent => hslot ?_⟩
      · rw [Function.update_of_ne hne, hptr]
      · omega
    · obtain ⟨rfl, rfl⟩ : i = selectors.added.length ∧ ⟨fd, events, data⟩ = x := by
        have hlt := (List.getElem?_eq_some_iff.mp hx).1
        simp only [List.length_append, List.length_singleton] at hlt
        obtain rfl : i = selectors.added.length := by omega
        simpa using hx
      refine ⟨(selectors.epoll.selectables.pushBack growth ⟨fd, data⟩).backAddress, ?_, le_rfl,
        fun _ => ?_⟩
      · rw [Function.update_self]
      · simp [StdVector.backAddress, hinv.elems]

/-- A filter moves no element up. -/
theorem exists_le_of_getElem?_filter {α : Type*} {l : List α} {p : α → Bool} {j : Nat} {x : α}
    (hx : (l.filter p)[j]? = some x) : ∃ i, j ≤ i ∧ l[i]? = some x := by
  obtain ⟨f, hf⟩ := List.sublist_iff_exists_orderEmbedding_getElem?_eq.mp
    (List.filter_sublist (p := p) (l := l))
  refine ⟨f j, StrictMono.le_apply f.strictMono, ?_⟩
  rw [← hf, hx]

theorem Invariant.remove (hinv : Invariant selectors) {fd : PollId}
    (hstep : step growth selectors (.remove fd) = some next) : Invariant next := by
  obtain ⟨epoll, hremove, rfl⟩ := step_remove hstep
  obtain ⟨hselectables, _, hinterest⟩ := EPollSelectorImpl.remove_none_eq_ok hremove
  constructor
  · have hprojects := hinv.projects.remove fd
    rw [List.filter_map] at hprojects
    exact hprojects
  · rw [hselectables, StdVector.elems_eraseIf, hinv.elems, List.filter_map]
    rfl
  · exact hinv.distinct.sublist (List.filter_sublist.map _)
  · intro other
    rw [EPollSelectorImpl.registers_remove_iff hremove, hinv.registers]
    calc
      _ ↔ other ∈ (selectors.added.map Added.fd).filter (· != fd) := by
        rw [List.mem_filter, bne_iff_ne, and_comm]
      _ ↔ _ := by rw [List.filter_map]; rfl
  · intro j x hx
    have hne : x.fd ≠ fd := by
      simpa using (List.mem_filter.mp (List.mem_of_getElem? hx)).2
    obtain ⟨i, hji, hi⟩ := exists_le_of_getElem?_filter hx
    obtain ⟨ptr, hptr, hgeneration, hslot⟩ := hinv.interest i x hi
    refine ⟨ptr, ?_, ?_, fun hcurrent => ?_⟩
    · rw [hinterest, Function.update_of_ne hne, hptr]
    · rw [hselectables]
      exact hgeneration
    · rw [hselectables] at hcurrent
      exact hji.trans (hslot hcurrent)

theorem Invariant.step {action : Action Data} (hinv : Invariant selectors)
    (hstep : step growth selectors action = some next) : Invariant next := by
  cases action with
  | add fd events data => exact hinv.add hstep
  | remove fd => exact hinv.remove hstep

theorem invariant_create {maxEvents : BitVec 32} {epoll : EPollSelectorImpl Data}
    (hcreate : EPollSelectorImpl.create maxEvents none = .ok epoll) :
    Invariant (⟨PollSelectorImpl.create, epoll, []⟩ : Selectors Data) := by
  obtain ⟨_, helems, _, _, hregisters⟩ := EPollSelectorImpl.create_eq_ok hcreate
  constructor
  · exact Projects.of_tables rfl rfl
  · exact helems
  · exact List.nodup_nil
  · intro fd
    simp [hregisters fd]
  · intro i x hx
    simp at hx

end Run

/-! ### One poll -/

theorem exists_map_some_of_perm {α : Type*} {l : List α} {l' : List (Option α)}
    (hperm : (l.map some).Perm l') : ∃ l'', l''.map some = l' ∧ l.Perm l'' := by
  refine ⟨l'.filterMap id, ?_, ?_⟩
  · have hsome : ∀ x ∈ l', x.isSome = true := by
      intro x hx
      obtain ⟨y, _, rfl⟩ := List.mem_map.mp (hperm.mem_iff.mpr hx)
      rfl
    clear hperm
    induction l' with
    | nil => rfl
    | cons x l' ih =>
        obtain ⟨hx, hrest⟩ := List.forall_mem_cons.mp hsome
        obtain ⟨y, rfl⟩ := Option.isSome_iff_exists.mp hx
        exact congrArg (List.cons (some y)) (ih hrest)
  · have hfilter := hperm.filterMap id
    rwa [List.filterMap_map, Function.id_comp, List.filterMap_some] at hfilter

section Poll

variable {selectors : Selectors Data} {conditions : PollId → Condition}
  {reports : List EpollInstance.Report}

def Added.report (conditions : PollId → Condition) (added : Added Data) : EpollInstance.Report :=
  ⟨added.fd, (conditions added.fd).answer (EPollSelectorImpl.nativeEvents added.events)⟩

def Added.pollEvent (conditions : PollId → Condition) (added : Added Data) : Event Data :=
  SelectorWalk.pollEvent conditions added.registration

def Added.pollReady (conditions : PollId → Condition) (added : Added Data) : Bool :=
  SelectorWalk.isReady conditions added.registration

theorem Invariant.interest_eq (hinv : Invariant selectors) {x : Added Data}
    (hx : x ∈ selectors.added) : ∃ ptr, selectors.epoll.epoll.interest x.fd =
      some ⟨EPollSelectorImpl.nativeEvents x.events, some ptr⟩ := by
  obtain ⟨i, hi⟩ := List.getElem?_of_mem hx
  obtain ⟨ptr, hptr, _⟩ := hinv.interest i x hi
  exact ⟨ptr, hptr⟩

/-- The reports are those of the registrations that are ready, in any order. -/
theorem Invariant.reports_perm (hinv : Invariant selectors) {maxEvents : Nat}
    (hanswers : selectors.epoll.epoll.Answers conditions maxEvents reports) :
    reports.Perm ((selectors.added.filter (Added.ready conditions)).map
      (Added.report conditions)) := by
  have hnodup : (((selectors.added.filter (Added.ready conditions)).map
      (Added.report conditions)).map EpollInstance.Report.fd).Nodup := by
    rw [List.map_map]
    exact hinv.distinct.sublist (List.filter_sublist.map _)
  rw [List.perm_ext_iff_of_nodup hanswers.mayReport.2.1.of_map hnodup.of_map]
  intro report
  constructor
  · intro hreport
    obtain ⟨event, hevent, hevents, hne⟩ := hanswers.events report hreport
    have hregisters : selectors.epoll.epoll.Registers report.fd := by
      rw [EpollInstance.Registers, hevent]
      rfl
    obtain ⟨x, hx, hfd⟩ := List.mem_map.mp ((hinv.registers _).mp hregisters)
    obtain ⟨ptr, hptr⟩ := hinv.interest_eq hx
    rw [hfd, hevent] at hptr
    obtain rfl := Option.some.inj hptr
    have hreportEq : x.report conditions = report := by
      simp only [Added.report, hfd, ← hevents]
    refine List.mem_map.mpr ⟨x, List.mem_filter.mpr ⟨hx, ?_⟩, hreportEq⟩
    rw [Added.ready, hfd, ← hevents]
    exact bne_iff_ne.mpr hne
  · intro hreport
    obtain ⟨x, hx, rfl⟩ := List.mem_map.mp hreport
    obtain ⟨hx, hready⟩ := List.mem_filter.mp hx
    obtain ⟨ptr, hptr⟩ := hinv.interest_eq hx
    obtain ⟨report, hreport, hfd⟩ := List.mem_map.mp
      (hanswers.complete x.fd _ hptr (bne_iff_ne.mp hready))
    obtain ⟨event, hevent, hevents, _⟩ := hanswers.events report hreport
    rw [hfd, hptr] at hevent
    obtain rfl := Option.some.inj hevent
    have hreportEq : report = x.report conditions := by
      obtain ⟨fd, events⟩ := report
      subst hfd
      exact congrArg (EpollInstance.Report.mk x.fd) hevents
    exact hreportEq ▸ hreport

theorem filter_registration (conditions : PollId → Condition) (added : List (Added Data)) :
    (added.map Added.registration).filter (SelectorWalk.isReady conditions) =
      (added.filter (Added.pollReady conditions)).map Added.registration := by
  rw [List.filter_map]
  rfl

theorem Invariant.pollResult_eq (hinv : Invariant selectors) (conditions : PollId → Condition) :
    pollResult selectors conditions 0 =
      .ok (if selectors.added.filter (Added.pollReady conditions) = [] then 0
          else selectors.added.length,
        some ((selectors.added.filter (Added.pollReady conditions)).map
          (Added.pollEvent conditions))) := by
  have hwalk := SelectorWalk.walk_answered conditions hinv.projects 0
  have hcount : (SelectorWalk.answered selectors.poll conditions).rangeOf.count =
      if selectors.added.filter (Added.pollReady conditions) = [] then 0
      else selectors.added.length := by
    rcases SelectorWalk.rangeOf_answered conditions hinv.projects with
      ⟨hnone, hrange⟩ | ⟨hsome, hcount, _⟩
    · rw [filter_registration, List.map_eq_nil_iff] at hnone
      rw [hrange, if_pos hnone]
    · rw [filter_registration, ne_eq, List.map_eq_nil_iff] at hsome
      rw [hcount, if_neg hsome, List.length_map]
  rw [filter_registration, List.map_map] at hwalk
  rw [← hcount]
  simp only [pollResult, if_true, PollSelectorImpl.poll]
  exact congrArg (fun events => Except.ok (_, events)) hwalk

theorem epollResult_eq (selectors : Selectors Data) (reports : List EpollInstance.Report)
    {interrupts : Nat} (hinterrupts : interrupts < 3) :
    epollResult selectors reports interrupts =
      .ok (reports.length, Iterator.walk (selectors.epoll.receive reports).getEvent
        EPollSelectorImpl.advance ⟨0, reports.length, 0⟩ reports.length) := by
  have hdelivers : EPollSelectorImpl.Delivers
      (fun i => if i < interrupts then WaitOutcome.failed EINTR else .ready reports) reports :=
    ⟨interrupts, hinterrupts, if_neg (Nat.lt_irrefl _), fun j hj => if_pos hj⟩
  simp only [epollResult, EPollSelectorImpl.poll_of_delivers hdelivers]
  rfl

theorem not_sameResult_of_interrupted {interrupts : Nat} (hinterrupts : interrupts < 3)
    (hne : interrupts ≠ 0) :
    ¬ SameResult (pollResult selectors conditions interrupts)
      (epollResult selectors reports interrupts) := by
  rw [epollResult_eq selectors reports hinterrupts]
  simp only [pollResult, if_neg hne, PollSelectorImpl.poll]
  exact id

theorem sameResult_ok_iff {size size' : Nat} {events : List (Event Data)}
    {walked : Option (List (Event Data))} :
    SameResult (.ok (size, some events)) (.ok (size', walked)) ↔
      size = size' ∧ ∃ events', walked = some events' ∧ events.Perm events' := by
  cases walked <;> simp [SameResult]

/-- The two back-ends give the same result when their sizes and events are the same. -/
theorem Invariant.sameResult_iff (hinv : Invariant selectors) {maxEvents : Nat}
    (hanswers : selectors.epoll.epoll.Answers conditions maxEvents reports) :
    SameResult (pollResult selectors conditions 0) (epollResult selectors reports 0) ↔
      (if selectors.added.filter (Added.pollReady conditions) = [] then 0
          else selectors.added.length) =
        (selectors.added.filter (Added.ready conditions)).length ∧
      ((selectors.added.filter (Added.pollReady conditions)).map
          fun x => some (x.pollEvent conditions)).Perm
        ((selectors.added.filter (Added.ready conditions)).map
          fun x => SelectorWalk.epollEvent selectors.epoll (x.report conditions)) := by
  have hreports := hinv.reports_perm hanswers
  have hlength : reports.length = (selectors.added.filter (Added.ready conditions)).length := by
    rw [hreports.length_eq, List.length_map]
  have hmapped := hreports.map (SelectorWalk.epollEvent selectors.epoll)
  rw [List.map_map] at hmapped
  rw [hinv.pollResult_eq, epollResult_eq selectors reports (by omega), sameResult_ok_iff,
    ← hlength]
  refine and_congr_right fun _ => ?_
  constructor
  · rintro ⟨events, hevents, hperm⟩
    rw [SelectorWalk.walk_receive_eq_some_iff] at hevents
    have hsome := hperm.map some
    rw [hevents, List.map_map] at hsome
    exact hsome.trans hmapped
  · intro hperm
    have hpolled : (((selectors.added.filter (Added.pollReady conditions)).map
        (Added.pollEvent conditions)).map some).Perm
          (reports.map (SelectorWalk.epollEvent selectors.epoll)) := by
      rw [List.map_map]
      exact hperm.trans hmapped.symm
    obtain ⟨events, hevents, hpermEvents⟩ := exists_map_some_of_perm hpolled
    refine ⟨events, ?_, hpermEvents⟩
    rw [SelectorWalk.walk_receive_eq_some_iff]
    exact hevents

theorem Invariant.eq_of_fd_eq (hinv : Invariant selectors) {x y : Added Data}
    (hx : x ∈ selectors.added) (hy : y ∈ selectors.added) (hfd : x.fd = y.fd) : x = y :=
  List.inj_on_of_nodup_map hinv.distinct hx hy hfd

/-- Elements only move to the front, so an address reaches the element of its registration or of a
later one. -/
theorem Invariant.reached_later (hinv : Invariant selectors) {i : Nat} {x : Added Data}
    {reached : Selectable Data} (hx : selectors.added[i]? = some x)
    (hreached : selectors.epoll.reached x.fd = some reached) :
    ∃ (j : Nat) (y : Added Data), i ≤ j ∧ selectors.added[j]? = some y ∧ reached = y.selectable := by
  obtain ⟨ptr, hptr, _, hslot⟩ := hinv.interest i x hx
  rw [EPollSelectorImpl.reached, hptr] at hreached
  obtain ⟨hgeneration, helem⟩ := StdVector.deref_eq_some_iff.mp hreached
  rw [hinv.elems, List.getElem?_map, Option.map_eq_some_iff] at helem
  obtain ⟨y, hy, rfl⟩ := helem
  exact ⟨ptr.slot, y, hslot hgeneration, hy, rfl⟩

-- from the last registration to the first: a later element is taken already by its own registration
theorem Invariant.reached_of_perm (hinv : Invariant selectors)
    (hperm : (selectors.added.map fun x => some (x.pollEvent conditions)).Perm
      (selectors.added.map fun x =>
        SelectorWalk.epollEvent selectors.epoll (x.report conditions))) :
    ∀ (i : Nat) x, selectors.added[i]? = some x →
      selectors.epoll.reached x.fd = some x.selectable := by
  have hnodup : (selectors.added.map fun x =>
      (selectors.epoll.reached x.fd).map Selectable.fd).Nodup := by
    have hfds := hperm.map (Option.map Event.fd)
    rw [List.map_map, List.map_map] at hfds
    have hpolled : (selectors.added.map fun x => some x.fd).Nodup := by
      have hsome := hinv.distinct.map (Option.some_injective PollId)
      rwa [List.map_map] at hsome
    have hreached := hfds.nodup_iff.mp hpolled
    simpa only [SelectorWalk.epollEvent, Added.report, Function.comp_def, Option.map_map] using
      hreached
  intro i x hx
  obtain ⟨gap, hgap⟩ : ∃ gap, gap = selectors.added.length - i := ⟨_, rfl⟩
  induction gap using Nat.strong_induction_on generalizing i x with
  | _ gap ih =>
    have hi := (List.getElem?_eq_some_iff.mp hx).1
    obtain ⟨reached, hreached⟩ : ∃ reached, selectors.epoll.reached x.fd = some reached := by
      have hmem : SelectorWalk.epollEvent selectors.epoll (x.report conditions) ∈
          selectors.added.map fun x => some (x.pollEvent conditions) :=
        hperm.mem_iff.mpr (List.mem_map_of_mem (List.mem_of_getElem? hx))
      obtain ⟨y, _, hy⟩ := List.mem_map.mp hmem
      obtain ⟨reached, hreached, _⟩ := Option.map_eq_some_iff.mp hy.symm
      exact ⟨reached, hreached⟩
    obtain ⟨j, y, hij, hy, rfl⟩ := hinv.reached_later hx hreached
    rcases hij.eq_or_lt with rfl | hlt
    · obtain rfl : x = y := Option.some.inj (hx.symm.trans hy)
      exact hreached
    · have hj := (List.getElem?_eq_some_iff.mp hy).1
      have hown := ih (selectors.added.length - j) (by omega) j y hy rfl
      have hsame : (selectors.epoll.reached x.fd).map Selectable.fd =
          (selectors.epoll.reached y.fd).map Selectable.fd := by rw [hreached, hown]
      obtain rfl : x = y := List.inj_on_of_nodup_map hnodup (List.mem_of_getElem? hx)
        (List.mem_of_getElem? hy) hsame
      exact hreached

theorem epollEvent_of_reached {x : Added Data}
    (hreached : selectors.epoll.reached x.fd = some x.selectable) :
    SelectorWalk.epollEvent selectors.epoll (x.report conditions) =
      some ⟨x.fd, EPollSelectorImpl.eventFlags ((conditions x.fd).answer
        (EPollSelectorImpl.nativeEvents x.events)), x.data⟩ := by
  simp only [SelectorWalk.epollEvent, Added.report, hreached]
  rfl

theorem pollEvent_eq_iff_translated (conditions : PollId → Condition) (x : Added Data) :
    x.pollEvent conditions = ⟨x.fd, EPollSelectorImpl.eventFlags ((conditions x.fd).answer
        (EPollSelectorImpl.nativeEvents x.events)), x.data⟩ ↔ x.Translated conditions := by
  rw [← eventFlags_eq_iff_translated]
  simp [Added.pollEvent, SelectorWalk.pollEvent, Added.registration]

theorem Invariant.exchangeable_of_sameResult (hinv : Invariant selectors) {maxEvents : Nat}
    (hanswers : selectors.epoll.epoll.Answers conditions maxEvents reports)
    (hsame : SameResult (pollResult selectors conditions 0) (epollResult selectors reports 0)) :
    Exchangeable conditions 0 selectors := by
  obtain ⟨hsize, hperm⟩ := (hinv.sameResult_iff hanswers).mp hsame
  by_cases hidle : selectors.added.filter (Added.pollReady conditions) = []
  · rw [if_pos hidle] at hsize
    have hnone := List.filter_eq_nil_iff.mp (List.length_eq_zero_iff.mp hsize.symm)
    have hpoll := List.filter_eq_nil_iff.mp hidle
    refine ⟨rfl, fun x hx => translated_of_idle ?_, .inr fun x hx => ?_, fun x hx hready => ?_⟩
    · simpa [Added.pollReady] using hpoll x hx
    · simpa using hnone x hx
    · exact absurd hready (hnone x hx)
  · rw [if_neg hidle] at hsize
    have hready := List.length_filter_eq_length_iff.mp hsize.symm
    have hpollReady : ∀ x ∈ selectors.added, x.pollReady conditions = true := by
      apply List.length_filter_eq_length_iff.mp
      have hlength := hperm.length_eq
      rw [List.length_map, List.length_map] at hlength
      exact hlength.trans hsize.symm
    rw [List.filter_eq_self.mpr hready, List.filter_eq_self.mpr hpollReady] at hperm
    have hreached : ∀ x ∈ selectors.added,
        selectors.epoll.reached x.fd = some x.selectable := by
      intro x hx
      obtain ⟨i, hi⟩ := List.getElem?_of_mem hx
      exact hinv.reached_of_perm hperm i x hi
    refine ⟨rfl, fun x hx => ?_, .inl hready, fun x hx _ => hreached x hx⟩
    obtain ⟨y, hy, hevent⟩ := List.mem_map.mp (hperm.mem_iff.mp (List.mem_map_of_mem hx))
    rw [epollEvent_of_reached (hreached y hy), Option.some.injEq] at hevent
    obtain rfl := hinv.eq_of_fd_eq hy hx (congrArg Event.fd hevent)
    exact (pollEvent_eq_iff_translated conditions y).mp hevent.symm

theorem Invariant.sameResult_of_exchangeable (hinv : Invariant selectors) {maxEvents : Nat}
    (hanswers : selectors.epoll.epoll.Answers conditions maxEvents reports)
    (hexchangeable : Exchangeable conditions 0 selectors) :
    SameResult (pollResult selectors conditions 0) (epollResult selectors reports 0) := by
  rw [hinv.sameResult_iff hanswers]
  have hfilter : selectors.added.filter (Added.pollReady conditions) =
      selectors.added.filter (Added.ready conditions) :=
    List.filter_congr fun x hx => isReady_eq_ready (hexchangeable.translated x hx)
  rw [hfilter]
  rcases hexchangeable.allOrNone with hall | hnone
  · rw [List.filter_eq_self.mpr hall]
    constructor
    · split
      next hempty => rw [hempty, List.length_nil]
      next => rfl
    · have hevents : ∀ x ∈ selectors.added, some (x.pollEvent conditions) =
          SelectorWalk.epollEvent selectors.epoll (x.report conditions) := by
        intro x hx
        rw [epollEvent_of_reached (hexchangeable.reached x hx (hall x hx)), Option.some.injEq]
        exact (pollEvent_eq_iff_translated conditions x).mpr (hexchangeable.translated x hx)
      rw [List.map_congr_left hevents]
  · have hempty : selectors.added.filter (Added.ready conditions) = [] :=
      List.filter_eq_nil_iff.mpr fun x hx => by simp [hnone x hx]
    rw [hempty]
    exact ⟨rfl, .refl _⟩

end Poll

/-- **Exchanging the back-ends.** After any calls on both, a poll gives the same number and the same
events in either selector exactly when the wait is not interrupted, the kernel's condition of each
registration reads the same in both vocabularies, the ready registrations are all or none, and the
addresses that the epoll instance holds for them still are those of their elements. -/
theorem sameResult_iff_exchangeable {growth : GrowthPolicy} {maxEvents : BitVec 32}
    {epoll : EPollSelectorImpl Data} {actions : List (Action Data)} {selectors : Selectors Data}
    {conditions : PollId → Condition} {reports : List EpollInstance.Report} {interrupts : Nat}
    (hcreate : EPollSelectorImpl.create maxEvents none = .ok epoll)
    (hrun : run (step growth) ⟨PollSelectorImpl.create, epoll, []⟩ actions = some selectors)
    (hanswers : selectors.epoll.epoll.Answers conditions selectors.epoll.evlist.length reports)
    (hinterrupts : interrupts < 3) :
    SameResult (pollResult selectors conditions interrupts)
        (epollResult selectors reports interrupts) ↔
      Exchangeable conditions interrupts selectors := by
  have hinv : Invariant selectors :=
    invariant_of_run (invariant_create hcreate) (fun _ _ _ hinv hstep => hinv.step hstep) hrun
  by_cases hzero : interrupts = 0
  · subst hzero
    exact ⟨hinv.exchangeable_of_sameResult hanswers, hinv.sameResult_of_exchangeable hanswers⟩
  · exact iff_of_false (not_sameResult_of_interrupted hinterrupts hzero)
      fun hexchangeable => hzero hexchangeable.uninterrupted

def idle : Condition := ⟨false, false, false, false, false, false⟩

theorem answer_idle (requested : BitVec 32) : idle.answer requested = 0 := by
  simp [Condition.answer, Condition.bits, idle, orIf]

/-- Both descriptors left after a removal are ready. -/
theorem sameResult_when_all_ready :
    ∃ (epoll : EPollSelectorImpl Nat) (selectors : Selectors Nat),
      EPollSelectorImpl.create 4 none = .ok epoll ∧
      run (step .doubling) ⟨PollSelectorImpl.create, epoll, []⟩
        [.add 3 Selector.Read 30, .add 4 Selector.Read 40, .remove 4,
          .add 5 (Selector.Read ||| Selector.Write) 50] = some selectors ∧
      SameResult
        (pollResult selectors (fun fd => { idle with readable := fd == 3, writable := fd == 5 }) 0)
        (epollResult selectors [⟨5, EPOLLOUT⟩, ⟨3, EPOLLIN⟩] 0) := by
  obtain ⟨epoll, hcreate⟩ : ∃ epoll : EPollSelectorImpl Nat,
      EPollSelectorImpl.create 4 none = .ok epoll := ⟨_, rfl⟩
  obtain ⟨selectors, hrun⟩ : ∃ selectors, run (step .doubling) ⟨PollSelectorImpl.create, epoll, []⟩
      [.add 3 Selector.Read 30, .add 4 Selector.Read 40, .remove 4,
        .add 5 (Selector.Read ||| Selector.Write) 50] = some selectors := by
    cases hcreate
    exact ⟨_, rfl⟩
  refine ⟨epoll, selectors, hcreate, hrun,
    (sameResult_iff_exchangeable hcreate hrun ?_ (by omega)).mpr ?_⟩
  · cases hcreate
    cases hrun
    refine ⟨⟨by decide, by decide, by decide⟩, ?_, ?_⟩
    · intro report hreport
      rcases List.mem_pair.mp hreport with rfl | rfl
      · exact ⟨_, rfl, by decide, by decide⟩
      · exact ⟨_, rfl, by decide, by decide⟩
    · intro fd event _ hready
      by_contra hother
      have hne : fd ≠ 3 ∧ fd ≠ 5 := by simpa [and_comm] using hother
      apply hready
      rw [beq_false_of_ne hne.1, beq_false_of_ne hne.2]
      exact answer_idle event.events
  · cases hcreate
    cases hrun
    exact ⟨rfl, by decide, .inl (by decide), by decide⟩

/-- A pipe whose write end alone is ready: the poll back-end gives the number of registrations as
the size of the result. -/
theorem not_sameResult_of_pipe :
    ∃ (epoll : EPollSelectorImpl Nat) (selectors : Selectors Nat),
      EPollSelectorImpl.create 5 none = .ok epoll ∧
      run (step .doubling) ⟨PollSelectorImpl.create, epoll, []⟩
        [.add 3 Selector.Read 30, .add 4 Selector.Write 40] = some selectors ∧
      selectors.epoll.epoll.Answers (fun fd => { idle with writable := fd == 4 })
        selectors.epoll.evlist.length [⟨4, EPOLLOUT⟩] ∧
      ¬ SameResult (pollResult selectors (fun fd => { idle with writable := fd == 4 }) 0)
        (epollResult selectors [⟨4, EPOLLOUT⟩] 0) := by
  refine ⟨_, _, rfl, rfl, ⟨⟨by decide, by decide, by decide⟩, ?_, ?_⟩, ?_⟩
  · intro report hreport
    obtain rfl := List.mem_singleton.mp hreport
    exact ⟨_, rfl, by decide, by decide⟩
  · intro fd event _ hready
    by_contra hother
    have hne : fd ≠ 4 := by simpa using hother
    apply hready
    rw [beq_false_of_ne hne]
    exact answer_idle event.events
  · rintro ⟨hsize, _⟩
    exact absurd hsize (by decide)

end Cadence.SelectorEquivalence
