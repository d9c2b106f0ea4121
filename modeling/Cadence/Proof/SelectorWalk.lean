import Cadence.Io.Readiness
import Cadence.Proof.PollRegistrations

/-!
# What a loop over the result of a poll sees

Both back-ends present a table, and their `advance` goes on to its next ready entry: for `poll(2)` the
table of all registrations, for epoll that of the reports, which are all ready. The loop then sees the
ready entries in the order of the table.
-/

namespace Cadence.SelectorWalk

open Selector

variable {Data : Type}

/-! ### Any table -/

section Table

variable {α : Type*} {table : List α} {ready : α → Bool} {advance : Nat → Nat}

structure NextReady (table : List α) (ready : α → Bool) (i next : Nat) : Prop where
  lt : i < next
  le : next ≤ table.length
  skipped : ∀ k x, i < k → k < next → table[k]? = some x → ready x = false
  ready : ∀ x, table[next]? = some x → ready x = true

/-- From a ready entry on, the ready ones are this one and those from the next one on. -/
theorem NextReady.ready_from_iff {index next : Nat} (hnext : NextReady table ready index next)
    (hlt : index < table.length) (hready : ready table[index] = true) (i : Nat) :
    (index ≤ i ∧ ∃ x, table[i]? = some x ∧ ready x = true) ↔
      i = index ∨ (next ≤ i ∧ ∃ x, table[i]? = some x ∧ ready x = true) := by
  have hforward := hnext.lt
  constructor
  · rintro ⟨hle, x, hx, hxready⟩
    rcases hle.eq_or_lt with rfl | hi
    · exact Or.inl rfl
    · refine Or.inr ⟨?_, x, hx, hxready⟩
      by_contra hskip
      have hidle := hnext.skipped i x hi (by omega) hx
      rw [hidle] at hxready
      cases hxready
  · rintro (rfl | ⟨hle, hx⟩)
    · exact ⟨le_rfl, table[i], List.getElem?_eq_getElem hlt, hready⟩
    · exact ⟨by omega, hx⟩

theorem filter_drop_eq {i j : Nat} (hij : i ≤ j) (hj : j ≤ table.length)
    (hskipped : ∀ k x, i ≤ k → k < j → table[k]? = some x → ready x = false) :
    (table.drop i).filter ready = (table.drop j).filter ready := by
  obtain ⟨gap, rfl⟩ := Nat.exists_eq_add_of_le hij
  induction gap generalizing i with
  | zero => rfl
  | succ gap ih =>
      have hi : i < table.length := by omega
      have hidle : ready table[i] = false :=
        hskipped i table[i] le_rfl (by omega) (List.getElem?_eq_getElem hi)
      have hrest := ih (i := i + 1) (by omega) (by omega) fun k x hik hk =>
        hskipped k x (by omega) (by omega)
      calc (table.drop i).filter ready = (table[i] :: table.drop (i + 1)).filter ready := by
            rw [List.getElem_cons_drop]
        _ = (table.drop (i + 1)).filter ready :=
            List.filter_cons_of_neg (by rw [hidle]; exact Bool.false_ne_true)
        _ = (table.drop (i + (gap + 1))).filter ready := by
            rw [hrest]
            congr 2
            omega

/-- The loop succeeds when every ready entry has an event, and sees these events. -/
theorem walk_eq_some_iff {getEvent : Nat → Option (Event Data)} {event : α → Option (Event Data)}
    (hgetEvent : ∀ i < table.length, getEvent i = table[i]?.bind event)
    (hadvance : ∀ i < table.length, NextReady table ready i (advance i)) (pimpl : Nat) {index steps : Nat}
    (hindex : index ≤ table.length) (hready : ∀ x, table[index]? = some x → ready x = true)
    (hsteps : table.length - index ≤ steps) (events : List (Event Data)) :
    Iterator.walk getEvent advance ⟨index, table.length, pimpl⟩ steps = some events ↔
      events.map some = ((table.drop index).filter ready).map event := by
  induction steps generalizing index events with
  | zero =>
      obtain rfl : index = table.length := by omega
      rw [Iterator.walk_of_end rfl, List.drop_length]
      cases events <;> simp
  | succ steps ih =>
      rcases hindex.eq_or_lt with rfl | hlt
      · rw [Iterator.walk_of_end rfl, List.drop_length]
        cases events <;> simp
      have hx : table[index]? = some table[index] := List.getElem?_eq_getElem hlt
      have hnext := hadvance index hlt
      have hfilter : (table.drop index).filter ready =
          table[index] :: (table.drop (advance index)).filter ready := by
        rw [← List.getElem_cons_drop hlt, List.filter_cons_of_pos (hready _ hx),
          filter_drop_eq hnext.lt hnext.le fun k x hik hk => hnext.skipped k x hik hk]
      rw [Iterator.walk_of_lt hlt, hgetEvent index hlt, hx, Option.bind_some, hfilter, List.map_cons]
      have hrest := ih hnext.le hnext.ready (by have := hnext.lt; omega)
      cases hevent : event table[index] with
      | none => cases events <;> simp
      | some first =>
          rw [Option.bind_some, Option.map_eq_some_iff]
          cases events with
          | nil => simp
          | cons head events =>
              rw [List.map_cons, List.cons.injEq, Option.some.injEq, ← hrest]
              constructor
              · rintro ⟨rest, hwalk, heq⟩
                obtain ⟨rfl, rfl⟩ := List.cons.inj heq
                exact ⟨rfl, hwalk⟩
              · rintro ⟨rfl, hwalk⟩
                exact ⟨events, hwalk, rfl⟩

/-- The iterator stands at each ready entry from its index on once, in the order of the table. -/
theorem traverse_eq_some (hadvance : ∀ i < table.length, NextReady table ready i (advance i))
    (pimpl : Nat) {index steps : Nat} (hindex : index ≤ table.length)
    (hready : ∀ x, table[index]? = some x → ready x = true)
    (hsteps : table.length - index ≤ steps) :
    ∃ indices, Iterator.traverse advance ⟨index, table.length, pimpl⟩
        ⟨table.length, table.length, pimpl⟩ steps = some indices ∧
      indices.Pairwise (· < ·) ∧
      ∀ i, i ∈ indices ↔ index ≤ i ∧ ∃ x, table[i]? = some x ∧ ready x = true := by
  have hend (steps : Nat) : Iterator.traverse advance ⟨table.length, table.length, pimpl⟩
      ⟨table.length, table.length, pimpl⟩ steps = some [] := by
    apply Iterator.traverse_of_eq
    simp [Iterator.eq]
  have hbehind (i : Nat) : ¬ (table.length ≤ i ∧ ∃ x, table[i]? = some x ∧ ready x = true) := by
    rintro ⟨hle, x, hx, _⟩
    have hlt := (List.getElem?_eq_some_iff.mp hx).1
    omega
  induction steps generalizing index with
  | zero =>
      obtain rfl : index = table.length := by omega
      exact ⟨[], hend 0, List.Pairwise.nil, fun i => iff_of_false List.not_mem_nil (hbehind i)⟩
  | succ steps ih =>
      rcases hindex.eq_or_lt with rfl | hlt
      · exact ⟨[], hend _, List.Pairwise.nil,
          fun i => iff_of_false List.not_mem_nil (hbehind i)⟩
      have hnext := hadvance index hlt
      have hforward := hnext.lt
      have hfirst : ready table[index] = true := hready _ (List.getElem?_eq_getElem hlt)
      obtain ⟨indices, htraverse, hordered, hmem⟩ := ih hnext.le hnext.ready (by omega)
      refine ⟨index :: indices, ?_, List.pairwise_cons.mpr ⟨fun i hi => ?_, hordered⟩, fun i => ?_⟩
      · have hne : index ≠ table.length := by omega
        have hincrement : Iterator.increment advance ⟨index, table.length, pimpl⟩ =
            .ok ⟨advance index, table.length, pimpl⟩ := Iterator.increment_of_lt hlt
        simp only [Iterator.traverse, hincrement, Iterator.eq, Except.toOption, Option.bind_some,
          htraverse, Option.map_some]
        simp [hne]
      · have hle := ((hmem i).mp hi).1
        omega
      · rw [List.mem_cons, hmem, hnext.ready_from_iff hlt hfirst]

end Table

/-! ### The two back-ends -/

section Poll

open PollRegistrations

theorem isReady_pollfd {impl : PollSelectorImpl Data} {i : Nat} {p : PollFd}
    (hp : impl.pollfds[i]? = some p) : impl.isReady i = (p.revents != 0) := by
  rw [PollSelectorImpl.isReady, hp]

theorem nextReady_advance (impl : PollSelectorImpl Data) {i : Nat} (hi : i < impl.pollfds.length) :
    NextReady impl.pollfds (fun p => p.revents != 0) i (impl.advance i) := by
  have hskipped : ∀ k p, i < k → k < impl.advance i → impl.pollfds[k]? = some p →
      (p.revents != 0) = false := by
    intro k p hik hk hp
    rw [PollSelectorImpl.advance, if_neg (by omega), PollSelectorImpl.findFirstReady] at hk
    rw [← isReady_pollfd hp]
    exact PollSelectorImpl.not_isReady_of_lt_findFirstReadyLoop _ rfl hik hk
  rcases impl.advance_spec i with ⟨hend, _⟩ | ⟨hlt, hfound⟩
  · refine ⟨by omega, hend.le, hskipped, fun p hp => ?_⟩
    have := (List.getElem?_eq_some_iff.mp hp).1
    omega
  · exact ⟨hlt, (PollSelectorImpl.isReady.lt hfound).le, hskipped,
      fun p hp => isReady_pollfd hp ▸ hfound⟩

variable {impl : PollSelectorImpl Data} {list : List (Registration Data)}
  (conditions : PollId → Condition)

def revents (conditions : PollId → Condition) (registration : Registration Data) : BitVec 16 :=
  (conditions registration.fd).answer registration.interest

def isReady (conditions : PollId → Condition) (registration : Registration Data) : Bool :=
  revents conditions registration != 0

def pollEvent (conditions : PollId → Condition) (registration : Registration Data) : Event Data :=
  ⟨registration.fd, PollSelectorImpl.eventFlags (revents conditions registration),
    registration.data⟩

/-- The selector when `poll(2)` has returned. -/
def answered (impl : PollSelectorImpl Data) (conditions : PollId → Condition) :
    PollSelectorImpl Data :=
  impl.writeRevents (impl.answers conditions)

theorem pollfds_answered (hprojects : Projects impl list) (i : Nat) :
    (answered impl conditions).pollfds[i]? = list[i]?.map fun registration =>
      ⟨registration.fd, registration.interest, revents conditions registration⟩ := by
  have hpair := congrArg (fun pairs => pairs[i]?) hprojects.pollfds
  simp only [List.getElem?_map] at hpair
  simp only [answered, PollSelectorImpl.writeRevents, PollSelectorImpl.answers,
    List.getElem?_mapIdx]
  cases hp : impl.pollfds[i]? with
  | none =>
      rw [hp] at hpair
      cases hr : list[i]? with
      | none => rfl
      | some registration => simp [hr] at hpair
  | some p =>
      rw [hp] at hpair
      cases hr : list[i]? with
      | none => simp [hr] at hpair
      | some registration =>
          obtain ⟨hfd, hevents⟩ := Prod.mk.inj (Option.some.inj (hr ▸ hpair))
          simp only [Option.map_some, revents]
          rw [hfd, hevents]

theorem isReady_answered (hprojects : Projects impl list) {i : Nat} {x : Registration Data}
    (hx : list[i]? = some x) : (answered impl conditions).isReady i = isReady conditions x := by
  unfold PollSelectorImpl.isReady
  rw [pollfds_answered conditions hprojects, hx]
  rfl

theorem getEvent_answered (hprojects : Projects impl list) (i : Nat) :
    (answered impl conditions).getEvent i =
      list[i]?.bind fun registration => some (pollEvent conditions registration) := by
  unfold PollSelectorImpl.getEvent
  have hselectables : (answered impl conditions).selectables[i]? =
      list[i]?.map fun registration => ⟨registration.fd, registration.data⟩ := by
    rw [← List.getElem?_map, ← hprojects.selectables]
    rfl
  rw [pollfds_answered conditions hprojects, hselectables]
  cases list[i]? <;> rfl

theorem length_answered (hprojects : Projects impl list) :
    (answered impl conditions).pollfds.length = list.length := by
  have hlength := congrArg List.length hprojects.pollfds
  rw [List.length_map, List.length_map] at hlength
  rw [← hlength, answered, PollSelectorImpl.writeRevents, List.length_mapIdx]

theorem nextReady_answered (hprojects : Projects impl list) {i : Nat} (hi : i < list.length) :
    NextReady list (isReady conditions) i ((answered impl conditions).advance i) := by
  have hlength := length_answered conditions hprojects
  have hnext := nextReady_advance (answered impl conditions) (i := i) (by omega)
  have hpollfd {k : Nat} {x : Registration Data} (hx : list[k]? = some x) :
      (answered impl conditions).pollfds[k]? =
        some ⟨x.fd, x.interest, revents conditions x⟩ := by
    rw [pollfds_answered conditions hprojects, hx]
    rfl
  exact ⟨hnext.lt, hlength ▸ hnext.le, fun k x hik hk hx => hnext.skipped k _ hik hk (hpollfd hx),
    fun x hx => hnext.ready _ (hpollfd hx)⟩

/-- Nothing is ready, or the range starts at the first ready entry and ends with the table. -/
theorem rangeOf_answered (hprojects : Projects impl list) :
    (list.filter (isReady conditions) = [] ∧ (answered impl conditions).rangeOf = ⟨0, 0⟩) ∨
    (list.filter (isReady conditions) ≠ [] ∧
      (answered impl conditions).rangeOf.count = list.length ∧
      (answered impl conditions).rangeOf.firstReady ≤ list.length ∧
      (∀ x, list[(answered impl conditions).rangeOf.firstReady]? = some x →
        isReady conditions x = true) ∧
      (list.drop (answered impl conditions).rangeOf.firstReady).filter (isReady conditions) =
        list.filter (isReady conditions)) := by
  have hlength := length_answered conditions hprojects
  have hready := fun k x => isReady_answered (i := k) (x := x) conditions hprojects
  rcases (answered impl conditions).rangeOf_spec with ⟨hrange, hnone⟩ | ⟨hcount, hfound⟩
  · refine .inl ⟨?_, hrange⟩
    refine List.filter_eq_nil_iff.mpr fun x hx => ?_
    obtain ⟨k, hk⟩ := List.getElem?_of_mem hx
    rw [← hready k x hk, hnone k]
    exact Bool.false_ne_true
  · have hlt := PollSelectorImpl.isReady.lt hfound
    rw [hlength] at hlt hcount
    have hx := List.getElem?_eq_getElem hlt
    have hfirst := (hready _ _ hx).symm.trans hfound
    refine .inr ⟨?_, hcount, hlt.le, fun x hx => (hready _ x hx).symm.trans hfound, ?_⟩
    · exact List.ne_nil_of_mem (List.mem_filter.mpr ⟨List.getElem_mem hlt, hfirst⟩)
    · refine (filter_drop_eq (Nat.zero_le _) hlt.le fun k x _ hk hx => ?_).symm
      rw [← hready k x hx]
      exact PollSelectorImpl.not_isReady_of_lt_firstReady hk

theorem walk_answered (hprojects : Projects impl list) (pimpl : Nat) :
    let it := Selector.poll pimpl (answered impl conditions).rangeOf
    it.walk (answered impl conditions).getEvent (answered impl conditions).advance it.size =
      some ((list.filter (isReady conditions)).map (pollEvent conditions)) := by
  intro it
  rcases rangeOf_answered conditions hprojects with
    ⟨hnone, hrange⟩ | ⟨_, hcount, hle, hfirst, hfilter⟩
  · rw [hnone, Iterator.walk_of_end (by simp [it, Selector.poll, hrange])]
    rfl
  · have hit : it = ⟨(answered impl conditions).rangeOf.firstReady, list.length, pimpl⟩ := by
      simp [it, Selector.poll, hcount]
    rw [hit, walk_eq_some_iff (fun i _ => getEvent_answered conditions hprojects i)
      (fun i hi => nextReady_answered conditions hprojects hi) pimpl hle hfirst (Nat.sub_le _ _), hfilter, List.map_map]
    rfl

end Poll

section Epoll

variable {impl : EPollSelectorImpl Data} {reports : List EpollInstance.Report}

theorem nextReady_report {i : Nat} (hi : i < reports.length) :
    NextReady reports (fun _ => true) i (EPollSelectorImpl.advance i) := by
  refine ⟨Nat.lt_succ_self i, hi, fun k x hik hk _ => ?_, fun _ _ => rfl⟩
  unfold EPollSelectorImpl.advance at hk
  omega

/-- The event obtained for a report, through the pointer the kernel gives back. -/
def epollEvent (impl : EPollSelectorImpl Data) (report : EpollInstance.Report) :
    Option (Event Data) :=
  (impl.reached report.fd).map fun x =>
    ⟨x.fd, EPollSelectorImpl.eventFlags report.events, x.data⟩

theorem walk_receive_eq_some_iff (impl : EPollSelectorImpl Data)
    (reports : List EpollInstance.Report) (pimpl : Nat) (events : List (Event Data)) :
    Iterator.walk (impl.receive reports).getEvent EPollSelectorImpl.advance
        ⟨0, reports.length, pimpl⟩ reports.length = some events ↔
      events.map some = reports.map (epollEvent impl) := by
  have hgetEvent : ∀ i < reports.length,
      (impl.receive reports).getEvent i = reports[i]?.bind (epollEvent impl) := by
    intro i hi
    rw [EPollSelectorImpl.getEvent_receive (List.getElem?_eq_getElem hi),
      List.getElem?_eq_getElem hi, Option.bind_some]
    rfl
  have hwalk := walk_eq_some_iff hgetEvent (fun i hi => nextReady_report hi) pimpl
    (Nat.zero_le _) (fun _ _ => rfl)
    (Nat.sub_le reports.length 0) events
  rw [List.drop_zero, List.filter_true] at hwalk
  exact hwalk

end Epoll

end Cadence.SelectorWalk
