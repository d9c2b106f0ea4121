import Cadence.Foundation.StepSystem
import Cadence.Io.SelectorEpoll

/-!
# Which registration an epoll event is attributed to

The kernel holds the address of the vector element that an `add` appended, from that call until the
descriptor is removed. The vector keeps its elements in place under two conditions only: it never
outgrows the buffer reserved for it, and nothing in front of an element is erased. So the events of a
selector are attributed to the right registrations all along a run exactly when the client holds at
most `maxEvents` registrations at a time and removes no other than the one it added last.
-/

namespace Cadence.EpollAttribution

open Selector StepSystem EPollSelectorImpl

/-- A selector and what its client knows: the arguments of the `add` calls whose descriptor has not
been removed since, oldest first. -/
structure Client (Data : Type) where
  impl : EPollSelectorImpl Data
  registered : List (Selectable Data)

inductive Action (Data : Type) where
  | add (fd : PollId) (events : BitVec 32) (data : Data)
  | addRaw (fd : PollId) (nativeEvents : BitVec 32) (data : Data)
  | remove (fd : PollId)

variable {Data : Type} (growth : GrowthPolicy)

def step (client : Client Data) : Action Data → Option (Client Data)
  | .add fd events data =>
      match client.impl.add growth fd events data none with
      | (.ok (), impl) => some ⟨impl, client.registered ++ [⟨fd, data⟩]⟩
      | (.error _, _) => none
  | .addRaw fd nativeEvents data =>
      match client.impl.addRaw growth fd nativeEvents data none with
      | (.ok (), impl) => some ⟨impl, client.registered ++ [⟨fd, data⟩]⟩
      | (.error _, _) => none
  | .remove fd =>
      match client.impl.remove fd none with
      | (.ok (), impl) => some ⟨impl, client.registered.filter fun x => x.fd != fd⟩
      | (.error _, _) => none

/-- Whatever registrations the kernel finds ready, each event obtained through the iterator carries
the descriptor and the user data that the reported registration was added with. -/
def Attributed (client : Client Data) : Prop :=
  ∀ reports waits pimpl, client.impl.epoll.MayReport client.impl.evlist.length reports →
    Delivers waits reports →
    ∃ range impl, client.impl.poll waits = (.ok range, impl) ∧
      ∀ i, (poll pimpl range).index ≤ i → i < (poll pimpl range).size →
        ∃ report selectable event, reports[i]? = some report ∧
          selectable ∈ client.registered ∧ selectable.fd = report.fd ∧
          impl.getEvent i = some event ∧
          event.fd = selectable.fd ∧ event.data = selectable.data

/-- At most `maxEvents` registrations at a time, and only the latest of them is ever removed. -/
def LastInFirstOut (maxEvents : Nat) (client : Client Data) : Action Data → Prop
  | .add _ _ _ => client.registered.length < maxEvents
  | .addRaw _ _ _ => client.registered.length < maxEvents
  | .remove fd => fd ∉ client.registered.dropLast.map Selectable.fd

instance (maxEvents : Nat) (client : Client Data) (action : Action Data) :
    Decidable (LastInFirstOut maxEvents client action) := by
  cases action <;> unfold LastInFirstOut <;> infer_instance

structure Invariant (maxEvents : Nat) (client : Client Data) : Prop where
  elems : client.impl.selectables.elems = client.registered
  distinct : (client.registered.map Selectable.fd).Nodup
  registers : ∀ fd, client.impl.epoll.Registers fd ↔ fd ∈ client.registered.map Selectable.fd
  capacity : client.impl.selectables.capacity = maxEvents
  evlist : client.impl.evlist.length = maxEvents
  reached : ∀ x ∈ client.registered, client.impl.reached x.fd = some x

variable {growth} {maxEvents : Nat} {client next : Client Data}

theorem Invariant.nodup (hinv : Invariant maxEvents client) :
    client.impl.selectables.elems.Nodup := by
  rw [hinv.elems]
  exact hinv.distinct.of_map _

theorem Invariant.eq_of_fd_eq (hinv : Invariant maxEvents client) {x y : Selectable Data}
    (hx : x ∈ client.registered) (hy : y ∈ client.registered) (hfd : x.fd = y.fd) : x = y :=
  List.inj_on_of_nodup_map hinv.distinct hx hy hfd

theorem Invariant.attributed (hinv : Invariant maxEvents client) : Attributed client := by
  intro reports waits pimpl hreports hdelivers
  refine ⟨_, _, poll_of_delivers hdelivers, fun i _ hi => ?_⟩
  have hreport : reports[i]? = some reports[i] := List.getElem?_eq_getElem hi
  have hregisters := hreports.2.2 reports[i] (List.getElem_mem hi)
  obtain ⟨x, hx, hfd⟩ := List.mem_map.mp ((hinv.registers _).mp hregisters)
  refine ⟨reports[i], x, ⟨x.fd, eventFlags reports[i].events, x.data⟩, hreport, hx, hfd, ?_,
    rfl, rfl⟩
  rw [getEvent_receive hreport, ← hfd, hinv.reached x hx]
  rfl

theorem Attributed.reached (hattributed : Attributed client)
    (hevlist : 0 < client.impl.evlist.length) {fd : PollId}
    (hregisters : client.impl.epoll.Registers fd) :
    ∃ x ∈ client.registered, x.fd = fd ∧ client.impl.reached fd = some x := by
  have hmay : client.impl.epoll.MayReport client.impl.evlist.length [⟨fd, 0⟩] := by
    refine ⟨hevlist, by simp, fun report hreport => ?_⟩
    rw [List.mem_singleton.mp hreport]
    exact hregisters
  have hdelivers : Delivers (fun _ => .ready [⟨fd, 0⟩]) [⟨fd, 0⟩] :=
    ⟨0, by omega, rfl, fun j hj => by omega⟩
  obtain ⟨range, impl, hpoll, hevents⟩ := hattributed _ _ 0 hmay hdelivers
  rw [poll_of_delivers hdelivers] at hpoll
  obtain ⟨hrange, rfl⟩ := Prod.mk.inj hpoll
  obtain rfl := Except.ok.inj hrange
  obtain ⟨report, x, event, hreport, hx, hfd, hevent, heventFd, heventData⟩ :=
    hevents 0 (Nat.zero_le _) (by simp [Selector.poll])
  obtain rfl : ⟨fd, 0⟩ = report := Option.some.inj hreport
  rw [getEvent_receive hreport] at hevent
  obtain ⟨y, hy, rfl⟩ := Option.map_eq_some_iff.mp hevent
  have hxy : y = x := by
    cases x
    cases y
    simp_all
  exact ⟨x, hx, hfd, hxy ▸ hy⟩

/-! ### Registering -/

section Register

variable {fd : PollId} {nativeEvents : BitVec 32} {data : Data} {impl : EPollSelectorImpl Data}

theorem reached_addRaw_self
    (hadd : client.impl.addRaw growth fd nativeEvents data none = (.ok (), impl)) :
    impl.reached fd = some ⟨fd, data⟩ := by
  obtain ⟨_, hselectables, _, hinterest⟩ := addRaw_none_eq_ok hadd
  simp only [EPollSelectorImpl.reached, hinterest, Function.update_self, hselectables,
    Option.bind_eq_bind, Option.bind_some]
  exact StdVector.deref_backAddress_pushBack growth _ _

theorem reached_addRaw_of_ne {other : PollId} (hne : other ≠ fd)
    (hadd : client.impl.addRaw growth fd nativeEvents data none = (.ok (), impl)) :
    impl.reached other = (client.impl.epoll.interest other).bind fun event =>
      event.ptr.bind (client.impl.selectables.pushBack growth ⟨fd, data⟩).deref := by
  obtain ⟨_, hselectables, _, hinterest⟩ := addRaw_none_eq_ok hadd
  simp only [EPollSelectorImpl.reached, hinterest, Function.update_of_ne hne, hselectables]
  rfl

theorem exists_ptr_of_reached {other : PollId} {x : Selectable Data}
    (hreached : client.impl.reached other = some x) :
    ∃ event ptr, client.impl.epoll.interest other = some event ∧ event.ptr = some ptr ∧
      client.impl.selectables.deref ptr = some x := by
  obtain ⟨event, hevent, hrest⟩ := Option.bind_eq_some_iff.mp hreached
  obtain ⟨ptr, hptr, hderef⟩ := Option.bind_eq_some_iff.mp hrest
  exact ⟨event, ptr, hevent, hptr, hderef⟩

theorem Invariant.addRaw (hinv : Invariant maxEvents client)
    (hadd : client.impl.addRaw growth fd nativeEvents data none = (.ok (), impl))
    (hroom : client.registered.length < maxEvents) :
    Invariant maxEvents (⟨impl, client.registered ++ [⟨fd, data⟩]⟩ : Client Data) := by
  obtain ⟨hnew, hselectables, hevlist, hinterest⟩ := addRaw_none_eq_ok hadd
  have hfresh : fd ∉ client.registered.map Selectable.fd := fun hmem =>
    hnew ((hinv.registers fd).mpr hmem)
  have hplace : client.impl.selectables.elems.length < client.impl.selectables.capacity := by
    rw [hinv.elems, hinv.capacity]
    exact hroom
  constructor
  · simp [hselectables, hinv.elems]
  · rw [List.map_append, List.map_singleton, ← List.concat_eq_append]
    exact List.Nodup.concat hfresh hinv.distinct
  · intro other
    rw [registers_addRaw_iff hadd, hinv.registers, List.map_append, List.mem_append, or_comm]
    simp
  · rw [hselectables, StdVector.capacity_pushBack_of_lt hplace]
    exact hinv.capacity
  · rw [hevlist]
    exact hinv.evlist
  · intro x hx
    rcases List.mem_append.mp hx with hx | hx
    · have hne : x.fd ≠ fd := fun heq => hfresh (heq ▸ List.mem_map_of_mem hx)
      obtain ⟨event, ptr, hevent, hptr, hderef⟩ := exists_ptr_of_reached (hinv.reached x hx)
      rw [reached_addRaw_of_ne hne hadd, hevent, Option.bind_some, hptr, Option.bind_some]
      exact StdVector.deref_pushBack_of_lt hplace hderef
    · obtain rfl := List.mem_singleton.mp hx
      exact reached_addRaw_self hadd

/-- An `add` past the reserved buffer moves the elements away from the kernel's pointers. -/
theorem Invariant.not_attributed_addRaw (hinv : Invariant maxEvents client)
    (hpos : 0 < maxEvents)
    (hadd : client.impl.addRaw growth fd nativeEvents data none = (.ok (), impl))
    (hfull : ¬ client.registered.length < maxEvents) :
    ¬ Attributed (⟨impl, client.registered ++ [⟨fd, data⟩]⟩ : Client Data) := by
  intro hattributed
  obtain ⟨hnew, _, hevlist, hinterest⟩ := addRaw_none_eq_ok hadd
  have hplace : ¬ client.impl.selectables.elems.length < client.impl.selectables.capacity := by
    rw [hinv.elems, hinv.capacity]
    exact hfull
  obtain ⟨x, hx⟩ : ∃ x, x ∈ client.registered :=
    List.exists_mem_of_length_pos (by omega)
  have hregisters : client.impl.epoll.Registers x.fd :=
    (hinv.registers x.fd).mpr (List.mem_map_of_mem hx)
  have hne : x.fd ≠ fd := fun heq => hnew (heq ▸ hregisters)
  have hregisters' : impl.epoll.Registers x.fd := by
    simpa [EpollInstance.Registers, hinterest, Function.update_of_ne hne] using hregisters
  obtain ⟨event, ptr, hevent, hptr, hderef⟩ := exists_ptr_of_reached (hinv.reached x hx)
  have hlost : impl.reached x.fd = none := by
    rw [reached_addRaw_of_ne hne hadd, hevent, Option.bind_some, hptr, Option.bind_some]
    exact StdVector.deref_pushBack_of_not_lt hplace hderef
  obtain ⟨y, _, _, hreached⟩ := hattributed.reached
    (by rw [hevlist, hinv.evlist]; exact hpos) hregisters'
  rw [hlost] at hreached
  exact absurd hreached (by simp)

end Register

/-! ### Removing -/

section Remove

variable {fd : PollId} {impl : EPollSelectorImpl Data}

theorem reached_remove_of_ne {other : PollId} (hne : other ≠ fd)
    (hremove : client.impl.remove fd none = (.ok (), impl)) :
    impl.reached other = (client.impl.epoll.interest other).bind fun event =>
      event.ptr.bind (client.impl.selectables.eraseIf fun x => x.fd == fd).deref := by
  obtain ⟨hselectables, _, hinterest⟩ := remove_none_eq_ok hremove
  simp only [EPollSelectorImpl.reached, hinterest, Function.update_of_ne hne, hselectables]
  rfl

/-- After a `remove`, a registration that stays is still reached exactly when the one removed was
not in front of it. -/
theorem Invariant.reached_remove_iff (hinv : Invariant maxEvents client)
    (hremove : client.impl.remove fd none = (.ok (), impl)) {x : Selectable Data}
    (hx : x ∈ client.registered) (hne : x.fd ≠ fd) :
    ∃ slot, client.registered[slot]? = some x ∧
      (impl.reached x.fd = some x ↔ ∀ y ∈ client.registered.take slot, y.fd ≠ fd) := by
  obtain ⟨event, ptr, hevent, hptr, hderef⟩ := exists_ptr_of_reached (hinv.reached x hx)
  have hslot := (StdVector.deref_eq_some_iff.mp hderef).2
  rw [hinv.elems] at hslot
  refine ⟨ptr.slot, hslot, ?_⟩
  rw [reached_remove_of_ne hne hremove, hevent, Option.bind_some, hptr, Option.bind_some,
    StdVector.deref_eraseIf_iff hinv.nodup hderef (by simpa using hne), hinv.elems]
  simp

theorem Invariant.remove (hinv : Invariant maxEvents client)
    (hremove : client.impl.remove fd none = (.ok (), impl))
    (hlast : fd ∉ client.registered.dropLast.map Selectable.fd) :
    Invariant maxEvents
      (⟨impl, client.registered.filter fun x => x.fd != fd⟩ : Client Data) := by
  obtain ⟨hselectables, hevlist, hinterest⟩ := remove_none_eq_ok hremove
  constructor
  · rw [hselectables, StdVector.elems_eraseIf, hinv.elems]
    rfl
  · exact hinv.distinct.sublist (List.filter_sublist.map _)
  · intro other
    rw [registers_remove_iff hremove, hinv.registers]
    calc
      _ ↔ other ∈ (client.registered.map Selectable.fd).filter (· != fd) := by
        rw [List.mem_filter, bne_iff_ne, and_comm]
      _ ↔ _ := by rw [List.filter_map]; rfl
  · rw [hselectables]
    exact hinv.capacity
  · rw [hevlist]
    exact hinv.evlist
  · intro x hx
    obtain ⟨hx, hne⟩ := List.mem_filter.mp hx
    obtain ⟨slot, hslot, hiff⟩ := hinv.reached_remove_iff hremove hx (by simpa using hne)
    refine hiff.mpr fun y hy hfd => hlast ?_
    have hlt := (List.getElem?_eq_some_iff.mp hslot).1
    have hfront : client.registered.take slot <+: client.registered.dropLast := by
      rw [List.dropLast_eq_take]
      exact List.take_prefix_take_left (by omega)
    exact hfd ▸ List.mem_map_of_mem (hfront.subset hy)

theorem Invariant.not_attributed_remove (hinv : Invariant maxEvents client)
    (hpos : 0 < maxEvents)
    (hremove : client.impl.remove fd none = (.ok (), impl))
    (hearlier : fd ∈ client.registered.dropLast.map Selectable.fd) :
    ¬ Attributed (⟨impl, client.registered.filter fun x => x.fd != fd⟩ : Client Data) := by
  intro hattributed
  obtain ⟨_, hevlist, hinterest⟩ := remove_none_eq_ok hremove
  obtain ⟨y, hy, hyfd⟩ := List.mem_map.mp hearlier
  obtain ⟨front, last, hsplit⟩ : ∃ front last, client.registered = front ++ [last] := by
    rcases List.eq_nil_or_concat client.registered with hnil | ⟨front, last, hconcat⟩
    · rw [hnil] at hy
      simp at hy
    · exact ⟨front, last, by simpa using hconcat⟩
  have hyfront : y ∈ front := by simpa [hsplit] using hy
  have hylast : y ≠ last := by
    intro heq
    have hnodup := hinv.distinct.of_map
    rw [hsplit] at hnodup
    exact (List.nodup_append.mp hnodup).2.2 y hyfront last (by simp) heq
  have hx : last ∈ client.registered := by simp [hsplit]
  have hne : last.fd ≠ fd := fun heq =>
    hylast (hinv.eq_of_fd_eq (by simp [hsplit, hyfront]) hx (hyfd.trans heq.symm))
  obtain ⟨slot, hslot, hiff⟩ := hinv.reached_remove_iff hremove hx hne
  have hregisters : impl.epoll.Registers last.fd := by
    have hold : client.impl.epoll.Registers last.fd :=
      (hinv.registers last.fd).mpr (List.mem_map_of_mem hx)
    simpa [EpollInstance.Registers, hinterest, Function.update_of_ne hne] using hold
  obtain ⟨z, hz, hzfd, hreached⟩ := hattributed.reached
    (by rw [hevlist, hinv.evlist]; exact hpos) hregisters
  obtain rfl : z = last := hinv.eq_of_fd_eq (List.mem_filter.mp hz).1 hx hzfd
  -- the last element sits behind all of `front`, the removed one included
  have hend : slot = front.length := by
    have hlast : client.registered[front.length]? = some z := by simp [hsplit]
    exact (List.getElem?_inj (List.getElem?_eq_some_iff.mp hslot).1
      (hinv.distinct.of_map _)).mp (hslot.trans hlast.symm)
  refine hiff.mp hreached y ?_ hyfd
  rw [hend, hsplit, List.take_left]
  exact hyfront

end Remove

theorem step_cases {action : Action Data} (hstep : step growth client action = some next) :
    (∃ fd nativeEvents data impl,
      client.impl.addRaw growth fd nativeEvents data none = (.ok (), impl) ∧
      next = ⟨impl, client.registered ++ [⟨fd, data⟩]⟩ ∧
      ∀ maxEvents, LastInFirstOut maxEvents client action ↔
        client.registered.length < maxEvents) ∨
    (∃ fd impl, client.impl.remove fd none = (.ok (), impl) ∧
      next = ⟨impl, client.registered.filter fun x => x.fd != fd⟩ ∧
      ∀ maxEvents, LastInFirstOut maxEvents client action ↔
        fd ∉ client.registered.dropLast.map Selectable.fd) := by
  cases action with
  | add fd events data =>
      simp only [step] at hstep
      split at hstep
      next impl hadd =>
        exact Or.inl ⟨fd, _, data, impl, hadd, (Option.some.inj hstep).symm, fun _ => Iff.rfl⟩
      next => cases hstep
  | addRaw fd nativeEvents data =>
      simp only [step] at hstep
      split at hstep
      next impl hadd =>
        exact Or.inl ⟨fd, _, data, impl, hadd, (Option.some.inj hstep).symm, fun _ => Iff.rfl⟩
      next => cases hstep
  | remove fd =>
      simp only [step] at hstep
      split at hstep
      next impl hremove =>
        exact Or.inr ⟨fd, impl, hremove, (Option.some.inj hstep).symm, fun _ => Iff.rfl⟩
      next => cases hstep

/-- What holds of a client in the invariant, and cannot hold without attribution. -/
theorem always_iff_lastInFirstOut {property : Client Data → Prop}
    (hof : ∀ {maxEvents} {client : Client Data}, Invariant maxEvents client → property client)
    (himp : ∀ {client : Client Data}, property client → Attributed client)
    {maxReportedEvents : BitVec 32} {failure : Option Errno} {impl : EPollSelectorImpl Data}
    (hcreate : EPollSelectorImpl.create maxReportedEvents failure = .ok impl)
    (actions : List (Action Data)) :
    Always (step growth) property ⟨impl, []⟩ actions ↔
      Guarded (step growth) (LastInFirstOut maxReportedEvents.toNat) ⟨impl, []⟩ actions := by
  obtain ⟨hpos, helems, hcapacity, hevlist, hregisters⟩ := create_eq_ok hcreate
  apply always_iff_guarded (Invariant maxReportedEvents.toNat)
  · exact ⟨helems, by simp, by simpa using hregisters, hcapacity, hevlist, by simp⟩
  · exact fun _ hinv => hof hinv
  · intro client action next hinv hstep hguard
    rcases step_cases hstep with ⟨fd, mask, data, impl, hadd, rfl, hiff⟩ |
      ⟨fd, impl, hremove, rfl, hiff⟩
    · exact hinv.addRaw hadd ((hiff _).mp hguard)
    · exact hinv.remove hremove ((hiff _).mp hguard)
  · intro client action next hinv hstep hproperty
    have hattributed := himp hproperty
    rcases step_cases hstep with ⟨fd, mask, data, impl, hadd, rfl, hiff⟩ |
      ⟨fd, impl, hremove, rfl, hiff⟩
    · refine (hiff _).mpr ?_
      by_contra hfull
      exact hinv.not_attributed_addRaw hpos hadd hfull hattributed
    · refine (hiff _).mpr fun hearlier => ?_
      exact hinv.not_attributed_remove hpos hremove hearlier hattributed

/-- **Attribution.** Along a run of successful calls every event is attributed to the registration
the kernel reported exactly when the client holds at most `maxEvents` registrations at a time and
only ever removes the latest. -/
theorem attributed_iff_lastInFirstOut {maxReportedEvents : BitVec 32} {failure : Option Errno}
    {impl : EPollSelectorImpl Data}
    (hcreate : EPollSelectorImpl.create maxReportedEvents failure = .ok impl)
    (actions : List (Action Data)) :
    Always (step growth) Attributed ⟨impl, []⟩ actions ↔
      Guarded (step growth) (LastInFirstOut maxReportedEvents.toNat) ⟨impl, []⟩ actions :=
  always_iff_lastInFirstOut (fun hinv => hinv.attributed) id hcreate actions

/-- Two registrations, the later one removed and added again. -/
theorem attributed_of_readding_the_latest :
    ∃ impl : EPollSelectorImpl Nat, EPollSelectorImpl.create 2 none = .ok impl ∧
      Always (step .doubling) Attributed ⟨impl, []⟩
        [.addRaw 3 EPOLLIN 30, .addRaw 4 EPOLLIN 40, .remove 4, .addRaw 4 EPOLLIN 41] := by
  have hcreate : ∃ impl : EPollSelectorImpl Nat, EPollSelectorImpl.create 2 none = .ok impl :=
    ⟨_, rfl⟩
  obtain ⟨impl, himpl⟩ := hcreate
  refine ⟨impl, himpl, (attributed_iff_lastInFirstOut himpl _).mpr ?_⟩
  cases himpl
  decide

/-- With three registrations and the first removed, the event of descriptor 4 is read from the slot
that descriptor 5 was shifted into. -/
theorem not_attributed_of_removing_the_first :
    ∃ impl : EPollSelectorImpl Nat, EPollSelectorImpl.create 4 none = .ok impl ∧
      ¬ Always (step .doubling) Attributed ⟨impl, []⟩
        [.addRaw 3 EPOLLIN 30, .addRaw 4 EPOLLIN 40, .addRaw 5 EPOLLIN 50, .remove 3] := by
  refine ⟨_, rfl, fun halways => ?_⟩
  have hlast := halways.of_run rfl
  obtain ⟨range, impl, hpoll, hevents⟩ :=
    hlast [⟨4, EPOLLIN⟩] (fun _ => .ready [⟨4, EPOLLIN⟩]) 0
      ⟨by decide, by decide, by decide⟩ ⟨0, by decide, rfl, fun j hj => by omega⟩
  cases hpoll
  obtain ⟨report, x, event, hreport, _, hfd, hevent, heventFd, _⟩ :=
    hevents 0 (Nat.zero_le _) (by decide)
  cases hreport
  cases hevent
  exact absurd (heventFd.trans hfd) (by decide)

end Cadence.EpollAttribution
