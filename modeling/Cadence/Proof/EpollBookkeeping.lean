import Cadence.Foundation.Journal
import Cadence.Foundation.StepSystem
import Cadence.Io.SelectorEpoll

/-!
# The epoll back-end when a call fails

`addRaw` appends to the vector before it asks the kernel, `remove` asks the kernel before it erases. A
refusal leaves the vector with an entry too many either way, the one exception being `ENOENT`.
-/

namespace Cadence.EpollBookkeeping

open Selector StepSystem EPollSelectorImpl

variable {Data : Type}

/-- A selector and what its client did: the calls of `add` that returned and all calls of `remove`. -/
structure Client (Data : Type) where
  impl : EPollSelectorImpl Data
  journal : List (Journal.Entry (Selectable Data))

inductive Action (Data : Type) where
  | add (fd : PollId) (events : BitVec 32) (data : Data) (failure : Option Errno)
  | addRaw (fd : PollId) (nativeEvents : BitVec 32) (data : Data) (failure : Option Errno)
  | remove (fd : PollId) (failure : Option Errno)
  | closed (fd : PollId)

def removed (fd : PollId) : Journal.Entry (Selectable Data) := .drop fun x => x.fd == fd

/-- The client after an `add` with this result. -/
def Client.after (client : Client Data) (fd : PollId) (data : Data) :
    Except Exception Unit × EPollSelectorImpl Data → Client Data
  | (.ok (), impl) => ⟨impl, client.journal ++ [.append ⟨fd, data⟩]⟩
  | (.error _, impl) => ⟨impl, client.journal⟩

def step (growth : GrowthPolicy) (client : Client Data) : Action Data → Option (Client Data)
  | .add fd events data failure =>
      some (client.after fd data (client.impl.add growth fd events data failure))
  | .addRaw fd nativeEvents data failure =>
      some (client.after fd data (client.impl.addRaw growth fd nativeEvents data failure))
  | .remove fd failure =>
      some ⟨(client.impl.remove fd failure).2, client.journal ++ [removed fd]⟩
  | .closed fd =>
      some { client with
        impl := { client.impl with epoll := client.impl.epoll.forget fd } }

/-- One entry for each `add` that returned and whose descriptor was not given to `remove` since. -/
def Kept (client : Client Data) : Prop :=
  client.impl.selectables.elems.Perm (Journal.surviving client.journal)

/-- The kernel accepts the call, or has nothing to remove, or there is no entry to erase. -/
def Accepted (client : Client Data) : Action Data → Prop
  | .add fd _ _ failure => failure = none ∧ ¬ client.impl.epoll.Registers fd
  | .addRaw fd _ _ failure => failure = none ∧ ¬ client.impl.epoll.Registers fd
  | .remove fd failure =>
      (∀ errno ∈ failure, errno = ENOENT) ∨
        fd ∉ client.impl.selectables.elems.map Selectable.fd
  | .closed _ => True

instance (client : Client Data) (action : Action Data) : Decidable (Accepted client action) := by
  cases action <;> unfold Accepted <;> infer_instance

section Calls

theorem elems_addRaw (growth : GrowthPolicy) (impl : EPollSelectorImpl Data) (fd : PollId)
    (nativeEvents : BitVec 32) (data : Data) (failure : Option Errno) :
    (impl.addRaw growth fd nativeEvents data failure).2.selectables.elems =
      impl.selectables.elems ++ [⟨fd, data⟩] := by
  simp only [addRaw]
  split <;> exact StdVector.elems_pushBack growth _ _

theorem addRaw_ok_iff (growth : GrowthPolicy) (impl : EPollSelectorImpl Data) (fd : PollId)
    (nativeEvents : BitVec 32) (data : Data) (failure : Option Errno) :
    (impl.addRaw growth fd nativeEvents data failure).1 = .ok () ↔
      failure = none ∧ ¬ impl.epoll.Registers fd := by
  unfold addRaw EpollInstance.ctlAdd
  cases failure with
  | some errno => simp
  | none => by_cases hfd : impl.epoll.Registers fd <;> simp [hfd]

theorem elems_remove (impl : EPollSelectorImpl Data) (fd : PollId) (failure : Option Errno) :
    (impl.remove fd failure).2.selectables.elems =
      if ∀ errno ∈ failure, errno = ENOENT then impl.selectables.elems.filter fun x => !(x.fd == fd)
      else impl.selectables.elems := by
  unfold remove EpollInstance.ctlDel
  cases failure with
  | some errno => by_cases herrno : errno = ENOENT <;> simp [herrno, eraseSelectables]
  | none => by_cases hfd : impl.epoll.Registers fd <;> simp [hfd, eraseSelectables]

end Calls

section Step

variable {growth : GrowthPolicy} {client next : Client Data} {fd : PollId}
  {nativeEvents : BitVec 32} {data : Data} {failure : Option Errno}

/-- The entries are in the order of the calls, too. -/
def InOrder (client : Client Data) : Prop :=
  client.impl.selectables.elems = Journal.surviving client.journal

theorem InOrder.kept (hinv : InOrder client) : Kept client := by
  rw [Kept, hinv]

theorem InOrder.addRaw (hinv : InOrder client)
    (haccepted : failure = none ∧ ¬ client.impl.epoll.Registers fd) :
    InOrder (client.after fd data (client.impl.addRaw growth fd nativeEvents data failure)) := by
  have helems := elems_addRaw growth client.impl fd nativeEvents data failure
  have hok := (addRaw_ok_iff growth client.impl fd nativeEvents data failure).mpr haccepted
  generalize client.impl.addRaw growth fd nativeEvents data failure = outcome at helems hok ⊢
  obtain ⟨result, impl⟩ := outcome
  subst hok
  rw [Client.after, InOrder, Journal.surviving_concat, Journal.Entry.apply, ← hinv]
  exact helems

theorem InOrder.addRaw_accepted (hinv : InOrder client)
    (hkept : Kept (client.after fd data
      (client.impl.addRaw growth fd nativeEvents data failure))) :
    failure = none ∧ ¬ client.impl.epoll.Registers fd := by
  have helems := elems_addRaw growth client.impl fd nativeEvents data failure
  rw [← addRaw_ok_iff growth client.impl fd nativeEvents data failure]
  generalize client.impl.addRaw growth fd nativeEvents data failure = outcome at helems hkept ⊢
  obtain ⟨result, impl⟩ := outcome
  cases result with
  | ok _ => rfl
  | error raised =>
      -- the entry of the refused registration stays in the vector
      exfalso
      have hbefore : client.impl.selectables.elems.length =
          (Journal.surviving client.journal).length := congrArg List.length hinv
      have hafter : impl.selectables.elems.length =
          (Journal.surviving client.journal).length := hkept.length_eq
      have hlonger : impl.selectables.elems.length =
          client.impl.selectables.elems.length + 1 := by
        simpa using congrArg List.length helems
      omega

theorem InOrder.remove (hinv : InOrder client)
    (haccepted : Accepted client (.remove fd failure)) :
    InOrder ⟨(client.impl.remove fd failure).2, client.journal ++ [removed fd]⟩ := by
  rw [InOrder, Journal.surviving_concat, removed, Journal.Entry.apply, ← hinv, elems_remove]
  split
  next => rfl
  next hrefused =>
    have habsent := haccepted.resolve_left hrefused
    refine (List.filter_eq_self.mpr fun x hx => ?_).symm
    have hne : x.fd ≠ fd := fun heq => habsent (heq ▸ List.mem_map_of_mem hx)
    simpa using hne

theorem InOrder.remove_accepted (hinv : InOrder client)
    (hkept : Kept ⟨(client.impl.remove fd failure).2, client.journal ++ [removed fd]⟩) :
    Accepted client (.remove fd failure) := by
  rw [Kept, Journal.surviving_concat, removed, Journal.Entry.apply, ← hinv, elems_remove] at hkept
  rw [Accepted]
  by_contra hrefused
  obtain ⟨herrno, hpresent⟩ := not_or.mp hrefused
  rw [if_neg herrno] at hkept
  obtain ⟨x, hx, rfl⟩ := List.mem_map.mp (not_not.mp hpresent)
  have hleft := (List.mem_filter.mp (hkept.mem_iff.mp hx)).2
  simp at hleft

end Step

/-- **Bookkeeping.** The entries of the vector are those of the calls that returned, all along a run
with any failures, exactly when every `add` is accepted and no `remove` of a descriptor that has an
entry fails with another error than `ENOENT`. -/
theorem kept_iff_accepted {growth : GrowthPolicy} {maxReportedEvents : BitVec 32}
    {failure : Option Errno} {impl : EPollSelectorImpl Data}
    (hcreate : EPollSelectorImpl.create maxReportedEvents failure = .ok impl)
    (actions : List (Action Data)) :
    Always (step growth) Kept ⟨impl, []⟩ actions ↔
      Guarded (step growth) Accepted ⟨impl, []⟩ actions := by
  obtain ⟨_, helems, _⟩ := create_eq_ok hcreate
  apply always_iff_guarded InOrder
  · exact helems
  · exact fun _ hinv => hinv.kept
  · intro client action next hinv hstep haccepted
    cases action with
    | add fd events data failure =>
        obtain rfl := Option.some.inj hstep
        exact hinv.addRaw haccepted
    | addRaw fd nativeEvents data failure =>
        obtain rfl := Option.some.inj hstep
        exact hinv.addRaw haccepted
    | remove fd failure =>
        obtain rfl := Option.some.inj hstep
        exact hinv.remove haccepted
    | closed fd =>
        obtain rfl := Option.some.inj hstep
        exact hinv
  · intro client action next hinv hstep hkept
    cases action with
    | add fd events data failure =>
        obtain rfl := Option.some.inj hstep
        exact hinv.addRaw_accepted hkept
    | addRaw fd nativeEvents data failure =>
        obtain rfl := Option.some.inj hstep
        exact hinv.addRaw_accepted hkept
    | remove fd failure =>
        obtain rfl := Option.some.inj hstep
        exact hinv.remove_accepted hkept
    | closed fd => trivial

/-- Removing twice, and removing what was never added, also when the kernel refuses that. -/
theorem kept_of_removing_twice :
    ∃ impl : EPollSelectorImpl Nat, EPollSelectorImpl.create 4 none = .ok impl ∧
      Always (step .doubling) Kept ⟨impl, []⟩
        [.add 3 Selector.Read 30 none, .addRaw 4 EPOLLIN 40 none, .remove 3 none, .remove 3 none,
          .closed 4, .remove 4 none, .remove 9 (some EBADF)] := by
  obtain ⟨impl, himpl⟩ : ∃ impl : EPollSelectorImpl Nat,
      EPollSelectorImpl.create 4 none = .ok impl := ⟨_, rfl⟩
  refine ⟨impl, himpl, (kept_iff_accepted himpl _).mpr ?_⟩
  cases himpl
  decide

/-- A descriptor that is registered already is refused, and gets a second entry. -/
theorem not_kept_of_adding_twice :
    ∃ impl : EPollSelectorImpl Nat, EPollSelectorImpl.create 4 none = .ok impl ∧
      ¬ Always (step .doubling) Kept ⟨impl, []⟩
        [.add 3 Selector.Read 30 none, .add 3 Selector.Read 31 none] := by
  refine ⟨_, rfl, fun halways => ?_⟩
  have hlast := halways.of_run rfl
  exact absurd hlast.length_eq (by decide)

end Cadence.EpollBookkeeping
