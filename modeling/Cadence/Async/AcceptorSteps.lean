import Cadence.Async.Acceptor

/-!
# The native steps of opening an acceptor

The two `open` as lists of steps in the order of the source, run against a socket that answers a step
by whether it has been opened: one that has not been opened refuses everything else with a bad
descriptor. A run also lists the steps it applies, each with the state of the socket it is applied to.
-/

namespace Cadence

inductive NativeStep where
  | open
  | setOption
  | bind
  | listen
  deriving DecidableEq

namespace NativeOutcomes

/-- What a step sets when it is applied to the opened socket. -/
def ec (outcomes : NativeOutcomes) : NativeStep → Option Errno
  | .open => outcomes.openEc
  | .setOption => outcomes.setOptionEc
  | .bind => outcomes.bindEc
  | .listen => outcomes.listenEc

def AllSucceed (outcomes : NativeOutcomes) : Prop :=
  ∀ step, outcomes.ec step = none

end NativeOutcomes

structure SetupCall where
  step : NativeStep
  socketOpen : Bool
  deriving DecidableEq

structure SetupRun (Endpoint : Type) where
  result : Except Error Unit
  acceptor : NativeAcceptor Endpoint
  calls : List SetupCall

/-- What `open` returns and leaves. -/
def SetupRun.opened {Endpoint : Type} (run : SetupRun Endpoint) :
    Except Error Unit × NativeAcceptor Endpoint :=
  (run.result, run.acceptor)

namespace NativeAcceptor

variable {Endpoint : Type} {native : NativeAcceptor Endpoint} {outcomes : NativeOutcomes}
  {e : Endpoint}

/-- What a step sets on a socket as it is. -/
def answer (native : NativeAcceptor Endpoint) (outcomes : NativeOutcomes) (step : NativeStep) :
    Option Errno :=
  if step = .open ∨ native.isOpen = true then outcomes.ec step else some EBADF

def apply (native : NativeAcceptor Endpoint) (e : Endpoint) : NativeStep → NativeAcceptor Endpoint
  | .open => { native with isOpen := true }
  | .setOption => native
  | .bind => { native with bound := some e }
  | .listen => { native with listening := true }

/-- The steps in turn, up to the first that sets an error. The step `open` is guarded by
`!is_open()`. -/
def setup (outcomes : NativeOutcomes) (e : Endpoint) :
    NativeAcceptor Endpoint → List (NativeStep × String) → SetupRun Endpoint
  | native, [] => ⟨.ok (), native, []⟩
  | native, (step, tag) :: steps =>
      if step = .open ∧ native.isOpen = true then setup outcomes e native steps
      else
        match native.answer outcomes step with
        | some ec => ⟨.error (fromAsioError ec tag), native, [⟨step, native.isOpen⟩]⟩
        | none =>
            let rest := setup outcomes e (native.apply e step) steps
            { rest with calls := ⟨step, native.isOpen⟩ :: rest.calls }

theorem answer_of_isOpen (hopen : native.isOpen = true) (step : NativeStep) :
    native.answer outcomes step = outcomes.ec step :=
  if_pos (Or.inr hopen)

theorem answer_of_not_isOpen (hclosed : native.isOpen = false) {step : NativeStep}
    (hstep : step ≠ .open) : native.answer outcomes step = some EBADF := by
  apply if_neg
  rintro (hopens | hopen)
  · exact hstep hopens
  · rw [hclosed] at hopen
    cases hopen

theorem isOpen_apply (hopen : native.isOpen = true) (step : NativeStep) :
    (native.apply e step).isOpen = true := by
  cases step with
  | «open» => rfl
  | setOption => exact hopen
  | bind => exact hopen
  | listen => exact hopen

/-- On an opened socket a setup succeeds exactly when each of its steps does. -/
theorem setup_of_isOpen (hopen : native.isOpen = true) (steps : List (NativeStep × String)) :
    ((native.setup outcomes e steps).result = .ok () ↔
        ∀ step ∈ steps, step.1 ≠ .open → outcomes.ec step.1 = none) ∧
      ∀ call ∈ (native.setup outcomes e steps).calls, call.socketOpen = true := by
  induction steps generalizing native with
  | nil => exact ⟨⟨fun _ step hstep => absurd hstep List.not_mem_nil, fun _ => rfl⟩,
      fun call hcall => absurd hcall List.not_mem_nil⟩
  | cons first steps ih =>
      obtain ⟨step, tag⟩ := first
      rw [List.forall_mem_cons, setup]
      split
      next hguard =>
        obtain ⟨hresult, hcalls⟩ := ih hopen
        rw [hresult]
        exact ⟨⟨fun hsteps => ⟨fun hstep => absurd hguard.1 hstep, hsteps⟩, And.right⟩, hcalls⟩
      next hguard =>
        have hstep : step ≠ .open := fun hstep => hguard ⟨hstep, hopen⟩
        rw [answer_of_isOpen hopen]
        cases hec : outcomes.ec step with
        | some ec =>
            refine ⟨⟨fun hresult => (by cases hresult), fun hsteps => ?_⟩, fun call hcall => ?_⟩
            · cases hsteps.1 hstep
            · rw [List.mem_singleton.mp hcall]
              exact hopen
        | none =>
            obtain ⟨hresult, hcalls⟩ := ih (isOpen_apply hopen step)
            refine ⟨⟨fun hok => ⟨fun _ => rfl, hresult.mp hok⟩, fun hsteps =>
              hresult.mpr hsteps.2⟩, fun call hcall => ?_⟩
            rcases List.mem_cons.mp hcall with hfirst | hlater
            · rw [hfirst]
              exact hopen
            · exact hcalls call hlater

/-- A setup that opens the socket first never meets a socket that is not open. -/
theorem setup_open_first (hclosed : native.isOpen = false) {tag : String}
    (steps : List (NativeStep × String)) :
    ((native.setup outcomes e ((.open, tag) :: steps)).result = .ok () ↔
        outcomes.openEc = none ∧
          ∀ step ∈ steps, step.1 ≠ .open → outcomes.ec step.1 = none) ∧
      ∀ call ∈ (native.setup outcomes e ((.open, tag) :: steps)).calls,
        call.step ≠ .open → call.socketOpen = true := by
  have hguard : ¬ (NativeStep.open = .open ∧ native.isOpen = true) := fun h => by
    rw [hclosed] at h
    cases h.2
  have hanswer : native.answer outcomes .open = outcomes.openEc := if_pos (Or.inl rfl)
  rw [setup, if_neg hguard, hanswer]
  cases hec : outcomes.openEc with
  | some ec =>
      refine ⟨⟨fun hresult => (by cases hresult), fun hsteps => (by cases hsteps.1)⟩,
        fun call hcall hstep => ?_⟩
      rw [List.mem_singleton.mp hcall] at hstep
      exact absurd rfl hstep
  | none =>
      have hopened : (native.apply e .open).isOpen = true := rfl
      obtain ⟨hresult, hcalls⟩ := setup_of_isOpen hopened steps
      refine ⟨⟨fun hok => ⟨rfl, hresult.mp hok⟩, fun hsteps => hresult.mpr hsteps.2⟩,
        fun call hcall hstep => ?_⟩
      rcases List.mem_cons.mp hcall with hfirst | hlater
      · rw [hfirst] at hstep
        exact absurd rfl hstep
      · exact hcalls call hlater

/-- Another step made before it ends the setup with a bad descriptor. -/
theorem setup_not_open_first (hclosed : native.isOpen = false) {step : NativeStep}
    (hstep : step ≠ .open) {tag : String} (steps : List (NativeStep × String)) :
    native.setup outcomes e ((step, tag) :: steps) =
      ⟨.error (fromAsioError EBADF tag), native, [⟨step, false⟩]⟩ := by
  rw [setup, if_neg fun hguard => hstep hguard.1, answer_of_not_isOpen hclosed hstep, hclosed]

/-! ### The steps of the source -/

theorem attempt_congr {ec : Option Errno} {tag : String}
    {update : NativeAcceptor Endpoint → NativeAcceptor Endpoint}
    {rest rest' : NativeAcceptor Endpoint → Except Error Unit × NativeAcceptor Endpoint}
    (hrest : rest (update native) = rest' (update native)) :
    native.attempt ec tag update rest = native.attempt ec tag update rest' := by
  cases ec with
  | some ec => rfl
  | none => exact hrest

/-- What follows `open` finds the socket open. -/
theorem attemptOpen_congr {ec : Option Errno}
    {rest rest' : NativeAcceptor Endpoint → Except Error Unit × NativeAcceptor Endpoint}
    (hrest : ∀ opened, opened.isOpen = true → rest opened = rest' opened) :
    native.attemptOpen ec rest = native.attemptOpen ec rest' := by
  unfold attemptOpen
  split
  next hopen => exact hrest native hopen
  next => exact attempt_congr (hrest _ rfl)

theorem opened_setup_cons {step : NativeStep} (hstep : step ≠ .open) {tag : String}
    (steps : List (NativeStep × String)) :
    (native.setup outcomes e ((step, tag) :: steps)).opened =
      native.attempt (native.answer outcomes step) tag (fun native => native.apply e step)
        fun native => (native.setup outcomes e steps).opened := by
  rw [setup, if_neg fun hguard => hstep hguard.1]
  cases native.answer outcomes step with
  | some ec => rfl
  | none => rfl

theorem opened_setup_open (steps : List (NativeStep × String)) :
    (native.setup outcomes e ((.open, "open") :: steps)).opened =
      native.attemptOpen outcomes.openEc fun native =>
        (native.setup outcomes e steps).opened := by
  rw [setup, attemptOpen]
  by_cases hopen : native.isOpen = true
  · rw [if_pos ⟨rfl, hopen⟩, if_pos hopen]
  · have hanswer : native.answer outcomes .open = outcomes.openEc := if_pos (Or.inl rfl)
    rw [if_neg fun hguard => hopen hguard.2, if_neg hopen, hanswer]
    cases outcomes.openEc with
    | some ec => rfl
    | none => rfl

/-- The steps that both implementations end with. -/
theorem opened_setup_bind (hopen : native.isOpen = true) :
    (native.setup outcomes e [(.bind, "open:bind"), (.listen, "open:listen")]).opened =
      native.attempt outcomes.bindEc "open:bind"
        (fun acceptor => { acceptor with bound := some e }) fun acceptor =>
      acceptor.attempt outcomes.listenEc "open:listen"
        (fun acceptor => { acceptor with listening := true }) fun acceptor =>
      (.ok (), acceptor) := by
  rw [opened_setup_cons (by decide), answer_of_isOpen hopen]
  apply attempt_congr
  rw [opened_setup_cons (by decide), answer_of_isOpen (isOpen_apply hopen .bind)]
  rfl

end NativeAcceptor

def TcpAcceptor.steps : List (NativeStep × String) :=
  [(.open, "open"), (.setOption, "open: set_option"), (.bind, "open:bind"),
    (.listen, "open:listen")]

def StremDomainAcceptor.steps : List (NativeStep × String) :=
  [(.setOption, "open:set_option"), (.open, "open"), (.bind, "open:bind"),
    (.listen, "open:listen")]

structure AcceptorImpl.SetupRun where
  result : Except Error Unit
  impl : AcceptorImpl
  calls : List SetupCall

def SetupRun.of {Endpoint : Type} (run : SetupRun Endpoint)
    (impl : NativeAcceptor Endpoint → AcceptorImpl) : AcceptorImpl.SetupRun :=
  ⟨run.result, impl run.acceptor, run.calls⟩

namespace AcceptorImpl

variable {endpoint : NetworkEndpoint} {outcomes : NativeOutcomes}

def Converts (impl : AcceptorImpl) (endpoint : NetworkEndpoint) : Prop :=
  match impl with
  | .tcp _ => ∃ e, toAsioIPEndpoint endpoint = .ok e
  | .unix _ => ∃ e, toAsioLocalEndpoint sunPathSize endpoint = some (.ok e)

def setup (impl : AcceptorImpl) (endpoint : NetworkEndpoint) (outcomes : NativeOutcomes) :
    Option SetupRun :=
  match impl with
  | .tcp acceptor =>
      match toAsioIPEndpoint endpoint with
      | .error ec => some ⟨.error (fromAsioError ec "open: to ip endpoint"), .tcp acceptor, []⟩
      | .ok e => some ((acceptor.setup outcomes e TcpAcceptor.steps).of .tcp)
  | .unix acceptor =>
      (toAsioLocalEndpoint sunPathSize endpoint).map fun
        | .error ec => ⟨.error (fromAsioError ec "open: to endpoint"), .unix acceptor, []⟩
        | .ok e => (acceptor.setup outcomes e StremDomainAcceptor.steps).of .unix

/-- The error codes that `open` meets. Only the `set_option` of a local acceptor comes before the
socket is opened. -/
def met (impl : AcceptorImpl) (outcomes : NativeOutcomes) : NativeOutcomes :=
  match impl with
  | .tcp _ => outcomes
  | .unix acceptor => { outcomes with setOptionEc := acceptor.answer outcomes .setOption }

theorem tcp_open_eq_setup (acceptor : NativeAcceptor AsioEndpoint) {e : AsioEndpoint}
    (hconvert : toAsioIPEndpoint endpoint = .ok e) :
    TcpAcceptor.open acceptor endpoint outcomes =
      (acceptor.setup outcomes e TcpAcceptor.steps).opened := by
  rw [TcpAcceptor.open, hconvert, TcpAcceptor.steps, NativeAcceptor.opened_setup_open]
  apply NativeAcceptor.attemptOpen_congr
  intro opened hopen
  rw [NativeAcceptor.opened_setup_cons (by decide), NativeAcceptor.answer_of_isOpen hopen]
  exact NativeAcceptor.attempt_congr (NativeAcceptor.opened_setup_bind hopen).symm

theorem unix_open_eq_setup (acceptor : NativeAcceptor AsioLocalEndpoint) {e : AsioLocalEndpoint}
    (hconvert : toAsioLocalEndpoint sunPathSize endpoint = some (.ok e)) :
    StremDomainAcceptor.open acceptor endpoint ((AcceptorImpl.unix acceptor).met outcomes) =
      some (acceptor.setup outcomes e StremDomainAcceptor.steps).opened := by
  rw [StremDomainAcceptor.open, hconvert, StremDomainAcceptor.steps,
    NativeAcceptor.opened_setup_cons (by decide)]
  apply congrArg some
  apply NativeAcceptor.attempt_congr
  rw [NativeAcceptor.opened_setup_open]
  apply NativeAcceptor.attemptOpen_congr
  intro opened hopen
  exact (NativeAcceptor.opened_setup_bind hopen).symm

/-- The code's `open` is the run of its steps. -/
theorem open_eq_setup (impl : AcceptorImpl) :
    impl.open endpoint (impl.met outcomes) =
      (impl.setup endpoint outcomes).map fun run => (run.result, run.impl) := by
  cases impl with
  | tcp acceptor =>
      cases hconvert : toAsioIPEndpoint endpoint with
      | error ec => simp [AcceptorImpl.open, setup, TcpAcceptor.open, hconvert]
      | ok e =>
          simp only [AcceptorImpl.open, setup, met, hconvert, tcp_open_eq_setup acceptor hconvert]
          rfl
  | unix acceptor =>
      cases hconvert : toAsioLocalEndpoint sunPathSize endpoint with
      | none => simp [AcceptorImpl.open, setup, StremDomainAcceptor.open, hconvert]
      | some conversion =>
          cases conversion with
          | error ec => simp [AcceptorImpl.open, setup, StremDomainAcceptor.open, hconvert]
          | ok e =>
              rw [AcceptorImpl.open, unix_open_eq_setup acceptor hconvert, setup, hconvert]
              rfl

end AcceptorImpl

end Cadence
