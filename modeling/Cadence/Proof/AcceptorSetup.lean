import Cadence.Async.AcceptorSteps

/-!
# Opening a fresh acceptor

The TCP acceptor opens its native socket before it does anything else with it. The local acceptor sets
the option `reuse_address` first, on a socket that is not open yet, so it never opens.
-/

namespace Cadence.AcceptorSetup

/-- A fresh acceptor opens exactly when the endpoint converts and each native step succeeds on the
opened socket, and no step is applied to a socket that is not open. -/
def OpensWhenStepsSucceed (endpoint : NetworkEndpoint) (outcomes : NativeOutcomes) : Prop :=
  ∃ result next run,
    (AcceptorImpl.create endpoint).open endpoint
      ((AcceptorImpl.create endpoint).met outcomes) = some (result, next) ∧
    (AcceptorImpl.create endpoint).setup endpoint outcomes = some run ∧
    (result = .ok () ↔
      (AcceptorImpl.create endpoint).Converts endpoint ∧ outcomes.AllSucceed) ∧
    ∀ call ∈ run.calls, call.step ≠ .open → call.socketOpen = true

variable {outcomes : NativeOutcomes}

theorem steps_succeed_iff :
    (outcomes.openEc = none ∧ ∀ step ∈ TcpAcceptor.steps.tail, step.1 ≠ .open →
      outcomes.ec step.1 = none) ↔ outcomes.AllSucceed := by
  constructor
  · rintro ⟨hopen, hsteps⟩ step
    cases step with
    | «open» => exact hopen
    | setOption => exact hsteps (.setOption, "open: set_option") (by decide) (by decide)
    | bind => exact hsteps (.bind, "open:bind") (by decide) (by decide)
    | listen => exact hsteps (.listen, "open:listen") (by decide) (by decide)
  · exact fun hsucceed => ⟨hsucceed .open, fun step _ _ => hsucceed step.1⟩

theorem opensWhenStepsSucceed_ip (endpoint : IPEndpoint) :
    OpensWhenStepsSucceed (.ip endpoint) outcomes := by
  have hsetup : (AcceptorImpl.create (.ip endpoint)).setup (.ip endpoint) outcomes =
      some ((NativeAcceptor.create.setup outcomes (toAsioEndpoint endpoint)
        TcpAcceptor.steps).of .tcp) := rfl
  have hopen := (AcceptorImpl.create (.ip endpoint)).open_eq_setup.trans
    (congrArg (Option.map fun run => (run.result, run.impl)) hsetup)
  have hconverts : (AcceptorImpl.create (.ip endpoint)).Converts (.ip endpoint) := ⟨_, rfl⟩
  have hclosed : (NativeAcceptor.create : NativeAcceptor AsioEndpoint).isOpen = false := rfl
  obtain ⟨hresult, hcalls⟩ := NativeAcceptor.setup_open_first hclosed TcpAcceptor.steps.tail
  refine ⟨_, _, _, hopen, hsetup, ?_, hcalls⟩
  calc
    _ ↔ _ := hresult
    _ ↔ outcomes.AllSucceed := steps_succeed_iff
    _ ↔ _ := (and_iff_right hconverts).symm

/-- What a fresh local acceptor does with an endpoint that converts. -/
theorem setup_unix {endpoint : UnixEndpoint} {run : AcceptorImpl.SetupRun}
    (hsetup : (AcceptorImpl.create (.unix endpoint)).setup (.unix endpoint) outcomes = some run) :
    run = ⟨.error (fromAsioError EBADF "open:set_option"), .unix .create,
      [⟨.setOption, false⟩]⟩ := by
  obtain ⟨conversion, hconvert, rfl⟩ := Option.map_eq_some_iff.mp hsetup
  obtain ⟨e, rfl⟩ := exists_ok_of_toAsioLocalEndpoint hconvert
  have hstep : NativeStep.setOption ≠ .open := by decide
  exact congrArg (SetupRun.of · .unix)
    (NativeAcceptor.setup_not_open_first rfl hstep StremDomainAcceptor.steps.tail)

theorem not_opensWhenStepsSucceed_unix (endpoint : UnixEndpoint) :
    ¬ OpensWhenStepsSucceed (.unix endpoint) outcomes := by
  rintro ⟨_, _, run, _, hsetup, _, hcalls⟩
  rw [setup_unix hsetup] at hcalls
  have hopened := hcalls ⟨.setOption, false⟩ (List.mem_singleton.mpr rfl) (by decide)
  cases hopened

/-- **Opening a fresh acceptor.** It opens exactly when the native steps succeed, and applies none to
a socket that is not open, if and only if the endpoint is one for TCP. -/
theorem opensWhenStepsSucceed_iff_ip (endpoint : NetworkEndpoint) (outcomes : NativeOutcomes) :
    OpensWhenStepsSucceed endpoint outcomes ↔ ∃ ipEndpoint, endpoint = .ip ipEndpoint := by
  cases endpoint with
  | ip endpoint => exact ⟨fun _ => ⟨endpoint, rfl⟩, fun _ => opensWhenStepsSucceed_ip endpoint⟩
  | unix endpoint =>
      constructor
      · exact fun hopens => absurd hopens (not_opensWhenStepsSucceed_unix endpoint)
      · rintro ⟨_, hip⟩
        cases hip

/-- The name is `/tmp/x`, and every native step would succeed on the opened socket. The `open` reports
a bad descriptor. -/
theorem not_opensWhenStepsSucceed_of_unix :
    ¬ OpensWhenStepsSucceed (.unix ⟨[0x2f, 0x74, 0x6d, 0x70, 0x2f, 0x78]⟩)
      ⟨none, none, none, none⟩ := by
  rintro ⟨result, next, run, hopen, hsetup, hresult, _⟩
  rw [AcceptorImpl.open_eq_setup, hsetup, setup_unix hsetup] at hopen
  have hok := hresult.mpr ⟨⟨⟨[0x2f, 0x74, 0x6d, 0x70, 0x2f, 0x78]⟩, by decide⟩, fun step => by
    cases step <;> rfl⟩
  rw [hok] at hopen
  cases hopen

end Cadence.AcceptorSetup
