import Cadence.Async.AsioHelper

/-!
# The acceptor

`Acceptor` creates its implementation when it is opened, one for each family of endpoints. The two
implementations make the same native steps in different orders.
-/

namespace Cadence

/-- A native acceptor, with the number of asynchronous accepts started on it and not completed. -/
structure NativeAcceptor (Endpoint : Type) where
  isOpen : Bool
  bound : Option Endpoint
  listening : Bool
  accepting : Nat
  deriving DecidableEq

/-- The error code that each native step of an `open` sets, should the step be made. -/
structure NativeOutcomes where
  openEc : Option Errno
  setOptionEc : Option Errno
  bindEc : Option Errno
  listenEc : Option Errno

namespace NativeAcceptor

variable {Endpoint : Type}

def create : NativeAcceptor Endpoint := ⟨false, none, false, 0⟩

/-- A native step that sets `ec`, and the rest of the function when it sets none. -/
def attempt (native : NativeAcceptor Endpoint) (ec : Option Errno) (tag : String)
    (update : NativeAcceptor Endpoint → NativeAcceptor Endpoint)
    (rest : NativeAcceptor Endpoint → Except Error Unit × NativeAcceptor Endpoint) :
    Except Error Unit × NativeAcceptor Endpoint :=
  match ec with
  | some ec => (.error (fromAsioError ec tag), native)
  | none => rest (update native)

/-- `if (!_acceptor.is_open()) _acceptor.open(e.protocol(), ec)`. -/
def attemptOpen (native : NativeAcceptor Endpoint) (ec : Option Errno)
    (rest : NativeAcceptor Endpoint → Except Error Unit × NativeAcceptor Endpoint) :
    Except Error Unit × NativeAcceptor Endpoint :=
  if native.isOpen then rest native
  else native.attempt ec "open" (fun native => { native with isOpen := true }) rest

def close (native : NativeAcceptor Endpoint) : NativeAcceptor Endpoint × Nat :=
  (create, native.accepting)

def asyncAccept (native : NativeAcceptor Endpoint) : NativeAcceptor Endpoint :=
  { native with accepting := native.accepting + 1 }

def completeAccept (native : NativeAcceptor Endpoint) : NativeAcceptor Endpoint :=
  { native with accepting := native.accepting - 1 }

end NativeAcceptor

def TcpAcceptor.open (acceptor : NativeAcceptor AsioEndpoint) (endpoint : NetworkEndpoint)
    (outcomes : NativeOutcomes) : Except Error Unit × NativeAcceptor AsioEndpoint :=
  match toAsioIPEndpoint endpoint with
  | .error ec => (.error (fromAsioError ec "open: to ip endpoint"), acceptor)
  | .ok e =>
      acceptor.attemptOpen outcomes.openEc fun acceptor =>
      acceptor.attempt outcomes.setOptionEc "open: set_option" id fun acceptor =>
      acceptor.attempt outcomes.bindEc "open:bind"
        (fun acceptor => { acceptor with bound := some e }) fun acceptor =>
      acceptor.attempt outcomes.listenEc "open:listen"
        (fun acceptor => { acceptor with listening := true }) fun acceptor =>
      (.ok (), acceptor)

/-- `StremDomainAcceptor::open`. It has no result when the name does not fit `sun_path`. -/
def StremDomainAcceptor.open (acceptor : NativeAcceptor AsioLocalEndpoint)
    (endpoint : NetworkEndpoint) (outcomes : NativeOutcomes) :
    Option (Except Error Unit × NativeAcceptor AsioLocalEndpoint) :=
  (toAsioLocalEndpoint sunPathSize endpoint).map fun
    | .error ec => (.error (fromAsioError ec "open: to endpoint"), acceptor)
    | .ok e =>
        acceptor.attempt outcomes.setOptionEc "open:set_option" id fun acceptor =>
        acceptor.attemptOpen outcomes.openEc fun acceptor =>
        acceptor.attempt outcomes.bindEc "open:bind"
          (fun acceptor => { acceptor with bound := some e }) fun acceptor =>
        acceptor.attempt outcomes.listenEc "open:listen"
          (fun acceptor => { acceptor with listening := true }) fun acceptor =>
        (.ok (), acceptor)

inductive AcceptorImpl where
  | tcp (acceptor : NativeAcceptor AsioEndpoint)
  | unix (acceptor : NativeAcceptor AsioLocalEndpoint)
  deriving DecidableEq

namespace AcceptorImpl

def create : NetworkEndpoint → AcceptorImpl
  | .unix _ => .unix .create
  | .ip _ => .tcp .create

def isOpen : AcceptorImpl → Bool
  | .tcp acceptor => acceptor.isOpen
  | .unix acceptor => acceptor.isOpen

def isBound : AcceptorImpl → Bool
  | .tcp acceptor => acceptor.bound.isSome
  | .unix acceptor => acceptor.bound.isSome

def accepting : AcceptorImpl → Nat
  | .tcp acceptor => acceptor.accepting
  | .unix acceptor => acceptor.accepting

def close : AcceptorImpl → AcceptorImpl × Nat
  | .tcp acceptor => acceptor.close.map .tcp id
  | .unix acceptor => acceptor.close.map .unix id

def asyncAccept : AcceptorImpl → AcceptorImpl
  | .tcp acceptor => .tcp acceptor.asyncAccept
  | .unix acceptor => .unix acceptor.asyncAccept

def completeAccept : AcceptorImpl → AcceptorImpl
  | .tcp acceptor => .tcp acceptor.completeAccept
  | .unix acceptor => .unix acceptor.completeAccept

end AcceptorImpl

def AcceptorImpl.open (impl : AcceptorImpl) (endpoint : NetworkEndpoint) (outcomes : NativeOutcomes) :
    Option (Except Error Unit × AcceptorImpl) :=
  match impl with
  | .tcp acceptor => some ((TcpAcceptor.open acceptor endpoint outcomes).map id .tcp)
  | .unix acceptor =>
      (StremDomainAcceptor.open acceptor endpoint outcomes).map fun result => result.map id .unix

/-- Calls other than `open` dereference the implementation pointer: without an implementation they
have no result. -/
structure Acceptor where
  pimpl : Option AcceptorImpl
  deriving DecidableEq

namespace Acceptor

def create : Acceptor := ⟨none⟩

def isOpen (acceptor : Acceptor) : Option Bool :=
  acceptor.pimpl.map AcceptorImpl.isOpen

def isBound (acceptor : Acceptor) : Option Bool :=
  acceptor.pimpl.map AcceptorImpl.isBound

def close (acceptor : Acceptor) : Option (Acceptor × Nat) :=
  acceptor.pimpl.map fun impl => impl.close.map (fun impl => ⟨some impl⟩) id

def asyncAccept (acceptor : Acceptor) : Option Acceptor :=
  acceptor.pimpl.map fun impl => ⟨some impl.asyncAccept⟩

theorem isSome_of_isOpen {acceptor : Acceptor} {value : Bool}
    (hopen : acceptor.isOpen = some value) : acceptor.pimpl.isSome = true := by
  obtain ⟨impl, himpl, _⟩ := Option.map_eq_some_iff.mp hopen
  simp [himpl]

end Acceptor

def Acceptor.open (acceptor : Acceptor) (endpoint : NetworkEndpoint) (outcomes : NativeOutcomes) :
    Option (Except Error Unit × Acceptor) :=
  if acceptor.pimpl.isSome then
    some (.error (makeSystemError EISCONN "Acceptor::open"), acceptor)
  else
    ((AcceptorImpl.create endpoint).open endpoint outcomes).map fun result =>
      result.map id fun impl => ⟨some impl⟩

/-! ### Opening -/

/-- The native socket is opened, and a later native step fails. -/
def FailsHalfway (outcomes : NativeOutcomes) : NetworkEndpoint → Prop
  | .ip _ => outcomes.openEc = none ∧
      ¬ (outcomes.setOptionEc = none ∧ outcomes.bindEc = none ∧ outcomes.listenEc = none)
  | .unix _ => outcomes.setOptionEc = none ∧ outcomes.openEc = none ∧
      ¬ (outcomes.bindEc = none ∧ outcomes.listenEc = none)

instance (outcomes : NativeOutcomes) (endpoint : NetworkEndpoint) :
    Decidable (FailsHalfway outcomes endpoint) := by
  cases endpoint <;> unfold FailsHalfway <;> infer_instance

/-- What a first `open` can come to: the acceptor is open, or an error is returned, and then the
native socket is left open exactly when a step failed halfway. -/
structure NativeAcceptor.Attempted {Endpoint : Type} (halfway : Prop)
    (attempted : Except Error Unit × NativeAcceptor Endpoint) : Prop where
  accepting : attempted.2.accepting = 0
  bound : attempted.2.bound.isSome = true → attempted.2.isOpen = true
  ok : ∀ value, attempted.1 = .ok value → attempted.2.isOpen = true
  error : ∀ e, attempted.1 = .error e →
    (∃ ec tag, e = fromAsioError ec tag) ∧ (attempted.2.isOpen = true ↔ halfway)
  halfway : halfway → ∃ e, attempted.1 = .error e

namespace NativeAcceptor

variable {Endpoint : Type} {native : NativeAcceptor Endpoint} {halfway : Prop}

theorem Attempted.failed {ec : Errno} {tag : String} (haccepting : native.accepting = 0)
    (hbound : native.bound.isSome = true → native.isOpen = true)
    (hhalfway : native.isOpen = true ↔ halfway) :
    Attempted halfway (.error (fromAsioError ec tag), native) where
  accepting := haccepting
  bound := hbound
  ok value hok := by cases hok
  error e herror := by
    cases herror
    exact ⟨⟨ec, tag, rfl⟩, hhalfway⟩
  halfway _ := ⟨_, rfl⟩

theorem Attempted.succeeded (haccepting : native.accepting = 0) (hopen : native.isOpen = true)
    (hwhole : ¬ halfway) : Attempted halfway (.ok (), native) where
  accepting := haccepting
  bound _ := hopen
  ok _ _ := hopen
  error e herror := by cases herror
  halfway hhalfway := absurd hhalfway hwhole

theorem Attempted.attempt {ec : Option Errno} {tag : String}
    {update : NativeAcceptor Endpoint → NativeAcceptor Endpoint}
    {rest : NativeAcceptor Endpoint → Except Error Unit × NativeAcceptor Endpoint}
    (hfailed : ∀ errno, ec = some errno →
      Attempted halfway (.error (fromAsioError errno tag), native))
    (hrest : ec = none → Attempted halfway (rest (update native))) :
    Attempted halfway (native.attempt ec tag update rest) := by
  cases ec with
  | some errno => exact hfailed errno rfl
  | none => exact hrest rfl

theorem Attempted.attemptOpen {ec : Option Errno}
    {rest : NativeAcceptor Endpoint → Except Error Unit × NativeAcceptor Endpoint}
    (hclosed : native.isOpen = false)
    (hfailed : ∀ errno, ec = some errno →
      Attempted halfway (.error (fromAsioError errno "open"), native))
    (hrest : ec = none → Attempted halfway (rest { native with isOpen := true })) :
    Attempted halfway (native.attemptOpen ec rest) := by
  rw [NativeAcceptor.attemptOpen, if_neg (Bool.not_eq_true _ ▸ hclosed)]
  exact .attempt hfailed hrest

/-- The steps that both implementations end with, on an open socket. -/
theorem Attempted.bind {e : Endpoint} {bindEc listenEc : Option Errno}
    (haccepting : native.accepting = 0) (hopen : native.isOpen = true)
    (hhalfway : halfway ↔ ¬ (bindEc = none ∧ listenEc = none)) :
    Attempted halfway
      (native.attempt bindEc "open:bind" (fun acceptor => { acceptor with bound := some e })
        fun acceptor =>
      acceptor.attempt listenEc "open:listen"
        (fun acceptor => { acceptor with listening := true }) fun acceptor =>
      (.ok (), acceptor)) := by
  apply Attempted.attempt
  · intro errno hbind
    refine .failed haccepting (fun _ => hopen) (iff_of_true hopen (hhalfway.mpr ?_))
    exact fun h => Option.some_ne_none errno (hbind.symm.trans h.1)
  · intro hbind
    apply Attempted.attempt
    · intro errno hlisten
      refine .failed haccepting (fun _ => hopen) (iff_of_true hopen (hhalfway.mpr ?_))
      exact fun h => Option.some_ne_none errno (hlisten.symm.trans h.2)
    · intro hlisten
      exact .succeeded haccepting hopen fun h => hhalfway.mp h ⟨hbind, hlisten⟩

end NativeAcceptor

theorem TcpAcceptor.open_create (endpoint : IPEndpoint) (outcomes : NativeOutcomes) :
    NativeAcceptor.Attempted (FailsHalfway outcomes (.ip endpoint))
      (TcpAcceptor.open .create (.ip endpoint) outcomes) := by
  rw [TcpAcceptor.open, toAsioIPEndpoint]
  apply NativeAcceptor.Attempted.attemptOpen rfl
  · intro errno hopen
    refine .failed rfl (fun hbound => by cases hbound) (iff_of_false Bool.false_ne_true ?_)
    exact fun h => Option.some_ne_none errno (hopen.symm.trans h.1)
  · intro hopen
    apply NativeAcceptor.Attempted.attempt
    · intro errno hset
      refine .failed rfl (fun _ => rfl) (iff_of_true rfl ⟨hopen, ?_⟩)
      exact fun h => Option.some_ne_none errno (hset.symm.trans h.1)
    · intro hset
      apply NativeAcceptor.Attempted.bind rfl rfl
      simp [FailsHalfway, hopen, hset]

theorem StremDomainAcceptor.open_create (endpoint : UnixEndpoint) (outcomes : NativeOutcomes)
    {attempted : Except Error Unit × NativeAcceptor AsioLocalEndpoint}
    (hopen : StremDomainAcceptor.open .create (.unix endpoint) outcomes = some attempted) :
    NativeAcceptor.Attempted (FailsHalfway outcomes (.unix endpoint)) attempted := by
  obtain ⟨conversion, hconvert, rfl⟩ := Option.map_eq_some_iff.mp hopen
  obtain ⟨e, rfl⟩ := exists_ok_of_toAsioLocalEndpoint hconvert
  apply NativeAcceptor.Attempted.attempt
  · intro errno hset
    refine .failed rfl (fun hbound => by cases hbound) (iff_of_false Bool.false_ne_true ?_)
    exact fun h => Option.some_ne_none errno (hset.symm.trans h.1)
  · intro hset
    apply NativeAcceptor.Attempted.attemptOpen rfl
    · intro errno hopenEc
      refine .failed rfl (fun hbound => by cases hbound) (iff_of_false Bool.false_ne_true ?_)
      exact fun h => Option.some_ne_none errno (hopenEc.symm.trans h.2.1)
    · intro hopenEc
      apply NativeAcceptor.Attempted.bind rfl rfl
      simp [FailsHalfway, hopenEc, hset]

structure AcceptorImpl.Attempted (halfway : Prop)
    (result : Except Error Unit) (impl : AcceptorImpl) : Prop where
  accepting : impl.accepting = 0
  bound : impl.isBound = true → impl.isOpen = true
  ok : ∀ value, result = .ok value → impl.isOpen = true
  error : ∀ e, result = .error e →
    (∃ ec tag, e = fromAsioError ec tag) ∧ (impl.isOpen = true ↔ halfway)
  halfway : halfway → ∃ e, result = .error e

theorem AcceptorImpl.open_create {endpoint : NetworkEndpoint} {outcomes : NativeOutcomes}
    {result : Except Error Unit} {impl : AcceptorImpl}
    (hopen : (create endpoint).open endpoint outcomes = some (result, impl)) :
    AcceptorImpl.Attempted (FailsHalfway outcomes endpoint) result impl := by
  cases endpoint with
  | ip endpoint =>
      have h := TcpAcceptor.open_create endpoint outcomes
      obtain ⟨rfl, rfl⟩ := Prod.mk.inj (Option.some.inj hopen)
      exact ⟨h.accepting, h.bound, h.ok, h.error, h.halfway⟩
  | unix endpoint =>
      obtain ⟨attempted, hopen, hpair⟩ := Option.map_eq_some_iff.mp hopen
      have h := StremDomainAcceptor.open_create endpoint outcomes hopen
      obtain ⟨rfl, rfl⟩ := Prod.mk.inj hpair
      exact ⟨h.accepting, h.bound, h.ok, h.error, h.halfway⟩

theorem Acceptor.open_eq_some {acceptor next : Acceptor} {endpoint : NetworkEndpoint}
    {outcomes : NativeOutcomes} {result : Except Error Unit}
    (hopen : acceptor.open endpoint outcomes = some (result, next)) :
    (acceptor.pimpl.isSome = true ∧ next = acceptor ∧
      result = .error (makeSystemError EISCONN "Acceptor::open")) ∨
    (acceptor.pimpl = none ∧ ∃ impl, next = ⟨some impl⟩ ∧
      AcceptorImpl.Attempted (FailsHalfway outcomes endpoint) result impl) := by
  unfold Acceptor.open at hopen
  split at hopen
  next hsome =>
    obtain ⟨rfl, rfl⟩ := Prod.mk.inj (Option.some.inj hopen)
    exact Or.inl ⟨hsome, rfl, rfl⟩
  next hnone =>
    obtain ⟨⟨result', impl⟩, himpl, hpair⟩ := Option.map_eq_some_iff.mp hopen
    obtain ⟨rfl, rfl⟩ := Prod.mk.inj hpair
    exact Or.inr ⟨by simpa using hnone, impl, rfl, AcceptorImpl.open_create himpl⟩

end Cadence
