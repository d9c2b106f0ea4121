import Cadence.Async.DatagramSocket
import Cadence.Foundation.StepSystem

/-!
# Which failures of a datagram socket are reported

On an open socket every operation of `UdpSocket` tells its caller what the transport told it. On a
closed one `asyncWriteTo` has the result of the implicit open the wrong way round, and
`DatagramDomainSocket` never says that a connect failed.
-/

namespace Cadence.DatagramErrors

open StepSystem ByteCursor UdpSocket

variable {Reader : Type} [ByteCursor Reader]

structure Sockets where
  udp : NativeSocket
  domain : NativeSocket

inductive Action (Reader : Type) where
  | openSocket (failure : Option Errno)
  | close
  | connect (openFailure failure : Option Errno)
  | asyncWriteTo (addr : IPEndpoint) (src : Reader) (bytesToWrite : Nat)
      (openFailure : Option Errno) (outcome : Except Errno Nat)
  | connectDomain (endpoint : UnixEndpoint) (openFailure failure : Option Errno)
  | closeDomain

/-- A call that raises leaves the socket as it was. -/
def step (sockets : Sockets) : Action Reader → Option Sockets
  | .openSocket failure => some { sockets with udp := (openSocket sockets.udp failure).2 }
  | .close => some { sockets with udp := close }
  | .connect openFailure failure =>
      some { sockets with udp := (connect sockets.udp openFailure failure).2 }
  | .asyncWriteTo addr src bytesToWrite openFailure outcome =>
      match asyncWriteTo sockets.udp addr src bytesToWrite openFailure outcome with
      | .ok written => some { sockets with udp := written.socket }
      | .error _ => some sockets
  | .connectDomain endpoint openFailure failure =>
      (DatagramDomainSocket.connect sockets.domain endpoint openFailure failure).map
        fun (_, domain) => { sockets with domain := domain }
  | .closeDomain => some { sockets with domain := close }

/-- The future fails when the implicit open or the send failed, the send is issued when the socket is
or has just been opened, and the reader moves with success alone. -/
structure Reported (socket : NativeSocket) (src : Reader) (openFailure : Option Errno)
    (outcome : Except Errno Nat) (written : WriteTo Reader) : Prop where
  fails_iff : written.future ≠ .ok () ↔
    (socket.is_open = false ∧ openFailure ≠ none) ∨
      (written.send.isSome = true ∧ ∃ ec, written.socket.sendTo outcome = .error ec)
  issued_iff : written.send.isSome = true ↔ socket.is_open = true ∨ openFailure = none
  advances : ∀ length, written.future = .ok () → outcome = .ok length →
    written.src = advanced src length
  stays : written.future ≠ .ok () → written.src = src

def Faithful (sockets : Sockets) : Action Reader → Prop
  | .openSocket failure =>
      (openSocket sockets.udp failure).1 ≠ .ok () ↔ (sockets.udp.openSocket failure).1 ≠ none
  | .connect openFailure failure =>
      (connect sockets.udp openFailure failure).1 ≠ .ok () ↔
        (sockets.udp.connect openFailure failure).1 ≠ none
  | .asyncWriteTo addr src bytesToWrite openFailure outcome =>
      ∀ written, asyncWriteTo sockets.udp addr src bytesToWrite openFailure outcome = .ok written →
        Reported sockets.udp src openFailure outcome written
  | .connectDomain endpoint openFailure failure =>
      ∀ result domain, DatagramDomainSocket.connect sockets.domain endpoint openFailure failure =
          some (result, domain) →
        (result ≠ .ok () ↔ (sockets.domain.connect openFailure failure).1 ≠ none)
  | .close | .closeDomain => True

/-- The socket written to is open (or the call raises, for want of bytes, after the implicit open
failed), and the connect of a domain socket succeeds. -/
def Ready (sockets : Sockets) : Action Reader → Prop
  | .asyncWriteTo _ src bytesToWrite openFailure _ =>
      sockets.udp.is_open = true ∨
        (openFailure ≠ none ∧ ∃ raised, asioBuffer src bytesToWrite = .error raised)
  | .connectDomain endpoint openFailure failure =>
      DatagramDomainSocket.toAsioLocalDatagramEndpoint sunPathSize endpoint = none ∨
        (sockets.domain.connect openFailure failure).1 = none
  | _ => True

theorem fromErrorCode_ne_ok_iff {ec : Option Errno} {tag : String} :
    fromErrorCode ec tag ≠ .ok () ↔ ec ≠ none := by
  cases ec <;> simp [fromErrorCode]

section WriteTo

variable {socket : NativeSocket} {addr : IPEndpoint} {src : Reader} {bytesToWrite : Nat}
  {openFailure : Option Errno} {outcome : Except Errno Nat} {written : WriteTo Reader}

theorem reported_of_open (hopen : socket.is_open = true)
    (hwritten : asyncWriteTo socket addr src bytesToWrite openFailure outcome = .ok written) :
    Reported socket src openFailure outcome written := by
  simp only [asyncWriteTo, hopen, if_true, Bool.true_eq_false, false_and, if_false] at hwritten
  cases hview : asioBuffer src bytesToWrite with
  | error raised =>
      rw [hview] at hwritten
      cases hwritten
  | ok view =>
      rw [hview] at hwritten
      obtain rfl := Except.ok.inj hwritten
      cases outcome with
      | error ec => constructor <;> simp [NativeSocket.sendTo, hopen]
      | ok length => constructor <;> simp [NativeSocket.sendTo, hopen]

theorem asyncWriteTo_of_opened (hclosed : socket.is_open = false) :
    asyncWriteTo socket addr src bytesToWrite none outcome =
      .ok ⟨⟨true⟩, none, .error (fromAsioError 0 "asyncWriteTo:open"), src⟩ := by
  simp [asyncWriteTo, hclosed, NativeSocket.openSocket]

theorem asyncWriteTo_of_refused (addr : IPEndpoint) (src : Reader) (bytesToWrite : Nat)
    (outcome : Except Errno Nat) (hclosed : socket.is_open = false) (ec : Errno) :
    asyncWriteTo socket addr src bytesToWrite (some ec) outcome =
      (asioBuffer src bytesToWrite).map fun view =>
        ⟨socket, some (toAsioEndpoint addr, view),
          .error (fromAsioError EBADF "asyncWriteTo:async_send_to"), src⟩ := by
  simp [asyncWriteTo, hclosed, NativeSocket.openSocket, NativeSocket.sendTo]

theorem reported_iff (socket : NativeSocket) (addr : IPEndpoint) (src : Reader)
    (bytesToWrite : Nat) (openFailure : Option Errno) (outcome : Except Errno Nat) :
    (∀ written, asyncWriteTo socket addr src bytesToWrite openFailure outcome = .ok written →
        Reported socket src openFailure outcome written) ↔
      socket.is_open = true ∨
        (openFailure ≠ none ∧ ∃ raised, asioBuffer src bytesToWrite = .error raised) := by
  by_cases hopen : socket.is_open = true
  · exact iff_of_true (fun _ hwritten => reported_of_open hopen hwritten) (.inl hopen)
  have hclosed : socket.is_open = false := Bool.eq_false_iff.mpr hopen
  rw [or_iff_right hopen]
  cases openFailure with
  | none =>
      refine iff_of_false (fun hreported => ?_) (by simp)
      -- the future fails and nothing else did
      have hfails := (hreported _ (asyncWriteTo_of_opened hclosed)).fails_iff.mp (by simp)
      simp at hfails
  | some ec =>
      cases hview : asioBuffer src bytesToWrite with
      | error raised =>
          refine iff_of_true (fun written hwritten => ?_) ⟨by simp, raised, rfl⟩
          rw [asyncWriteTo_of_refused addr src bytesToWrite outcome hclosed, hview] at hwritten
          cases hwritten
      | ok view =>
          refine iff_of_false (fun hreported => ?_) (by simp)
          -- the send is issued on a socket that could not be opened
          have hwritten := asyncWriteTo_of_refused addr src bytesToWrite outcome hclosed ec
          rw [hview] at hwritten
          have hissued := (hreported _ hwritten).issued_iff.mp rfl
          simp [hclosed] at hissued

end WriteTo

theorem connectDomain_iff (socket : NativeSocket) (endpoint : UnixEndpoint)
    (openFailure failure : Option Errno) :
    (∀ result domain, DatagramDomainSocket.connect socket endpoint openFailure failure =
        some (result, domain) →
      (result ≠ .ok () ↔ (socket.connect openFailure failure).1 ≠ none)) ↔
    DatagramDomainSocket.toAsioLocalDatagramEndpoint sunPathSize endpoint = none ∨
      (socket.connect openFailure failure).1 = none := by
  unfold DatagramDomainSocket.connect DatagramDomainSocket.connectImpl
  cases DatagramDomainSocket.toAsioLocalDatagramEndpoint sunPathSize endpoint with
  | none => simp
  | some path => simp

theorem faithful_iff (sockets : Sockets) (action : Action Reader) :
    Faithful sockets action ↔ Ready sockets action := by
  cases action with
  | openSocket failure => exact iff_of_true fromErrorCode_ne_ok_iff trivial
  | close => exact Iff.rfl
  | connect openFailure failure => exact iff_of_true fromErrorCode_ne_ok_iff trivial
  | asyncWriteTo addr src bytesToWrite openFailure outcome =>
      exact reported_iff sockets.udp addr src bytesToWrite openFailure outcome
  | connectDomain endpoint openFailure failure =>
      exact connectDomain_iff sockets.domain endpoint openFailure failure
  | closeDomain => exact Iff.rfl

/-- **Datagram errors.** In a run from any state, every call reports exactly what failed if and only
if each `asyncWriteTo` finds the socket open and each connect of a domain socket succeeds. -/
theorem faithful_iff_ready (sockets : Sockets) (actions : List (Action Reader)) :
    Guarded step Faithful sockets actions ↔ Guarded step Ready sockets actions :=
  eachStep_congr (fun _ => True) trivial (fun _ _ _ _ _ => trivial)
    fun sockets action _ _ _ => faithful_iff sockets action

/-- After a close, the implicit open succeeds and the future fails with the error "no error". -/
theorem not_faithful_after_close :
    ¬ Guarded step Faithful ⟨⟨true⟩, ⟨false⟩⟩
      ([.close, .asyncWriteTo ⟨53, .any⟩ (⟨[1, 2, 3], 0, by decide⟩ : ArrayBuffer) 3 none (.ok 3)] :
        List (Action ArrayBuffer)) := by
  intro hfaithful
  have hreported := ((hfaithful _ rfl).2 _ rfl).1 _ rfl
  have hfails := hreported.fails_iff.mp (by decide)
  simp at hfails

end Cadence.DatagramErrors
