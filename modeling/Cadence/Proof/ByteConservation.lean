import Cadence.Async.Channel
import Cadence.Foundation.StepSystem

/-!
# Bytes through a channel

The cursor of a buffer has to follow the bytes that the transport took out of it or put into it. It
does not when a composed operation fails after a partial transfer, on every path but the asynchronous
ones of the Unix stream socket: a retry then repeats those bytes.
-/

namespace Cadence.ByteConservation

open ByteCursor Segment StepSystem

/-- One direction of a channel: the buffer, the memory given to an operation that is outstanding, and
the bytes that the transport has sent from the buffer or delivered into it. -/
structure Stream (Buffer : Type) where
  buffer : Buffer
  pending : Option MemoryView
  moved : List Byte

structure Session (Reader Writer : Type) where
  outgoing : Stream Reader
  incoming : Stream Writer

/-- The completions carry the error code, and the length sent or the data delivered. -/
inductive Action where
  | asyncWrite (n : Nat)
  | asyncWriteCompletes (ec : Option Errno) (length : Nat)
  | write (n : Nat) (ec : Option Errno) (length : Nat)
  | asyncRead (n : Nat)
  | asyncReadCompletes (ec : Option Errno) (data : List Byte)
  | read (n : Nat) (ec : Option Errno) (data : List Byte)

variable {Buffer Reader Writer : Type} [ByteCursor Buffer] [ByteCursor Reader] [ByteWriter Writer]

def Stream.submit (stream : Stream Buffer) (n : Nat) : Option MemoryView :=
  if stream.pending = none ∧ n ≤ remaining stream.buffer then
    (asioBuffer stream.buffer n).toOption
  else none

def Stream.send (transport : Transport) (operation : Operation) (stream : Stream Reader)
    (view : MemoryView) (ec : Option Errno) (length : Nat) : Option (Stream Reader) :=
  if (transport.nativeCall operation).MayComplete view.length ec length then
    some {
      buffer := (transport.finish operation stream.buffer ec length).2
      pending := none
      moved := stream.moved ++
        between (bytes stream.buffer) view.offset (view.offset + length) }
  else none

def Stream.receive (transport : Transport) (operation : Operation) (stream : Stream Writer)
    (view : MemoryView) (ec : Option Errno) (data : List Byte) : Option (Stream Writer) :=
  if (transport.nativeCall operation).MayComplete view.length ec data.length then
    let buffer := ByteWriter.store stream.buffer view.offset data
    some {
      buffer := (transport.finish operation buffer ec data.length).2
      pending := none
      moved := stream.moved ++ data }
  else none

def step (transport : Transport) (session : Session Reader Writer) :
    Action → Option (Session Reader Writer)
  | .asyncWrite n => do
      let view ← session.outgoing.submit n
      return { session with outgoing.pending := some view }
  | .asyncWriteCompletes ec length => do
      let view ← session.outgoing.pending
      let outgoing ← session.outgoing.send transport .asyncWrite view ec length
      return { session with outgoing := outgoing }
  | .write n ec length => do
      let view ← session.outgoing.submit n
      let outgoing ← session.outgoing.send transport .write view ec length
      return { session with outgoing := outgoing }
  | .asyncRead n => do
      let view ← session.incoming.submit n
      return { session with incoming.pending := some view }
  | .asyncReadCompletes ec data => do
      let view ← session.incoming.pending
      let incoming ← session.incoming.receive transport .asyncRead view ec data
      return { session with incoming := incoming }
  | .read n ec data => do
      let view ← session.incoming.submit n
      let incoming ← session.incoming.receive transport .read view ec data
      return { session with incoming := incoming }

def start (source : Reader) (destination : Writer) : Session Reader Writer :=
  ⟨⟨source, none, []⟩, ⟨destination, none, []⟩⟩

def Follows (session : Session Reader Writer) (action : Action) (next : Session Reader Writer) :
    Prop :=
  match action with
  | .asyncWriteCompletes _ length | .write _ _ length =>
      position next.outgoing.buffer = position session.outgoing.buffer + length
  | .asyncReadCompletes _ data | .read _ _ data =>
      position next.incoming.buffer = position session.incoming.buffer + data.length
  | _ => True

/-- The bytes seen through the cursors are those that the transport sent and delivered. -/
structure Conserved (source : Reader) (destination : Writer)
    (session : Session Reader Writer) : Prop where
  sent : session.outgoing.moved =
    between (bytes source) (position source) (position session.outgoing.buffer)
  delivered : session.incoming.moved =
    between (bytes session.incoming.buffer) (position destination)
      (position session.incoming.buffer)

/-- No operation fails after a partial transfer, other than an asynchronous one of a Unix stream. -/
def FailsWhole (transport : Transport) : Action → Prop
  | .asyncWriteCompletes ec length => transport.Advances .asyncWrite ec ∨ length = 0
  | .write _ ec length => transport.Advances .write ec ∨ length = 0
  | .asyncReadCompletes ec data => transport.Advances .asyncRead ec ∨ data.length = 0
  | .read _ ec data => transport.Advances .read ec ∨ data.length = 0
  | _ => True

/-! ### One direction -/

def Stream.Submitted (stream : Stream Buffer) : Prop :=
  ∀ view, stream.pending = some view → view.offset = position stream.buffer ∧
    position stream.buffer + view.length ≤ (bytes stream.buffer).length

theorem Stream.submit_eq_some {stream : Stream Buffer} {n : Nat} {view : MemoryView}
    (hsubmit : stream.submit n = some view) :
    view.offset = position stream.buffer ∧
      position stream.buffer + view.length ≤ (bytes stream.buffer).length := by
  unfold submit at hsubmit
  split at hsubmit
  next hroom =>
    rw [asioBuffer_of_le hroom.2] at hsubmit
    obtain rfl := Option.some.inj hsubmit
    exact ⟨rfl, add_le_of_le_remaining hroom.2⟩
  next => cases hsubmit

/-- A completed transfer of `length` bytes from or to the memory at the cursor. -/
structure Stream.Transferred (advances : Prop) (length : Nat) (stream next : Stream Buffer) :
    Prop where
  pending : next.pending = none
  front : ∀ start stop, stop ≤ position stream.buffer →
    between (bytes next.buffer) start stop = between (bytes stream.buffer) start stop
  moved : next.moved = stream.moved ++
    between (bytes next.buffer) (position stream.buffer) (position stream.buffer + length)
  follows_iff : position next.buffer = position stream.buffer + length ↔ advances ∨ length = 0

theorem Stream.transferred_of_finished {advances : Prop} {length : Nat} {ec : Option Errno}
    {buffer : Buffer} {outcome : Outcome Buffer}
    (hfinished : Finished advances buffer ec length outcome) :
    position outcome.2 = position buffer + length ↔ advances ∨ length = 0 := by
  by_cases hadvances : advances
  · exact ⟨fun _ => Or.inl hadvances, fun _ => hfinished.moved hadvances⟩
  · rw [hfinished.stayed hadvances]
    simp [hadvances]

theorem Stream.send_eq_some {transport : Transport} {operation : Operation}
    {stream next : Stream Reader} {view : MemoryView} {ec : Option Errno} {length : Nat}
    (hview : view.offset = position stream.buffer ∧
      position stream.buffer + view.length ≤ (bytes stream.buffer).length)
    (hsend : stream.send transport operation view ec length = some next) :
    Transferred (transport.Advances operation ec) length stream next ∧
      bytes next.buffer = bytes stream.buffer := by
  unfold send at hsend
  split at hsend
  next hcomplete =>
    have hfits : position stream.buffer + length ≤ (bytes stream.buffer).length := by
      have hlength := hcomplete.length_le
      omega
    have hfinished := transport.finished_finish operation ec hfits
    obtain rfl := Option.some.inj hsend
    refine ⟨⟨rfl, fun _ _ _ => ?_, ?_, transferred_of_finished hfinished⟩, hfinished.bytes⟩
    · simp only [hfinished.bytes]
    · simp only [hfinished.bytes, hview.1]
  next => cases hsend

theorem Stream.receive_eq_some {transport : Transport} {operation : Operation}
    {stream next : Stream Writer} {view : MemoryView} {ec : Option Errno} {data : List Byte}
    (hview : view.offset = position stream.buffer ∧
      position stream.buffer + view.length ≤ (bytes stream.buffer).length)
    (hreceive : stream.receive transport operation view ec data = some next) :
    Transferred (transport.Advances operation ec) data.length stream next := by
  unfold receive at hreceive
  split at hreceive
  next hcomplete =>
    have hfits : position stream.buffer + data.length ≤ (bytes stream.buffer).length := by
      have hlength := hcomplete.length_le
      omega
    have hbytes := ByteWriter.bytes_store stream.buffer (position stream.buffer) data hfits
    have hposition := ByteWriter.position_store stream.buffer (position stream.buffer) data
    rw [hview.1] at hreceive
    have hstored : position (ByteWriter.store stream.buffer (position stream.buffer) data) +
        data.length ≤
          (bytes (ByteWriter.store stream.buffer (position stream.buffer) data)).length := by
      rw [hposition, hbytes, length_overwrite hfits]
      exact hfits
    have hfinished := transport.finished_finish operation ec hstored
    obtain rfl := Option.some.inj hreceive
    refine ⟨rfl, fun _ _ hstop => ?_, ?_, ?_⟩
    · simp only [hfinished.bytes, hbytes]
      exact between_overwrite_of_le hstop (position_le stream.buffer)
    · simp only [hfinished.bytes, hbytes, between_overwrite_self hfits]
    · have hiff := transferred_of_finished hfinished
      rw [hposition] at hiff
      exact hiff
  next => cases hreceive

structure Stream.Passed (origin : Nat) (stream : Stream Buffer) : Prop where
  origin_le : origin ≤ position stream.buffer
  moved : stream.moved = between (bytes stream.buffer) origin (position stream.buffer)

theorem Stream.Transferred.passed {advances : Prop} {length origin : Nat}
    {stream next : Stream Buffer} (htransferred : Transferred advances length stream next)
    (hpassed : stream.Passed origin) (hadvances : advances ∨ length = 0) : next.Passed origin := by
  have hposition := htransferred.follows_iff.mpr hadvances
  refine ⟨?_, ?_⟩
  · rw [hposition]
    exact Nat.le_trans hpassed.origin_le (Nat.le_add_right _ _)
  · calc
      next.moved = between (bytes stream.buffer) origin (position stream.buffer) ++
          between (bytes next.buffer) (position stream.buffer)
            (position stream.buffer + length) := by
        rw [htransferred.moved, hpassed.moved]
      _ = between (bytes next.buffer) origin (position stream.buffer) ++
          between (bytes next.buffer) (position stream.buffer)
            (position stream.buffer + length) := by
        rw [htransferred.front _ _ (Nat.le_refl _)]
      _ = between (bytes next.buffer) origin (position next.buffer) := by
        rw [between_append hpassed.origin_le (Nat.le_add_right _ _), hposition]

/-! ### Both directions -/

inductive StepCases (transport : Transport) (session : Session Reader Writer) (action : Action)
    (next : Session Reader Writer) : Prop where
  | submitted
      (outgoing : next.outgoing.buffer = session.outgoing.buffer ∧
        next.outgoing.moved = session.outgoing.moved ∧ next.outgoing.Submitted)
      (incoming : next.incoming.buffer = session.incoming.buffer ∧
        next.incoming.moved = session.incoming.moved ∧ next.incoming.Submitted)
      (follows : Follows session action next) (failsWhole : FailsWhole transport action)
  | sent (advances : Prop) (length : Nat)
      (outgoing : Stream.Transferred advances length session.outgoing next.outgoing)
      (source : bytes next.outgoing.buffer = bytes session.outgoing.buffer)
      (incoming : next.incoming = session.incoming)
      (follows_iff : Follows session action next ↔
        position next.outgoing.buffer = position session.outgoing.buffer + length)
      (failsWhole_iff : FailsWhole transport action ↔ advances ∨ length = 0)
  | delivered (advances : Prop) (length : Nat)
      (incoming : Stream.Transferred advances length session.incoming next.incoming)
      (outgoing : next.outgoing = session.outgoing)
      (follows_iff : Follows session action next ↔
        position next.incoming.buffer = position session.incoming.buffer + length)
      (failsWhole_iff : FailsWhole transport action ↔ advances ∨ length = 0)

structure WellFormed (session : Session Reader Writer) : Prop where
  outgoing : session.outgoing.Submitted
  incoming : session.incoming.Submitted

theorem step_cases {transport : Transport} {session next : Session Reader Writer} {action : Action}
    (hformed : WellFormed session) (hstep : step transport session action = some next) :
    StepCases transport session action next := by
  cases action with
  | asyncWrite n =>
      obtain ⟨view, hsubmit, hnext⟩ := Option.bind_eq_some_iff.mp hstep
      have hplace := Stream.submit_eq_some hsubmit
      obtain rfl := Option.some.inj hnext
      refine .submitted ⟨rfl, rfl, ?_⟩ ⟨rfl, rfl, hformed.incoming⟩ trivial trivial
      intro view' hview
      obtain rfl := Option.some.inj hview
      exact hplace
  | asyncWriteCompletes ec length =>
      obtain ⟨view, hview, hnext⟩ := Option.bind_eq_some_iff.mp hstep
      obtain ⟨outgoing, hsend, hnext⟩ := Option.bind_eq_some_iff.mp hnext
      obtain rfl := Option.some.inj hnext
      obtain ⟨htransferred, hsource⟩ := Stream.send_eq_some (hformed.outgoing view hview) hsend
      exact .sent _ length htransferred hsource rfl Iff.rfl Iff.rfl
  | write n ec length =>
      obtain ⟨view, hsubmit, hnext⟩ := Option.bind_eq_some_iff.mp hstep
      obtain ⟨outgoing, hsend, hnext⟩ := Option.bind_eq_some_iff.mp hnext
      obtain rfl := Option.some.inj hnext
      obtain ⟨htransferred, hsource⟩ :=
        Stream.send_eq_some (Stream.submit_eq_some hsubmit) hsend
      exact .sent _ length htransferred hsource rfl Iff.rfl Iff.rfl
  | asyncRead n =>
      obtain ⟨view, hsubmit, hnext⟩ := Option.bind_eq_some_iff.mp hstep
      have hplace := Stream.submit_eq_some hsubmit
      obtain rfl := Option.some.inj hnext
      refine .submitted ⟨rfl, rfl, hformed.outgoing⟩ ⟨rfl, rfl, ?_⟩ trivial trivial
      intro view' hview
      obtain rfl := Option.some.inj hview
      exact hplace
  | asyncReadCompletes ec data =>
      obtain ⟨view, hview, hnext⟩ := Option.bind_eq_some_iff.mp hstep
      obtain ⟨incoming, hreceive, hnext⟩ := Option.bind_eq_some_iff.mp hnext
      obtain rfl := Option.some.inj hnext
      have htransferred := Stream.receive_eq_some (hformed.incoming view hview) hreceive
      exact .delivered _ data.length htransferred rfl Iff.rfl Iff.rfl
  | read n ec data =>
      obtain ⟨view, hsubmit, hnext⟩ := Option.bind_eq_some_iff.mp hstep
      obtain ⟨incoming, hreceive, hnext⟩ := Option.bind_eq_some_iff.mp hnext
      obtain rfl := Option.some.inj hnext
      have htransferred := Stream.receive_eq_some (Stream.submit_eq_some hsubmit) hreceive
      exact .delivered _ data.length htransferred rfl Iff.rfl Iff.rfl

theorem Stream.Transferred.submitted {advances : Prop} {length : Nat} {stream next : Stream Buffer}
    (htransferred : Transferred advances length stream next) : next.Submitted := by
  intro view hview
  exact absurd (htransferred.pending.symm.trans hview) (by simp)

theorem WellFormed.of_step {transport : Transport} {session next : Session Reader Writer}
    {action : Action} (hformed : WellFormed session)
    (hstep : step transport session action = some next) : WellFormed next := by
  cases step_cases hformed hstep with
  | submitted outgoing incoming _ _ => exact ⟨outgoing.2.2, incoming.2.2⟩
  | sent _ _ outgoing _ incoming _ _ => exact ⟨outgoing.submitted, incoming ▸ hformed.incoming⟩
  | delivered _ _ incoming outgoing _ _ => exact ⟨outgoing ▸ hformed.outgoing, incoming.submitted⟩

theorem follows_iff_failsWhole {transport : Transport} {session next : Session Reader Writer}
    {action : Action} (hformed : WellFormed session)
    (hstep : step transport session action = some next) :
    Follows session action next ↔ FailsWhole transport action := by
  cases step_cases hformed hstep with
  | submitted _ _ follows failsWhole => exact iff_of_true follows failsWhole
  | sent _ _ outgoing _ _ follows_iff failsWhole_iff =>
      exact follows_iff.trans (outgoing.follows_iff.trans failsWhole_iff.symm)
  | delivered _ _ incoming _ follows_iff failsWhole_iff =>
      exact follows_iff.trans (incoming.follows_iff.trans failsWhole_iff.symm)

structure Invariant (source : Reader) (destination : Writer) (session : Session Reader Writer) :
    Prop extends WellFormed session where
  unchanged : bytes session.outgoing.buffer = bytes source
  sent : session.outgoing.Passed (position source)
  delivered : session.incoming.Passed (position destination)

theorem Stream.Passed.congr {origin : Nat} {stream next : Stream Buffer}
    (hpassed : stream.Passed origin) (hbuffer : next.buffer = stream.buffer)
    (hmoved : next.moved = stream.moved) : next.Passed origin := by
  refine ⟨?_, ?_⟩
  · rw [hbuffer]
    exact hpassed.origin_le
  · rw [hbuffer, hmoved]
    exact hpassed.moved

theorem Invariant.of_step {transport : Transport} {source : Reader} {destination : Writer}
    {session next : Session Reader Writer} {action : Action}
    (hinv : Invariant source destination session)
    (hstep : step transport session action = some next) (hguard : FailsWhole transport action) :
    Invariant source destination next := by
  have hformed := hinv.toWellFormed.of_step hstep
  cases step_cases hinv.toWellFormed hstep with
  | submitted outgoing incoming _ _ =>
      exact ⟨hformed, outgoing.1 ▸ hinv.unchanged, hinv.sent.congr outgoing.1 outgoing.2.1,
        hinv.delivered.congr incoming.1 incoming.2.1⟩
  | sent _ _ outgoing source incoming _ failsWhole_iff =>
      exact ⟨hformed, source.trans hinv.unchanged,
        outgoing.passed hinv.sent (failsWhole_iff.mp hguard), incoming ▸ hinv.delivered⟩
  | delivered _ _ incoming outgoing _ failsWhole_iff =>
      exact ⟨hformed, outgoing ▸ hinv.unchanged, outgoing ▸ hinv.sent,
        incoming.passed hinv.delivered (failsWhole_iff.mp hguard)⟩

theorem Invariant.conserved {source : Reader} {destination : Writer}
    {session : Session Reader Writer} (hinv : Invariant source destination session) :
    Conserved source destination session :=
  ⟨hinv.unchanged ▸ hinv.sent.moved, hinv.delivered.moved⟩

theorem invariant_start (source : Reader) (destination : Writer) :
    Invariant source destination (start source destination) where
  outgoing _ hview := by cases hview
  incoming _ hview := by cases hview
  unchanged := rfl
  sent := ⟨Nat.le_refl _, between_self.symm⟩
  delivered := ⟨Nat.le_refl _, between_self.symm⟩

/-- **Conservation.** In every run of a channel each completion moves its cursor by the transferred
length, and the bytes are conserved in every state, exactly when no operation fails after a partial
transfer other than an asynchronous one of a Unix stream. -/
theorem conserved_iff_failsWhole (transport : Transport) (source : Reader) (destination : Writer)
    (actions : List Action) :
    EachStep (step transport) Follows (start source destination) actions ∧
        Always (step transport) (Conserved source destination) (start source destination)
          actions ↔
      Guarded (step transport) (fun _ => FailsWhole transport) (start source destination)
        actions := by
  have hinit := invariant_start source destination
  have hfollows : EachStep (step transport) Follows (start source destination) actions ↔
      Guarded (step transport) (fun _ => FailsWhole transport) (start source destination)
        actions := by
    apply eachStep_congr WellFormed hinit.toWellFormed
    · exact fun _ _ _ hformed hstep => hformed.of_step hstep
    · exact fun _ _ _ hformed hstep => follows_iff_failsWhole hformed hstep
  rw [hfollows, and_iff_left_iff_imp]
  intro hguarded
  have hinv := always_of_guarded hinit
    (fun _ _ _ hinv hstep hguard => hinv.of_step hstep hguard) hguarded
  exact hinv.mono fun _ hinv => hinv.conserved

/-- A `write` of three bytes to a TCP socket fails after two of them and leaves the cursor. -/
theorem not_conserved_of_reset :
    ¬ (EachStep (step .tcp) Follows
          (start (⟨[1, 2, 3], 0, by decide⟩ : ArrayBuffer) (⟨[], 0, by decide⟩ : ArrayBuffer))
          [.write 3 (some ECONNRESET) 2] ∧
        Always (step .tcp) (Conserved (⟨[1, 2, 3], 0, by decide⟩ : ArrayBuffer)
            (⟨[], 0, by decide⟩ : ArrayBuffer))
          (start (⟨[1, 2, 3], 0, by decide⟩ : ArrayBuffer) (⟨[], 0, by decide⟩ : ArrayBuffer))
          [.write 3 (some ECONNRESET) 2]) := by
  rintro ⟨heach, _⟩
  have hfollows : 0 = 0 + 2 := (heach _ rfl).1
  omega

end Cadence.ByteConservation
