import Cadence.Async.Channel
import Mathlib.Order.Nat

/-!
# Writes that succeed without writing everything

`async_write_some` completes as soon as the descriptor has accepted something. The asynchronous
writes of the pipe and of the serial channel take this for the end of the operation.
-/

namespace Cadence.WriteAll

open ByteCursor Segment

/-- What one call of `write_some` does: it accepts bytes of those it is offered, or fails. -/
abbrev Chunk := Except Errno Nat

/-- The composed write: the bytes sent and the error code, once it has completed. -/
def writeAll : List Chunk → List Byte → Option (List Byte × Option Errno)
  | [], offered => if offered = [] then some ([], none) else none
  | chunk :: chunks, offered =>
      if offered = [] then some ([], none)
      else
        match chunk with
        | .error ec => some ([], some ec)
        | .ok k =>
            (writeAll chunks (offered.drop k)).map fun result =>
              result.map (offered.take k ++ ·) id

def writeSome : List Chunk → List Byte → Option (List Byte × Option Errno)
  | [], _ => none
  | .error ec :: _, _ => some ([], some ec)
  | .ok k :: _, offered => some (offered.take k, none)

def transfer : NativeCall → List Chunk → List Byte → Option (List Byte × Option Errno)
  | .transferAll => writeAll
  | .transferSome => writeSome

variable {Reader : Type} [ByteCursor Reader]

/-- A write of `n` bytes, and the bytes that the transport received. There is no result while the
operation goes on. -/
def perform (transport : Transport) (operation : Operation) (src : Reader) (n : Nat)
    (chunks : List Chunk) : Option (Outcome Reader × List Byte) := do
  let view ← (asioBuffer src n).toOption
  let offered := between (bytes src) view.offset (view.offset + view.length)
  let (sent, ec) ← transfer (transport.nativeCall operation) chunks offered
  return (transport.finish operation src ec sent.length, sent)

/-- If the operation succeeds, the transport has received the `n` bytes behind the cursor, and the
cursor has moved past them. -/
def WritesAll (transport : Transport) (operation : Operation) (src : Reader) (n : Nat)
    (chunks : List Chunk) : Prop :=
  ∀ outcome sent, perform transport operation src n chunks = some (outcome, sent) →
    outcome.1 = .ok () →
    sent = between (bytes src) (position src) (position src + n) ∧
      position outcome.2 = position src + n

/-! ### The transfers -/

theorem writeAll_spec {chunks : List Chunk} {offered sent : List Byte} {ec : Option Errno}
    (htransfer : writeAll chunks offered = some (sent, ec)) :
    sent.length ≤ offered.length ∧ (ec = none → sent = offered) := by
  induction chunks generalizing offered sent with
  | nil =>
      simp only [writeAll, Option.ite_none_right_eq_some] at htransfer
      obtain ⟨rfl, hpair⟩ := htransfer
      cases hpair
      exact ⟨le_rfl, fun _ => rfl⟩
  | cons chunk chunks ih =>
      by_cases hempty : offered = []
      · cases chunk <;>
        · rw [writeAll, if_pos hempty] at htransfer
          cases htransfer
          exact ⟨Nat.zero_le _, fun _ => hempty.symm⟩
      · cases chunk with
        | error e =>
            rw [writeAll, if_neg hempty] at htransfer
            cases htransfer
            exact ⟨Nat.zero_le _, fun hnone => by cases hnone⟩
        | ok k =>
            rw [writeAll, if_neg hempty] at htransfer
            obtain ⟨⟨rest, ec'⟩, hrest, hpair⟩ := Option.map_eq_some_iff.mp htransfer
            cases hpair
            obtain ⟨hlength, hall⟩ := ih hrest
            refine ⟨?_, fun hnone => ?_⟩
            · rw [List.length_drop] at hlength
              simp only [List.length_append, List.length_take]
              omega
            · rw [hall hnone]
              exact List.take_append_drop k offered

theorem writeSome_length_le {chunks : List Chunk} {offered sent : List Byte} {ec : Option Errno}
    (htransfer : writeSome chunks offered = some (sent, ec)) : sent.length ≤ offered.length := by
  cases chunks with
  | nil => cases htransfer
  | cons chunk chunks =>
      cases chunk with
      | error e =>
          cases htransfer
          exact Nat.zero_le _
      | ok k =>
          cases htransfer
          exact List.length_take_le' _ _

theorem transfer_length_le {call : NativeCall} {chunks : List Chunk} {offered sent : List Byte}
    {ec : Option Errno} (htransfer : transfer call chunks offered = some (sent, ec)) :
    sent.length ≤ offered.length := by
  cases call with
  | transferAll => exact (writeAll_spec htransfer).1
  | transferSome => exact writeSome_length_le htransfer

/-! ### The channels -/

section Channels

variable {transport : Transport} {operation : Operation} {src : Reader} {n : Nat}
  {chunks : List Chunk}

theorem writesAll_iff (hn : n ≤ remaining src) :
    WritesAll transport operation src n chunks ↔
      ∀ sent, transfer (transport.nativeCall operation) chunks
          (between (bytes src) (position src) (position src + n)) = some (sent, none) →
        sent = between (bytes src) (position src) (position src + n) := by
  have hfits := add_le_of_le_remaining hn
  have hlength : (between (bytes src) (position src) (position src + n)).length = n := by
    rw [length_between hfits, Nat.add_sub_cancel_left]
  have hperform : perform transport operation src n chunks =
      (transfer (transport.nativeCall operation) chunks
        (between (bytes src) (position src) (position src + n))).bind fun result =>
          some (transport.finish operation src result.2 result.1.length, result.1) := by
    rw [perform, asioBuffer_of_le hn]
    rfl
  constructor
  · intro hwrites sent htransfer
    have hsent : position src + sent.length ≤ (bytes src).length := by
      have hshort := transfer_length_le htransfer
      omega
    have hfinished := transport.finished_finish operation none hsent
    refine (hwrites _ sent ?_ (hfinished.ok_iff.mpr rfl)).1
    rw [hperform, htransfer]
    rfl
  · intro htransfers outcome sent hresult hok
    rw [hperform] at hresult
    obtain ⟨⟨received, ec⟩, htransfer, hpair⟩ := Option.bind_eq_some_iff.mp hresult
    obtain ⟨rfl, rfl⟩ := Prod.mk.inj (Option.some.inj hpair)
    have hsent : position src + received.length ≤ (bytes src).length := by
      have hshort := transfer_length_le htransfer
      omega
    have hfinished := transport.finished_finish operation ec hsent
    obtain rfl := hfinished.ok_iff.mp hok
    have hall := htransfers received htransfer
    refine ⟨hall, ?_⟩
    rw [hfinished.moved (Or.inl rfl), hall, hlength]

theorem writesAll_of_transferAll (hn : n ≤ remaining src)
    (hcall : transport.nativeCall operation = .transferAll) :
    WritesAll transport operation src n chunks := by
  rw [writesAll_iff hn, hcall]
  exact fun sent htransfer => (writeAll_spec htransfer).2 rfl

/-- A synchronous write that succeeds has written everything, on every channel. -/
theorem write_writesAll (hn : n ≤ remaining src) : WritesAll transport .write src n chunks := by
  apply writesAll_of_transferAll hn
  cases transport <;> rfl

theorem writesAll_of_transferSome (hn : n ≤ remaining src)
    (hcall : transport.nativeCall operation = .transferSome) :
    WritesAll transport operation src n chunks ↔ ∀ k, chunks.head? = some (.ok k) → n ≤ k := by
  have hlength : (between (bytes src) (position src) (position src + n)).length = n := by
    rw [length_between (add_le_of_le_remaining hn), Nat.add_sub_cancel_left]
  rw [writesAll_iff hn, hcall]
  constructor
  · intro hsends k hhead
    obtain ⟨rest, rfl⟩ := List.head?_eq_some_iff.mp hhead
    have htake := congrArg List.length (hsends _ rfl)
    rw [List.length_take, hlength] at htake
    omega
  · intro haccepts sent htransfer
    cases chunks with
    | nil => cases htransfer
    | cons chunk chunks =>
        cases chunk with
        | error e => cases htransfer
        | ok k =>
            cases htransfer
            exact List.take_of_length_le (hlength.le.trans (haccepts k rfl))

end Channels

/-- **Whole writes.** An `asyncWrite` whose future resolves without an error has written everything,
exactly when the channel is a TCP or Unix stream socket or the first `write_some` fails or accepts
all of the bytes. -/
theorem asyncWrite_writesAll_iff (transport : Transport) (src : Reader) (n : Nat)
    (chunks : List Chunk) (hn : n ≤ remaining src) :
    WritesAll transport .asyncWrite src n chunks ↔
      transport = .tcp ∨ transport = .streamDomain ∨
        ∀ k, chunks.head? = some (.ok k) → n ≤ k := by
  cases transport with
  | tcp => exact iff_of_true (writesAll_of_transferAll hn rfl) (Or.inl rfl)
  | streamDomain => exact iff_of_true (writesAll_of_transferAll hn rfl) (Or.inr (Or.inl rfl))
  | pipe => simpa using writesAll_of_transferSome hn rfl
  | serial => simpa using writesAll_of_transferSome hn rfl

/-- The pipe has room for all three bytes. -/
theorem asyncWrite_writesAll_of_room :
    WritesAll .pipe .asyncWrite (⟨[1, 2, 3], 0, by decide⟩ : ArrayBuffer) 3 [.ok 3] := by
  refine (asyncWrite_writesAll_iff .pipe _ 3 _ (by decide)).mpr (Or.inr (Or.inr fun k hk => ?_))
  cases hk
  exact le_rfl

/-- The pipe has room for two of the three bytes. -/
theorem not_writesAll_of_full_pipe :
    ¬ WritesAll .pipe .asyncWrite (⟨[1, 2, 3], 0, by decide⟩ : ArrayBuffer) 3 [.ok 2] := by
  intro hwrites
  have hsent := (hwrites _ _ rfl rfl).1
  exact absurd hsent (by decide)

end Cadence.WriteAll
