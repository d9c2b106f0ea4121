import Cadence.Foundation.StepSystem
import Cadence.Io.OpenFile

/-!
# Streaming keeps the bytes

A device may take or give less than it is asked for, and may fail, at every call. Whatever it does,
the cursor of the buffer stands behind exactly the bytes that went through.
-/

namespace Cadence.DeviceStreams

open ByteCursor Segment StepSystem

variable {Device Reader Writer : Type}

/-- A call that returns a count moves the position and the stream by it, and any other call neither. -/
def Moves (result : Except Exception IOResult) (n : Nat) (before after : Nat)
    (moved moved' : List Byte) : Prop :=
  match result with
  | .ok (.ok count) => count ≤ n ∧ after = before + count ∧ moved'.length = moved.length + count
  | _ => after = before ∧ moved' = moved

theorem moves_of_count {result : Except Exception IOResult} {n before after : Nat}
    {moved moved' data : List Byte} (hcount : countOf result ≤ n)
    (hafter : after = before + countOf result) (hdata : data.length = countOf result)
    (hmoved : moved' = moved ++ data) : Moves result n before after moved moved' := by
  have hfailed (hzero : countOf result = 0) : after = before ∧ moved' = moved := by
    rw [hzero] at hafter hdata
    rw [hmoved, List.length_eq_zero_iff.mp hdata, List.append_nil]
    exact ⟨hafter, rfl⟩
  cases result with
  | error e => exact hfailed rfl
  | ok result =>
      cases result with
      | error e => exact hfailed rfl
      | ok count => exact ⟨hcount, hafter, by rw [hmoved, List.length_append, hdata]; rfl⟩

section Writes

variable [OutputDevice Device] [ByteCursor Reader]

/-- A failed call leaves the caller free to make the next one. -/
def writeStep (state : Device × Reader) (n : Nat) : Option (Device × Reader) :=
  if n ≤ remaining state.2 then some (IOObject.write state.1 state.2 n).2 else none

/-- The reader is only moved, and what the device accepted since is what the reader was moved over. -/
structure Written (device : Device) (src : Reader) (state : Device × Reader) : Prop where
  bytes : bytes state.2 = bytes src
  forward : position src ≤ position state.2
  accepted : OutputDevice.accepted state.1 = OutputDevice.accepted device ++
    between (ByteCursor.bytes src) (position src) (position state.2)

structure WritesConserved (device : Device) (src : Reader) (requests : List Nat) : Prop where
  written : Always writeStep (Written device src) (device, src) requests
  moves : EachStep writeStep
    (fun state n next => Moves (IOObject.write state.1 state.2 n).1 n (position state.2)
      (position next.2) (OutputDevice.accepted state.1) (OutputDevice.accepted next.1))
    (device, src) requests

theorem writeStep_eq_some {state next : Device × Reader} {n : Nat}
    (hstep : writeStep state n = some next) :
    n ≤ remaining state.2 ∧ (IOObject.write state.1 state.2 n).2 = next := by
  unfold writeStep at hstep
  split at hstep
  next hn => exact ⟨hn, Option.some.inj hstep⟩
  next => cases hstep

theorem Written.step {device : Device} {src : Reader} {state next : Device × Reader} {n : Nat}
    (hwritten : Written device src state) (hstep : writeStep state n = some next) :
    Written device src next := by
  obtain ⟨hn, rfl⟩ := writeStep_eq_some hstep
  obtain ⟨hcount, hposition, hbytes, haccepted⟩ := IOObject.write_spec state.1 hn
  have hforward := hwritten.forward
  refine ⟨hbytes.trans hwritten.bytes, by omega, ?_⟩
  rw [haccepted, hwritten.accepted, hwritten.bytes, hposition, List.append_assoc,
    between_append hforward (by omega)]

theorem moves_of_writeStep {state next : Device × Reader} {n : Nat}
    (hstep : writeStep state n = some next) :
    Moves (IOObject.write state.1 state.2 n).1 n (position state.2) (position next.2)
      (OutputDevice.accepted state.1) (OutputDevice.accepted next.1) := by
  obtain ⟨hn, rfl⟩ := writeStep_eq_some hstep
  obtain ⟨hcount, hposition, _, haccepted⟩ := IOObject.write_spec state.1 hn
  have hfits := add_le_of_le_remaining hn
  refine moves_of_count hcount hposition ?_ haccepted
  rw [length_between (by omega), Nat.add_sub_cancel_left]

theorem writesConserved (device : Device) (src : Reader) (requests : List Nat) :
    WritesConserved device src requests where
  written := always_of_step ⟨rfl, Nat.le_refl _, by rw [between_self, List.append_nil]⟩
    fun state n next hwritten hstep => hwritten.step hstep
  moves := eachStep_of_step fun state n next => moves_of_writeStep

end Writes

section Reads

variable [InputDevice Device] [ByteWriter Writer]

def readStep (state : Device × Writer) (n : Nat) : Option (Device × Writer) :=
  if n ≤ remaining state.2 then some (IOObject.read state.1 state.2 n).2 else none

/-- What the device delivered since stands in the writer between its first and its last position. -/
structure Filled (device : Device) (dest : Writer) (state : Device × Writer) : Prop where
  forward : position dest ≤ position state.2
  length : (bytes state.2).length = (bytes dest).length
  delivered : InputDevice.delivered state.1 = InputDevice.delivered device ++
    between (bytes state.2) (position dest) (position state.2)

/-- The call leaves every byte alone that is not among the next `n`. -/
def WritesInside (n : Nat) (before after : Writer) : Prop :=
  ∀ i, i < position before ∨ position before + n ≤ i → (bytes after)[i]? = (bytes before)[i]?

structure ReadsConserved (device : Device) (dest : Writer) (requests : List Nat) : Prop where
  filled : Always readStep (Filled device dest) (device, dest) requests
  moves : EachStep readStep
    (fun state n next => Moves (IOObject.read state.1 state.2 n).1 n (position state.2)
      (position next.2) (InputDevice.delivered state.1) (InputDevice.delivered next.1))
    (device, dest) requests
  inside : EachStep readStep (fun state n next => WritesInside n state.2 next.2)
    (device, dest) requests

theorem readStep_eq_some {state next : Device × Writer} {n : Nat}
    (hstep : readStep state n = some next) :
    n ≤ remaining state.2 ∧ (IOObject.read state.1 state.2 n).2 = next := by
  unfold readStep at hstep
  split at hstep
  next hn => exact ⟨hn, Option.some.inj hstep⟩
  next => cases hstep

theorem Filled.step {device : Device} {dest : Writer} {state next : Device × Writer} {n : Nat}
    (hfilled : Filled device dest state) (hstep : readStep state n = some next) :
    Filled device dest next := by
  obtain ⟨hn, rfl⟩ := readStep_eq_some hstep
  obtain ⟨hcount, hposition, ⟨filled, hlength, hbytes⟩, hdelivered⟩ :=
    IOObject.read_spec state.1 hn
  have hforward := hfilled.forward
  have hfits : position state.2 + filled.length ≤ (bytes state.2).length :=
    hlength.symm ▸ add_le_of_le_remaining hn
  have hfront : between (bytes (IOObject.read state.1 state.2 n).2.2) (position dest)
      (position state.2) = between (bytes state.2) (position dest) (position state.2) := by
    rw [hbytes]
    exact between_overwrite_of_le (Nat.le_refl _) (position_le state.2)
  refine ⟨by omega, ?_, ?_⟩
  · rw [hbytes, length_overwrite hfits, hfilled.length]
  · rw [hdelivered, hfilled.delivered, ← hfront, hposition, List.append_assoc,
      between_append hforward (by omega)]

theorem moves_of_readStep {state next : Device × Writer} {n : Nat}
    (hstep : readStep state n = some next) :
    Moves (IOObject.read state.1 state.2 n).1 n (position state.2) (position next.2)
      (InputDevice.delivered state.1) (InputDevice.delivered next.1) := by
  obtain ⟨hn, rfl⟩ := readStep_eq_some hstep
  obtain ⟨hcount, hposition, ⟨filled, hlength, hbytes⟩, hdelivered⟩ :=
    IOObject.read_spec state.1 hn
  have hfits : position state.2 + filled.length ≤ (bytes state.2).length :=
    hlength.symm ▸ add_le_of_le_remaining hn
  refine moves_of_count hcount hposition ?_ hdelivered
  rw [length_between (by rw [hbytes, length_overwrite hfits]; omega), Nat.add_sub_cancel_left]

theorem writesInside_of_readStep {state next : Device × Writer} {n : Nat}
    (hstep : readStep state n = some next) : WritesInside n state.2 next.2 := by
  obtain ⟨hn, rfl⟩ := readStep_eq_some hstep
  obtain ⟨_, _, ⟨filled, hlength, hbytes⟩, _⟩ := IOObject.read_spec state.1 hn
  intro i hi
  rw [hbytes]
  cases hi with
  | inl hlt => exact getElem?_overwrite_of_lt hlt (position_le state.2)
  | inr hle => exact getElem?_overwrite_of_le (hlength.symm ▸ hle) (position_le state.2)

theorem readsConserved (device : Device) (dest : Writer) (requests : List Nat) :
    ReadsConserved device dest requests where
  filled := always_of_step ⟨Nat.le_refl _, rfl, by rw [between_self, List.append_nil]⟩
    fun state n next hfilled hstep => hfilled.step hstep
  moves := eachStep_of_step fun state n next => moves_of_readStep
  inside := eachStep_of_step fun state n next => writesInside_of_readStep

end Reads

/-- **Streaming.** Every run of `write` calls makes the device accept the bytes that the reader is
moved over, and every run of `read` calls leaves in the writer, where it is moved over, the bytes that
the device delivered and changes no others. -/
theorem ioObject_conserves {Output Input : Type} [OutputDevice Output] [InputDevice Input]
    [ByteCursor Reader] [ByteWriter Writer] :
    (∀ (device : Output) (src : Reader) (requests : List Nat),
      WritesConserved device src requests) ∧
      ∀ (device : Input) (dest : Writer) (requests : List Nat),
        ReadsConserved device dest requests :=
  ⟨writesConserved, readsConserved⟩

/-- Two short writes and a failure between them. -/
example : run writeStep
    ((⟨some ⟨[], 0⟩, fun call => if call = 1 then .error EIO else .ok 2, 0, []⟩ : FileDevice),
      (⟨[1, 2, 3, 4, 5], 0, by decide⟩ : ArrayBuffer)) [5, 3, 3] |>.any fun state =>
    decide (state.1.moved = [1, 2, 3, 4] ∧ state.2.position = 4) := by decide

end Cadence.DeviceStreams
