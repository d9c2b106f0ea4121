import Cadence.Async.Channel

/-!
# The memory that a channel gives to its transport

Every operation of a channel passes on what `asio_buffer` returns. Its address is that of a slice of
the remaining region, and its length is what the caller asked for. Of the slice it is known only that
it lies in the region it was cut from.
-/

namespace Cadence.TransportMemory

/-- `slice(from, to)` of a view, which may raise. -/
abbrev Slice := MemoryView → Nat → Nat → Except Exception MemoryView

structure Inside (inner outer : MemoryView) : Prop where
  front : outer.offset ≤ inner.offset
  back : inner.offset + inner.length ≤ outer.offset + outer.length

def StaysInside (slice : Slice) : Prop :=
  ∀ view to' result, slice view 0 to' = .ok result → Inside result view

def asioBuffer (slice : Slice) (viewRemaining : MemoryView) (bytes : Nat) :
    Except Exception MemoryView :=
  (slice viewRemaining 0 bytes).map fun view => ⟨view.offset, bytes⟩

/-- The operation is rejected, or it gives the transport memory of the remaining region. -/
def SubmitsInside (slice : Slice) (viewRemaining : MemoryView) (bytes : Nat) : Prop :=
  ∀ region, asioBuffer slice viewRemaining bytes = .ok region → Inside region viewRemaining

/-- A slice that is returned has room for the bytes behind its address. -/
def HasRoom (slice : Slice) (viewRemaining : MemoryView) (bytes : Nat) : Prop :=
  ∀ view, slice viewRemaining 0 bytes = .ok view →
    view.offset + bytes ≤ viewRemaining.offset + viewRemaining.length

/-- The remaining region of a buffer is one such view. -/
theorem asioBuffer_eq {Buffer : Type} [ByteCursor Buffer] (buffer : Buffer) (bytes : Nat) :
    ByteCursor.asioBuffer buffer bytes =
      asioBuffer (fun _ => ByteCursor.sliceRemaining buffer)
        ⟨ByteCursor.position buffer, ByteCursor.remaining buffer⟩ bytes :=
  rfl

variable {slice : Slice} {viewRemaining : MemoryView} {bytes : Nat}

theorem submitsInside_iff_hasRoom (hslice : StaysInside slice) :
    SubmitsInside slice viewRemaining bytes ↔ HasRoom slice viewRemaining bytes := by
  constructor
  · intro hsubmits view hview
    have hregion : asioBuffer slice viewRemaining bytes = .ok ⟨view.offset, bytes⟩ := by
      rw [asioBuffer, hview]
      rfl
    exact (hsubmits _ hregion).back
  · intro hroom region hregion
    cases hview : slice viewRemaining 0 bytes with
    | error e =>
        rw [asioBuffer, hview] at hregion
        cases hregion
    | ok view =>
        rw [asioBuffer, hview] at hregion
        obtain rfl := Except.ok.inj hregion
        exact ⟨(hslice _ _ _ hview).front, hroom view hview⟩

/-- A slice that starts with the region it is cut from makes this a bound on the request. -/
theorem hasRoom_iff_le (hstart : ∀ view, slice viewRemaining 0 bytes = .ok view →
      view.offset = viewRemaining.offset) :
    HasRoom slice viewRemaining bytes ↔
      (∃ e, slice viewRemaining 0 bytes = .error e) ∨ bytes ≤ viewRemaining.length := by
  constructor
  · intro hroom
    cases hview : slice viewRemaining 0 bytes with
    | error e => exact Or.inl ⟨e, rfl⟩
    | ok view =>
        have hfits := hroom view hview
        rw [hstart view hview] at hfits
        exact Or.inr (Nat.le_of_add_le_add_left hfits)
  · rintro (⟨e, he⟩ | hle) view hview
    · cases he.symm.trans hview
    · rw [hstart view hview]
      exact Nat.add_le_add_left hle _

/-- **Submitted memory.** An operation gives the transport memory of the remaining region alone, or is
rejected, exactly when a slice that is returned has room for the bytes behind its address. Where the
slice starts with the region, that is when it raises or no more is asked for than remains. -/
theorem submitsInside_iff (hslice : StaysInside slice) :
    (SubmitsInside slice viewRemaining bytes ↔ HasRoom slice viewRemaining bytes) ∧
      ((∀ view, slice viewRemaining 0 bytes = .ok view → view.offset = viewRemaining.offset) →
        (SubmitsInside slice viewRemaining bytes ↔
          (∃ e, slice viewRemaining 0 bytes = .error e) ∨ bytes ≤ viewRemaining.length)) := by
  have hiff : SubmitsInside slice viewRemaining bytes ↔ HasRoom slice viewRemaining bytes :=
    submitsInside_iff_hasRoom hslice
  exact ⟨hiff, fun hstart => hiff.trans (hasRoom_iff_le hstart)⟩

/-- A slice cut to the view. -/
def clamped : Slice := fun view from' to' =>
  .ok ⟨view.offset + min from' view.length, min to' view.length - min from' view.length⟩

theorem staysInside_clamped : StaysInside clamped := by
  intro view to' result hresult
  obtain rfl := Except.ok.inj hresult
  constructor <;> simp only <;> omega

theorem submitsInside_of_small_request : SubmitsInside clamped ⟨2, 3⟩ 3 :=
  ((submitsInside_iff staysInside_clamped).2 fun view hview => by
    obtain rfl := Except.ok.inj hview
    rfl).mpr (Or.inr (by decide))

/-- One byte remains and four are asked for. -/
theorem not_submitsInside_of_large_request :
    ¬ ∀ slice, StaysInside slice → ∀ viewRemaining bytes,
      SubmitsInside slice viewRemaining bytes := by
  intro hsubmits
  have hback := (hsubmits clamped staysInside_clamped ⟨2, 1⟩ 4 _ rfl).back
  exact absurd hback (by decide)

end Cadence.TransportMemory
