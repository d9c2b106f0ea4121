import Cadence.Foundation.StepSystem
import Cadence.Io.BufferedFile

/-!
# What a flush makes visible

A byte written to a buffered file is either still in the buffer of its stream or in the file. `flush`
is inherited from `File` and reaches only the file.
-/

namespace Cadence.BufferedFlush

open Segment StepSystem

/-- For each position of a file the byte that was written there last, if any. -/
abbrev Record := Nat → Option Byte

def Record.write (record : Record) (offset : Nat) (data : List Byte) : Record :=
  fun i => if offset ≤ i ∧ i < offset + data.length then data[i - offset]? else record i

structure Session where
  stream : FILE
  record : Record

def opened (content : List Byte) : Session := ⟨.ofFile ⟨content, 0⟩, fun _ => none⟩

/-- The calls on the file, and the C library handing over its buffer of its own accord. -/
inductive Action where
  | write (data : List Byte) (steps : List LibraryStep)
  | seek (offset : BitVec 64) (whence : Seek) (steps : List LibraryStep)
  | handOver (limit : Nat)
  | flush (native : Option Errno)

/-- Writes and seeks are those that succeed. -/
def step (session : Session) : Action → Option Session
  | .write data steps =>
      match BufferedFile.write (some session.stream) data steps with
      | some (.ok _, some stream) =>
          some ⟨stream, session.record.write session.stream.logical.offset data⟩
      | _ => none
  | .seek offset whence steps =>
      match BufferedFile.seek (some session.stream) offset whence steps with
      | some (.ok _, some stream) => some { session with stream := stream }
      | _ => none
  | .handOver limit => some { session with stream := session.stream.handOver limit }
  | .flush _ => some session

/-- Another open of the file sees every byte that was written at its position. -/
def Visible (session : Session) : Prop :=
  ∀ i byte, session.record i = some byte → session.stream.file.content[i]? = some byte

def FlushMakesVisible (session : Session) (action : Action) (_ : Session) : Prop :=
  match action with
  | .flush native => BufferedFile.flush (some session.stream) native = .ok () → Visible session
  | _ => True

/-- Each byte in the buffer is the one that the file has in its place already, as it is when the buffer
is empty. -/
def BufferStored (stream : FILE) : Prop :=
  ∀ j, j < stream.unwritten.length →
    stream.file.content[stream.file.offset + j]? = stream.unwritten[j]?

def FlushesStored (session : Session) : Action → Prop
  | .flush none => BufferStored session.stream
  | _ => True

/-! ### The record and the stream -/

variable {stream next : FILE} {record : Record} {offset : Nat} {front back data : List Byte}
  {steps : List LibraryStep}

theorem Record.write_append :
    (record.write offset front).write (offset + front.length) back =
      record.write offset (front ++ back) := by
  funext i
  simp only [Record.write, List.length_append]
  by_cases hback : offset + front.length ≤ i ∧ i < offset + front.length + back.length
  · have hwhole : offset ≤ i ∧ i < offset + (front.length + back.length) := by omega
    rw [if_pos hback, if_pos hwhole, List.getElem?_append_right (by omega)]
    congr 1
    omega
  · rw [if_neg hback]
    by_cases hfront : offset ≤ i ∧ i < offset + front.length
    · have hwhole : offset ≤ i ∧ i < offset + (front.length + back.length) := by omega
      rw [if_pos hfront, if_pos hwhole, List.getElem?_append_left (by omega)]
    · rw [if_neg hfront, if_neg (by omega)]

theorem Record.write_nil : record.write offset [] = record := by
  funext i
  exact if_neg (by simp only [List.length_nil]; omega)

/-- The bytes in the buffer are the last ones written at their positions, and the file has those of
every other position. -/
structure Holds (stream : FILE) (record : Record) : Prop where
  unread : stream.unread = []
  pending : ∀ j, j < stream.unwritten.length →
    record (stream.file.offset + j) = stream.unwritten[j]?
  stored : ∀ i byte, record i = some byte →
    (i < stream.file.offset ∨ stream.file.offset + stream.unwritten.length ≤ i) →
      stream.file.content[i]? = some byte

theorem Holds.handOver (hholds : Holds stream record) (limit : Nat) :
    Holds (stream.handOver limit) record := by
  have hlength : (stream.unwritten.take limit).length + (stream.unwritten.drop limit).length =
      stream.unwritten.length := by
    rw [← List.length_append, List.take_append_drop]
  have htaken : (stream.unwritten.take limit).length = min limit stream.unwritten.length :=
    List.length_take
  refine ⟨hholds.unread, fun j hj => ?_, fun i byte hrecord houtside => ?_⟩
  · simp only [FILE.handOver, OpenFile.write, OpenFile.put] at hj ⊢
    have hposition : stream.file.offset + (stream.unwritten.take limit).length + j =
        stream.file.offset + (limit + j) := by omega
    rw [hposition, List.getElem?_drop]
    exact hholds.pending (limit + j) (by omega)
  · simp only [FILE.handOver, OpenFile.write, OpenFile.put] at houtside ⊢
    by_cases hinside : stream.file.offset ≤ i ∧
        i < stream.file.offset + (stream.unwritten.take limit).length
    · have hpending := hholds.pending (i - stream.file.offset) (by omega)
      rw [Nat.add_sub_cancel' hinside.1] at hpending
      rw [getElem?_writeAt_of_mem hinside.1 hinside.2, List.getElem?_take_of_lt (by omega),
        ← hpending, hrecord]
    · have hbyte := hholds.stored i byte hrecord (by omega)
      obtain ⟨hi, _⟩ := List.getElem?_eq_some_iff.mp hbyte
      rw [getElem?_writeAt_of_not_mem hi (by omega), hbyte]

theorem Holds.buffer (hholds : Holds stream record) (data : List Byte) :
    Holds { stream with unwritten := stream.unwritten ++ data }
      (record.write (stream.file.offset + stream.unwritten.length) data) := by
  refine ⟨hholds.unread, fun j hj => ?_, fun i byte hrecord houtside => ?_⟩
  · simp only [List.length_append] at hj
    simp only [Record.write]
    by_cases hold : j < stream.unwritten.length
    · rw [if_neg (by omega), List.getElem?_append_left hold]
      exact hholds.pending j hold
    · rw [if_pos (by omega), List.getElem?_append_right (by omega)]
      congr 1
      omega
  · simp only [List.length_append] at houtside
    simp only [Record.write] at hrecord
    rw [if_neg (by omega)] at hrecord
    exact hholds.stored i byte hrecord (by omega)

/-- A native write of the data itself is one through the empty buffer. -/
theorem Holds.direct (hholds : Holds stream record) (hempty : stream.unwritten = [])
    (data : List Byte) :
    Holds { stream with file := stream.file.put data } (record.write stream.file.offset data) := by
  obtain ⟨file, unwritten, unread⟩ := stream
  obtain rfl : unwritten = [] := hempty
  have hbuffered := (hholds.buffer data).handOver data.length
  simpa only [FILE.handOver, OpenFile.write, List.nil_append, List.take_length, List.drop_length,
    List.length_nil, Nat.add_zero] using hbuffered

theorem position_handOver {limit : Nat} :
    (stream.handOver limit).file.offset + (stream.handOver limit).unwritten.length =
      stream.file.offset + stream.unwritten.length := by
  have hlength : (stream.unwritten.take limit).length + (stream.unwritten.drop limit).length =
      stream.unwritten.length := by
    rw [← List.length_append, List.take_append_drop]
  simp only [FILE.handOver, OpenFile.write, OpenFile.put]
  omega

theorem Holds.fwrite {written : FILE.Written} (hholds : Holds stream record)
    (hwrite : stream.fwrite data steps = some written) (hdone : written.failure = none) :
    Holds written.stream (record.write (stream.file.offset + stream.unwritten.length)
      (data.take written.count)) := by
  fun_induction FILE.fwrite stream data steps generalizing written record with
  | case1 steps stream =>
      cases hwrite
      rw [List.take_zero, Record.write_nil]
      exact hholds
  | case2 stream data hne count steps ih =>
      obtain ⟨rest, hrest, rfl⟩ := Option.map_eq_some_iff.mp hwrite
      have hlater := ih (hholds.buffer (data.take count)) hrest hdone
      rw [List.length_append, ← Nat.add_assoc, Record.write_append, ← take_length_take_add]
        at hlater
      exact hlater
  | case3 stream data hne limit steps ih =>
      have hlater := ih (hholds.handOver limit) hwrite hdone
      rw [position_handOver] at hlater
      exact hlater
  | case5 stream data hne limit steps hempty ih =>
      obtain ⟨rest, hrest, rfl⟩ := Option.map_eq_some_iff.mp hwrite
      have hlater := ih (hholds.direct hempty (data.take limit)) hrest hdone
      have hposition : (stream.file.write data limit).2.offset + stream.unwritten.length =
          stream.file.offset + stream.unwritten.length + (data.take limit).length := by
        simp only [OpenFile.write, OpenFile.put]
        omega
      rw [hposition, hempty, List.length_nil, Nat.add_zero, Record.write_append,
        ← take_length_take_add] at hlater
      rw [hempty]
      exact hlater
  | case4 | case7 =>
      cases hwrite
      cases hdone
  | case6 | case8 | case9 => cases hwrite

theorem Holds.fflush (hholds : Holds stream record)
    (hflush : stream.fflush steps = some (none, next)) : Holds next record := by
  fun_induction FILE.fflush stream steps with
  | case1 stream =>
      cases hflush
      exact hholds
  | case2 stream hne limit rest ih => exact ih (hholds.handOver limit) hflush
  | case3 | case4 => cases hflush

/-- A seek that succeeds leaves nothing in the buffer. -/
theorem Holds.fseeko {whence : Seek} {target : BitVec 64} (hholds : Holds stream record)
    (hseek : stream.fseeko target whence steps = some (none, next)) : Holds next record := by
  obtain ⟨flushed, file, hflush, htarget, rfl⟩ := FILE.fseeko_eq_none hseek
  have hempty := (FILE.fflush_spec hflush).empties rfl
  have hflushed := hholds.fflush hflush
  have hcontent : file.content = flushed.file.content := by
    rw [OpenFile.content_lseek htarget, FILE.logical_of_unwritten_nil hempty]
  refine ⟨rfl, fun j hj => absurd hj (Nat.not_lt_zero j), fun i byte hrecord _ => ?_⟩
  have hbyte := hflushed.stored i byte hrecord (by rw [hempty, List.length_nil]; omega)
  simp only [FILE.ofFile, hcontent, hbyte]

theorem Holds.write {written : FILE.Written} (hholds : Holds stream record)
    (hwrite : stream.fwrite data steps = some written) (hall : written.count = data.length) :
    Holds written.stream (record.write stream.logical.offset data) := by
  have hdone := (FILE.fwrite_spec hholds.unread hwrite).complete_iff.mpr hall
  have hlater := hholds.fwrite hwrite hdone
  rw [hall, List.take_length] at hlater
  rw [FILE.logical_of_unread_nil hholds.unread]
  exact hlater

theorem Holds.step {session next : Session} {action : Action}
    (hholds : Holds session.stream session.record) (hstep : step session action = some next) :
    Holds next.stream next.record := by
  cases action with
  | write data steps =>
      simp only [BufferedFlush.step] at hstep
      split at hstep
      next result stream hcall =>
        cases hstep
        obtain ⟨written, hwrite, hresult⟩ := Option.map_eq_some_iff.mp hcall
        obtain ⟨hcount, hstream⟩ := Prod.mk.inj hresult
        obtain rfl := Option.some.inj hstream
        split at hcount
        next => cases hcount
        next hall => exact hholds.write hwrite (not_not.mp hall)
      next => cases hstep
  | seek target whence steps =>
      simp only [BufferedFlush.step] at hstep
      split at hstep
      next result stream hcall =>
        cases hstep
        obtain ⟨⟨error, sought⟩, hseek, hresult⟩ := Option.map_eq_some_iff.mp hcall
        cases error with
        | some errno => cases hresult
        | none =>
            obtain rfl := Option.some.inj (Prod.mk.inj hresult).2
            exact hholds.fseeko hseek
      next => cases hstep
  | handOver limit =>
      cases hstep
      exact hholds.handOver limit
  | flush native =>
      cases hstep
      exact hholds

theorem visible_iff_bufferStored (hholds : Holds stream record) :
    Visible ⟨stream, record⟩ ↔ BufferStored stream := by
  constructor
  · intro hvisible j hj
    have hbyte := hholds.pending j hj
    rw [List.getElem?_eq_getElem hj] at hbyte ⊢
    exact hvisible _ _ hbyte
  · intro hstored i byte hrecord
    by_cases hpending : stream.file.offset ≤ i ∧
        i < stream.file.offset + stream.unwritten.length
    · obtain ⟨j, rfl⟩ := Nat.exists_eq_add_of_le hpending.1
      have hj : j < stream.unwritten.length := by omega
      calc stream.file.content[stream.file.offset + j]?
          = stream.unwritten[j]? := hstored j hj
        _ = some byte := (hholds.pending j hj).symm.trans hrecord
    · exact hholds.stored i byte hrecord (by omega)

/-- **Flush.** After each flush that returns normally another open of the file sees every byte written
so far, exactly when each of these flushes finds nothing in the buffer of the stream but bytes that the
file holds in their places already. -/
theorem flushMakesVisible_iff_flushesStored (content : List Byte) (actions : List Action) :
    EachStep step FlushMakesVisible (opened content) actions ↔
      Guarded step FlushesStored (opened content) actions := by
  apply eachStep_congr fun session => Holds session.stream session.record
  · exact ⟨rfl, fun j hj => absurd hj (Nat.not_lt_zero j), fun i byte hrecord => by cases hrecord⟩
  · exact fun session action next hholds => hholds.step
  · intro session action next hholds _
    cases action with
    | write | seek | handOver => exact Iff.rfl
    | flush native =>
        cases native with
        | none =>
            have hiff := visible_iff_bufferStored hholds
            exact ⟨fun hvisible => hiff.mp (hvisible rfl), fun hstored _ => hiff.mpr hstored⟩
        | some errno => exact iff_of_true (fun hreturns => by cases hreturns) trivial

theorem not_flushMakesVisible_of_buffered_write :
    ¬ EachStep step FlushMakesVisible (opened []) [.write [1] [.buffer 1], .flush none] := by
  intro hvisible
  have hbyte := ((hvisible _ rfl).2 _ rfl).1 rfl 0 1 rfl
  cases hbyte

end Cadence.BufferedFlush
