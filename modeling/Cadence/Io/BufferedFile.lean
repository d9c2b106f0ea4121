import Cadence.Io.OpenFile

/-!
# Buffered files

`PlatformFilesystem::BufferedFile` works on a stream of the C library. The stream keeps bytes that the
operating system has not been given yet, or bytes that it has read ahead. What a library function does
in turn is a list chosen by the environment: when it uses its buffer, when it makes a native call, what
that call does, and what is left of the buffer when a native write of it has failed.
-/

namespace Cadence

open Segment

structure FILE where
  file : OpenFile
  /-- Accepted by `fwrite`, for the place where the open file stands. -/
  unwritten : List Byte
  /-- Read ahead, from in front of the place where the open file stands. -/
  unread : List Byte
  deriving DecidableEq

inductive LibraryStep where
  | buffer (count : Nat)
  | handOver (limit : Nat)
  /-- A native write of the buffer fails, and no more than the first `kept` bytes stay in it. -/
  | failHandOver (errno : Errno) (kept : Nat)
  /-- A native write of the data itself, which leaves out the buffer. -/
  | direct (native : Transfer)
  | fetch (size : Nat) (native : Transfer)

namespace FILE

def ofFile (file : OpenFile) : FILE := ⟨file, [], []⟩

/-- The file as the program that uses the stream sees it. -/
def logical (stream : FILE) : OpenFile :=
  let ahead := stream.file.put stream.unwritten
  { ahead with offset := ahead.offset - stream.unread.length }

def handOver (stream : FILE) (limit : Nat) : FILE :=
  { stream with
    file := (stream.file.write stream.unwritten limit).2
    unwritten := stream.unwritten.drop limit }

/-- The buffer after a native write of it has failed. -/
def failHandOver (stream : FILE) (kept : Nat) : FILE :=
  { stream with unwritten := stream.unwritten.take kept }

/-- A native write that has failed, with the number of bytes that were dropped from the buffer. -/
structure Failure where
  errno : Errno
  lost : Nat

def spoil (stream : FILE) (errno : Errno) (kept : Nat) : Failure :=
  ⟨errno, (stream.unwritten.drop kept).length⟩

/-- What is done of the data that `fwrite` is given, and the native write that has failed. -/
structure Written where
  count : Nat
  failure : Option Failure
  stream : FILE

def Written.add (written : Written) (count : Nat) : Written :=
  { written with count := count + written.count }

def Written.lost (written : Written) : Nat := written.failure.elim 0 Failure.lost

def fwrite (stream : FILE) (data : List Byte) (steps : List LibraryStep) : Option Written :=
  if data = [] then some ⟨0, none, stream⟩
  else
    match steps with
    | .buffer count :: steps =>
        (fwrite { stream with unwritten := stream.unwritten ++ data.take count } (data.drop count)
          steps).map fun written => written.add (data.take count).length
    | .handOver limit :: steps => fwrite (stream.handOver limit) data steps
    | .failHandOver errno kept :: _ =>
        some ⟨0, some (stream.spoil errno kept), stream.failHandOver kept⟩
    | .direct (.ok limit) :: steps =>
        if stream.unwritten = [] then
          (fwrite { stream with file := (stream.file.write data limit).2 } (data.drop limit)
            steps).map fun written => written.add (data.take limit).length
        else none
    | .direct (.error errno) :: _ =>
        if stream.unwritten = [] then some ⟨0, some ⟨errno, 0⟩, stream⟩ else none
    | _ => none

/-- The bytes that `fread` has stored, and the error it has met. -/
structure Read where
  data : List Byte
  error : Option Errno
  stream : FILE

/-- The stream when that many bytes have been taken out of its buffer. -/
def drained (stream : FILE) (size : Nat) : FILE :=
  { stream with unread := stream.unread.drop size }

def buffered (stream : FILE) (size : Nat) (error : Option Errno) : Read :=
  ⟨stream.unread.take size, error, stream.drained size⟩

def fread (stream : FILE) (size : Nat) (steps : List LibraryStep) : Option Read :=
  if (stream.unread.take size).length = size then some (stream.buffered size none)
  else
    match steps with
    | .fetch fetched (.ok limit) :: steps =>
        let (data, file) := stream.file.read (max 1 fetched) limit
        if data = [] then some (stream.buffered size none)
        else
          (fread ⟨file, stream.unwritten, data⟩ (size - stream.unread.length) steps).map
            fun read => { read with data := stream.unread ++ read.data }
    | .fetch _ (.error errno) :: _ => some (stream.buffered size (some errno))
    | _ => none

/-- Gives the operating system the rest of the buffer. -/
def fflush (stream : FILE) (steps : List LibraryStep) : Option (Option Failure × FILE) :=
  if stream.unwritten = [] then some (none, stream)
  else
    match steps with
    | .handOver limit :: steps => fflush (stream.handOver limit) steps
    | .failHandOver errno kept :: _ =>
        some (some (stream.spoil errno kept), stream.failHandOver kept)
    | _ => none

def fseeko (stream : FILE) (offset : BitVec 64) (whence : Seek) (steps : List LibraryStep) :
    Option (Option Errno × FILE) :=
  (stream.fflush steps).map fun (failure, stream) =>
    match failure with
    | some failure => (some failure.errno, stream)
    | none =>
        match stream.logical.lseek offset whence with
        | .error errno => (some errno, stream)
        | .ok file => (none, ofFile file)

/-! ### What the library functions do -/

variable {stream : FILE} {data : List Byte} {size : Nat} {steps : List LibraryStep}

/-- What is read ahead is what the file holds there, and a stream does not read and write at once. -/
structure Coherent (stream : FILE) : Prop where
  fits : stream.unread.length ≤ stream.file.offset
  ahead : between stream.file.content (stream.file.offset - stream.unread.length)
    stream.file.offset = stream.unread
  oneWay : stream.unwritten = [] ∨ stream.unread = []

theorem coherent_of_unread_nil (hunread : stream.unread = []) : stream.Coherent :=
  ⟨by rw [hunread]; exact Nat.zero_le _, by rw [hunread, List.length_nil, Nat.sub_zero, between_self],
    Or.inr hunread⟩

@[simp] theorem logical_ofFile {file : OpenFile} : (ofFile file).logical = file := rfl

theorem logical_of_unread_nil (hunread : stream.unread = []) :
    stream.logical = stream.file.put stream.unwritten := by
  rw [logical, hunread]
  rfl

theorem logical_of_unwritten_nil (hunwritten : stream.unwritten = []) :
    stream.logical = ⟨stream.file.content, stream.file.offset - stream.unread.length⟩ := by
  rw [logical, hunwritten]
  rfl

theorem logical_congr {next : FILE}
    (hput : next.file.put next.unwritten = stream.file.put stream.unwritten)
    (hunread : next.unread = stream.unread) : next.logical = stream.logical := by
  rw [logical, logical, hput, hunread]

/-- The bytes in the buffer and those accepted since are in the file or in the buffer now, all but
the last `lost`. -/
def Keeps (stream next : FILE) (accepted : List Byte) (lost : Nat) : Prop :=
  ∃ front back, stream.unwritten ++ accepted = front ++ back ∧ back.length = lost ∧
    next.file.put next.unwritten = stream.file.put front

section Keeps

variable {next : FILE} {front accepted : List Byte} {lost limit kept : Nat} {errno : Errno}

theorem keeps_self : Keeps stream stream [] 0 := ⟨stream.unwritten, [], rfl, rfl, rfl⟩

theorem keeps_failHandOver :
    Keeps stream (stream.failHandOver kept) [] (stream.spoil errno kept).lost := by
  refine ⟨stream.unwritten.take kept, stream.unwritten.drop kept, ?_, rfl, rfl⟩
  rw [List.append_nil, List.take_append_drop]

theorem Keeps.handOver (hkeeps : Keeps (stream.handOver limit) next accepted lost) :
    Keeps stream next accepted lost := by
  obtain ⟨front, back, hsplit, hlost, hput⟩ := hkeeps
  refine ⟨stream.unwritten.take limit ++ front, back, ?_, hlost, ?_⟩
  · rw [List.append_assoc, ← hsplit, ← List.append_assoc]
    exact congrArg (· ++ accepted) (List.take_append_drop limit _).symm
  · rw [hput, ← OpenFile.put_put]
    rfl

theorem Keeps.buffer
    (hkeeps : Keeps { stream with unwritten := stream.unwritten ++ front } next accepted lost) :
    Keeps stream next (front ++ accepted) lost := by
  obtain ⟨kept, back, hsplit, hrest⟩ := hkeeps
  exact ⟨kept, back, by rw [← List.append_assoc, ← hsplit], hrest⟩

theorem Keeps.direct (hempty : stream.unwritten = [])
    (hkeeps : Keeps { stream with file := stream.file.put front } next accepted lost) :
    Keeps stream next (front ++ accepted) lost := by
  obtain ⟨kept, back, hsplit, hlost, hput⟩ := hkeeps
  refine ⟨front ++ kept, back, ?_, hlost, ?_⟩
  · rw [List.append_assoc, ← hsplit]
    simp only [hempty, List.nil_append]
  · rw [hput, OpenFile.put_put]

theorem Keeps.put_eq (hkeeps : Keeps stream next accepted 0) :
    next.file.put next.unwritten = (stream.file.put stream.unwritten).put accepted := by
  obtain ⟨front, back, hsplit, hlost, hput⟩ := hkeeps
  rw [List.length_eq_zero_iff.mp hlost, List.append_nil] at hsplit
  rw [hput, OpenFile.put_put, hsplit]

/-- The file that the program sees is the same when what was accepted has been lost, and no more. -/
theorem Keeps.put_eq_iff (hkeeps : Keeps stream next accepted lost) :
    next.file.put next.unwritten = stream.file.put stream.unwritten ↔ lost = accepted.length := by
  obtain ⟨front, back, hsplit, hlost, hput⟩ := hkeeps
  have hlength : stream.unwritten.length + accepted.length = front.length + lost := by
    rw [← hlost, ← List.length_append, ← List.length_append, hsplit]
  rw [hput]
  constructor
  · intro hsame
    have hoffset := congrArg OpenFile.offset hsame
    simp only [OpenFile.put] at hoffset
    omega
  · intro hall
    rw [(List.append_inj hsplit (by omega)).1]

end Keeps

/-- After `fflush` the buffer is empty, unless a native write has failed. -/
structure Flushes (stream : FILE) (failure : Option Failure) (next : FILE) : Prop where
  keeps : Keeps stream next [] (failure.elim 0 Failure.lost)
  unread : next.unread = stream.unread
  empties : failure = none → next.unwritten = []
  idle : stream.unwritten = [] → failure = none ∧ next = stream

theorem fflush_spec {failure : Option Failure} {next : FILE}
    (hflush : stream.fflush steps = some (failure, next)) : Flushes stream failure next := by
  fun_induction fflush stream steps with
  | case1 stream _ hempty =>
      cases hflush
      exact ⟨keeps_self, rfl, fun _ => hempty, fun _ => ⟨rfl, rfl⟩⟩
  | case2 stream hne limit rest ih =>
      have hrest := ih hflush
      exact ⟨hrest.keeps.handOver, hrest.unread, hrest.empties, fun hempty => absurd hempty hne⟩
  | case3 stream hne errno kept rest =>
      cases hflush
      exact ⟨keeps_failHandOver, rfl, fun hnone => (nomatch hnone), fun hempty => absurd hempty hne⟩
  | case4 => cases hflush

theorem Flushes.logical {next : FILE} (hflushes : Flushes stream none next) :
    next.logical = stream.logical :=
  logical_congr hflushes.keeps.put_eq hflushes.unread

/-- `fwrite` accepts as much of the data as it says, which is all of it unless a native write has
failed. -/
structure Accepts (stream : FILE) (data : List Byte) (written : Written) : Prop where
  count_le : written.count ≤ data.length
  unread : written.stream.unread = []
  keeps : Keeps stream written.stream (data.take written.count) written.lost
  complete_iff : written.failure = none ↔ written.count = data.length

theorem Accepts.add {middle : FILE} {count : Nat} {written : Written}
    (haccepts : Accepts middle (data.drop count) written)
    (hkeeps : ∀ accepted lost, Keeps middle written.stream accepted lost →
      Keeps stream written.stream (data.take count ++ accepted) lost) :
    Accepts stream data (written.add (data.take count).length) := by
  have hlength : data.length = (data.take count).length + (data.drop count).length := by
    rw [← List.length_append, List.take_append_drop]
  have hcount := haccepts.count_le
  refine ⟨?_, haccepts.unread, ?_, ?_⟩
  · simp only [Written.add]
    omega
  · have hall := hkeeps _ _ haccepts.keeps
    rw [← take_length_take_add] at hall
    exact hall
  · simp only [Written.add]
    rw [haccepts.complete_iff]
    omega

theorem Coherent.fflush {failure : Option Failure} {next : FILE} (hcoherent : stream.Coherent)
    (hflush : stream.fflush steps = some (failure, next)) : next.Coherent := by
  have hflushes := fflush_spec hflush
  cases hcoherent.oneWay with
  | inl hunwritten => exact (hflushes.idle hunwritten).2 ▸ hcoherent
  | inr hempty => exact coherent_of_unread_nil (hflushes.unread.trans hempty)

theorem fseeko_eq_none {next : FILE} {offset : BitVec 64} {whence : Seek}
    (hseek : stream.fseeko offset whence steps = some (none, next)) :
    ∃ flushed file, stream.fflush steps = some (none, flushed) ∧
      flushed.logical.lseek offset whence = .ok file ∧ next = ofFile file := by
  obtain ⟨⟨failure, flushed⟩, hflush, hresult⟩ := Option.map_eq_some_iff.mp hseek
  cases failure with
  | some failure => cases hresult
  | none =>
      cases htarget : flushed.logical.lseek offset whence with
      | error errno =>
          simp only [htarget] at hresult
          cases hresult
      | ok file =>
          simp only [htarget] at hresult
          exact ⟨flushed, file, hflush, htarget, (Prod.mk.inj hresult).2.symm⟩

theorem accepts_none {failure : Failure} {next : FILE} (hunread : next.unread = []) (hne : data ≠ [])
    (hkeeps : Keeps stream next [] failure.lost) : Accepts stream data ⟨0, some failure, next⟩ := by
  have hlength : 0 ≠ data.length := fun hzero => hne (List.length_eq_zero_iff.mp hzero.symm)
  exact ⟨Nat.zero_le _, hunread, hkeeps, iff_of_false (by simp) hlength⟩

theorem fwrite_spec {written : Written} (hunread : stream.unread = [])
    (hwrite : stream.fwrite data steps = some written) : Accepts stream data written := by
  fun_induction fwrite stream data steps generalizing written with
  | case1 _ stream =>
      cases hwrite
      exact ⟨Nat.le_refl _, hunread, keeps_self, iff_of_true rfl rfl⟩
  | case2 stream data hne count steps ih =>
      obtain ⟨rest, hrest, rfl⟩ := Option.map_eq_some_iff.mp hwrite
      exact (ih hunread hrest).add fun _ _ hkeeps => hkeeps.buffer
  | case3 stream data hne limit steps ih =>
      have hrest := ih hunread hwrite
      exact ⟨hrest.count_le, hrest.unread, hrest.keeps.handOver, hrest.complete_iff⟩
  | case4 stream data hne errno kept steps =>
      cases hwrite
      exact accepts_none hunread hne keeps_failHandOver
  | case5 stream data hne limit steps hempty ih =>
      obtain ⟨rest, hrest, rfl⟩ := Option.map_eq_some_iff.mp hwrite
      exact (ih hunread hrest).add fun _ _ hkeeps => hkeeps.direct hempty
  | case7 stream data hne errno steps hempty =>
      cases hwrite
      exact accepts_none hunread hne keeps_self
  | case6 | case8 | case9 => cases hwrite

/-- `fread` gives the next bytes of the file that the program sees, and stops early only at the end of
the file or at an error. -/
structure Delivers (stream : FILE) (size : Nat) (read : Read) : Prop where
  coherent : read.stream.Coherent
  unwritten : read.stream.unwritten = []
  count_le : read.data.length ≤ size
  data : read.data = between stream.logical.content stream.logical.offset
    (stream.logical.offset + read.data.length)
  logical : read.stream.logical =
    ⟨stream.logical.content, stream.logical.offset + read.data.length⟩
  complete : read.error = none → read.data.length = size ∨
    stream.logical.content.length ≤ stream.logical.offset + read.data.length

theorem Coherent.buffered (hcoherent : stream.Coherent) (hunwritten : stream.unwritten = [])
    {error : Option Errno} (hcomplete : error = none → (stream.unread.take size).length = size ∨
      stream.logical.content.length ≤ stream.logical.offset + (stream.unread.take size).length) :
    Delivers stream size (stream.buffered size error) := by
  have hfits := hcoherent.fits
  have hlogical := logical_of_unwritten_nil hunwritten
  have hlength : stream.unread.length =
      (stream.unread.take size).length + (stream.unread.drop size).length := by
    rw [← List.length_append, List.take_append_drop]
  have htaken : stream.unread.take size = between stream.file.content
      (stream.file.offset - stream.unread.length)
      (stream.file.offset - stream.unread.length + (stream.unread.take size).length) := by
    have hstop : stream.file.offset - stream.unread.length + (stream.unread.take size).length ≤
        stream.file.offset := by omega
    rw [← take_between hstop, hcoherent.ahead, List.take_eq_take_iff, List.length_take]
    omega
  have hrest : stream.unread.drop size = between stream.file.content
      (stream.file.offset - (stream.unread.drop size).length) stream.file.offset := by
    have hstart : stream.file.offset - (stream.unread.drop size).length =
        stream.file.offset - stream.unread.length + (stream.unread.take size).length := by omega
    rw [hstart, ← drop_between, hcoherent.ahead, List.drop_eq_drop_iff, List.length_take]
    omega
  have hfits' : (stream.unread.drop size).length ≤ stream.file.offset := by omega
  refine ⟨⟨hfits', hrest.symm, Or.inl hunwritten⟩, hunwritten, List.length_take_le _ _, ?_, ?_,
    hcomplete⟩
  · rw [hlogical]
    exact htaken
  · have hoffset : stream.file.offset - (stream.unread.drop size).length =
        stream.file.offset - stream.unread.length + (stream.unread.take size).length := by omega
    calc logical (stream.drained size)
        = ⟨stream.file.content, stream.file.offset - (stream.unread.drop size).length⟩ :=
          logical_of_unwritten_nil hunwritten
      _ = ⟨stream.logical.content, stream.logical.offset + (stream.unread.take size).length⟩ := by
          rw [hlogical, hoffset]

/-- The buffer that a native read has filled, when nothing was left in it. -/
theorem coherent_fetched {data : List Byte} {file : OpenFile} {fetched limit : Nat}
    (hunwritten : stream.unwritten = [])
    (hread : stream.file.read fetched limit = (data, file)) :
    let filled : FILE := ⟨file, stream.unwritten, data⟩
    filled.Coherent ∧ filled.logical = stream.file := by
  obtain ⟨rfl, _, hdata, _⟩ := OpenFile.read_spec hread
  refine ⟨⟨Nat.le_add_left _ _, ?_, Or.inl hunwritten⟩, ?_⟩
  · simp only [Nat.add_sub_cancel_right]
    exact hdata.symm
  · calc logical ⟨{ stream.file with offset := stream.file.offset + data.length },
            stream.unwritten, data⟩
        = ⟨stream.file.content, stream.file.offset + data.length - data.length⟩ :=
          logical_of_unwritten_nil hunwritten
      _ = stream.file := by rw [Nat.add_sub_cancel_right]

/-- The bytes that were left in the buffer, and then those behind them. -/
theorem Delivers.append {middle : FILE} {read : Read} (hcoherent : stream.Coherent)
    (hunwritten : stream.unwritten = []) (hshort : stream.unread.length ≤ size)
    (hmiddle : middle.logical = stream.file)
    (hdelivers : Delivers middle (size - stream.unread.length) read) :
    Delivers stream size { read with data := stream.unread ++ read.data } := by
  have hlogical := logical_of_unwritten_nil hunwritten
  have hfits := hcoherent.fits
  have hcount := hdelivers.count_le
  have hdata := hdelivers.data
  have hnext := hdelivers.logical
  have hcomplete := hdelivers.complete
  have hend : stream.file.offset - stream.unread.length +
      (stream.unread.length + read.data.length) = stream.file.offset + read.data.length := by omega
  rw [hmiddle] at hdata hnext hcomplete
  refine ⟨hdelivers.coherent, hdelivers.unwritten, ?_, ?_, ?_, ?_⟩
  · simp only [List.length_append]
    omega
  · simp only [hlogical, List.length_append, hend]
    have hfront := hcoherent.ahead
    calc stream.unread ++ read.data
        = between stream.file.content (stream.file.offset - stream.unread.length)
            stream.file.offset ++ between stream.file.content stream.file.offset
              (stream.file.offset + read.data.length) := by rw [hfront, ← hdata]
      _ = between stream.file.content (stream.file.offset - stream.unread.length)
            (stream.file.offset + read.data.length) :=
          between_append (Nat.sub_le _ _) (Nat.le_add_right _ _)
  · simp only [hlogical, List.length_append, hend]
    exact hnext
  · simp only [hlogical, List.length_append, hend]
    intro hnone
    exact (hcomplete hnone).imp (fun hfull => by omega) id

theorem fread_spec {read : Read} (hcoherent : stream.Coherent) (hunwritten : stream.unwritten = [])
    (hread : stream.fread size steps = some read) : Delivers stream size read := by
  have hwhole {stream : FILE} {size : Nat} (hshort : (stream.unread.take size).length ≠ size) :
      stream.unread.length ≤ size ∧ stream.unread.take size = stream.unread := by
    rw [List.length_take] at hshort
    exact ⟨by omega, List.take_of_length_le (by omega)⟩
  fun_induction fread stream size steps generalizing read with
  | case1 steps stream size hfull =>
      cases hread
      exact hcoherent.buffered hunwritten fun _ => Or.inl hfull
  | case2 stream size hshort fetched limit steps file hdata =>
      cases hread
      obtain ⟨hle, htake⟩ := hwhole hshort
      obtain ⟨_, _, _, hend⟩ := OpenFile.read_spec hdata
      have hfits := hcoherent.fits
      have hbehind := (hend rfl).resolve_left (by omega)
      refine hcoherent.buffered hunwritten fun _ => Or.inr ?_
      rw [htake, logical_of_unwritten_nil hunwritten]
      simp only
      omega
  | case3 stream size hshort fetched limit steps data file hdata hne ih =>
      obtain ⟨later, hlater, rfl⟩ := Option.map_eq_some_iff.mp hread
      obtain ⟨hfilled, hlogical⟩ := coherent_fetched hunwritten hdata
      exact (ih hfilled hunwritten hlater).append hcoherent hunwritten (hwhole hshort).1 hlogical
  | case4 stream size hshort =>
      cases hread
      exact hcoherent.buffered hunwritten fun hnone => by cases hnone
  | case5 => cases hread

end FILE

namespace BufferedFile

def read (fp : Option FILE) (buffer : List Byte) (steps : List LibraryStep) :
    Option (Except Exception IOResult × List Byte × Option FILE) :=
  match fp with
  | none => some (.error .notOpen, buffer, none)
  | some stream =>
      (stream.fread buffer.length steps).map fun bytesRead =>
        (.ok (.ok bytesRead.data.length), overwrite buffer 0 bytesRead.data, some bytesRead.stream)

def write (fp : Option FILE) (buffer : List Byte) (steps : List LibraryStep) :
    Option (Except Exception IOResult × Option FILE) :=
  match fp with
  | none => some (.error .notOpen, none)
  | some stream =>
      (stream.fwrite buffer steps).map fun bytesWritten =>
        (if bytesWritten.count ≠ buffer.length then
            .error (.ioException (bytesWritten.failure.elim 0 FILE.Failure.errno))
          else .ok (.ok bytesWritten.count), some bytesWritten.stream)

/-- `fseeko` returns zero, and so does this where it has not raised. -/
def seek (fp : Option FILE) (offset : BitVec 64) (whence : Seek) (steps : List LibraryStep) :
    Option (Except Exception Nat × Option FILE) :=
  match fp with
  | none => some (.error .notOpen, none)
  | some stream =>
      (stream.fseeko offset whence steps).map fun (error, stream) =>
        match error with
        | some errno => (.error (.ioException errno), some stream)
        | none => (.ok 0, some stream)

/-- `close`, which does not look at what `fclose` returns. `_fp` becomes null. -/
def closeStream (fp : Option FILE) (steps : List LibraryStep) :
    Option (Except Exception Unit × Option FILE) :=
  match fp with
  | none => some (.ok (), none)
  | some stream => (stream.fflush steps).map fun _ => (.ok (), none)

/-- `flush` is not overridden, and the inherited one works on the descriptor. -/
def flush (fp : Option FILE) (native : Option Errno) : Except Exception Unit :=
  File.flush (fp.map FILE.file) native

end BufferedFile

end Cadence
