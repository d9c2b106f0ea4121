import Cadence.Foundation.StepSystem
import Cadence.Io.BufferedFile

/-!
# A buffered file behind a file pointer

A caller that holds a `File` may have been given a `BufferedFile`. Each of its calls is compared with
the call of a plain `File` whose open file is the one that the caller sees, and whose native call fails
just when a native call under the stream has failed.
-/

namespace Cadence.BufferedResults

open Segment StepSystem

inductive Request where
  | read (buffer : List Byte)
  | write (buffer : List Byte)
  | seek (offset : BitVec 64) (whence : Seek)
  | close

inductive Response where
  | read (result : Except Exception IOResult) (buffer : List Byte)
  | write (result : Except Exception IOResult)
  | seek (result : Except Exception Nat)
  | close (result : Except Exception Unit)

abbrev Call := Request × List LibraryStep

def failure : Transfer → Option Errno
  | .error errno => some errno
  | .ok _ => none

/-- The virtual functions of a `File`. Only transfers and seeks fail. -/
def plain (file : Option OpenFile) (native : Transfer) : Request → Response × Option OpenFile
  | .read buffer =>
      let (result, filled, next) := File.read file buffer native
      (.read result filled, next)
  | .write buffer =>
      let (result, next) := File.write file buffer native
      (.write result, next)
  | .seek offset whence =>
      let (result, next) := File.seek file offset whence (failure native)
      (.seek result, next)
  | .close => (.close (.ok ()), none)

/-- The virtual functions of a `BufferedFile`. -/
def buffered (fp : Option FILE) (steps : List LibraryStep) :
    Request → Option (Response × Option FILE)
  | .read buffer =>
      (BufferedFile.read fp buffer steps).map fun (result, filled, next) =>
        (.read result filled, next)
  | .write buffer =>
      (BufferedFile.write fp buffer steps).map fun (result, next) => (.write result, next)
  | .seek offset whence =>
      (BufferedFile.seek fp offset whence steps).map fun (result, next) => (.seek result, next)
  | .close => (BufferedFile.closeStream fp steps).map fun (result, next) => (.close result, next)

/-- The error that a native call under the stream meets. -/
def metError (stream : FILE) (steps : List LibraryStep) : Request → Option Errno
  | .read buffer => (stream.fread buffer.length steps).bind FILE.Read.error
  | .write buffer => (stream.fwrite buffer steps).bind fun written =>
      written.failure.map FILE.Failure.errno
  | .seek _ _ | .close => (stream.fflush steps).bind fun flushed =>
      flushed.1.map FILE.Failure.errno

inductive Direction where
  | reading
  | writing
  deriving DecidableEq

/-- The file and the direction it was used in since the last seek. -/
structure Session where
  fp : Option FILE
  last : Option Direction

namespace Session

def opened (content : List Byte) : Session := ⟨some (.ofFile ⟨content, 0⟩), none⟩

/-- There has to be a seek between a read and a write. -/
def Allows (session : Session) : Request → Prop
  | .read _ => session.last ≠ some .writing
  | .write _ => session.last ≠ some .reading
  | _ => True

instance (session : Session) (request : Request) : Decidable (session.Allows request) := by
  cases request <;> unfold Allows <;> infer_instance

def lastAfter (session : Session) (response : Response) : Option Direction :=
  match response with
  | .read _ _ => some .reading
  | .write _ => some .writing
  | .seek (.ok _) => none
  | .seek (.error _) => session.last
  | .close _ => none

end Session

def step (session : Session) (call : Call) : Option Session :=
  if session.Allows call.1 then
    (buffered session.fp call.2 call.1).map fun (response, fp) => ⟨fp, session.lastAfter response⟩
  else none

def logical (fp : Option FILE) : Option OpenFile := fp.map FILE.logical

/-- The response and the file afterwards are those of a plain `File`, whose native call fails with the
error that a native call under the stream has met, if any. -/
def GivesFileResult (session : Session) (call : Call) (next : Session) : Prop :=
  ∃ response native, buffered session.fp call.2 call.1 = some (response, next.fp) ∧
    plain (logical session.fp) native call.1 = (response, logical next.fp) ∧
    failure native = session.fp.bind fun stream => metError stream call.2 call.1

/-- A seek goes to the start of the file, or a native write has failed and left the buffer whole. -/
def HarmlessSeek (stream : FILE) (offset : BitVec 64) (whence : Seek) : Option FILE.Failure → Prop
  | some failed => failed.lost = 0
  | none => ∀ file, stream.logical.lseek offset whence = .ok file → file.offset = 0

/-- A read meets no error. A native write that fails during a write loses as many bytes as the stream
has accepted of it, and one that fails during a seek loses none. Any other seek goes to the start of
the file where it succeeds. -/
def Harmless (session : Session) (call : Call) : Prop :=
  ∀ stream, session.fp = some stream →
    match call.1 with
    | .read _ => metError stream call.2 call.1 = none
    | .write buffer => ∀ written, stream.fwrite buffer call.2 = some written →
        ∀ failed, written.failure = some failed → failed.lost = written.count
    | .seek offset whence => ∀ failed flushed, stream.fflush call.2 = some (failed, flushed) →
        HarmlessSeek stream offset whence failed
    | .close => True

/-! ### The single calls -/

variable {stream : FILE} {steps : List LibraryStep} {buffer : List Byte}

theorem read_plain_iff {read : FILE.Read} (hdelivers : stream.Delivers buffer.length read) :
    (∃ native, File.read (some stream.logical) buffer native = (.ok (.ok read.data.length),
        overwrite buffer 0 read.data, some read.stream.logical) ∧ failure native = read.error) ↔
      read.error = none := by
  constructor
  · rintro ⟨native, hfile, hfailure⟩
    cases native with
    | error errno => cases hfile
    | ok limit => exact hfailure.symm
  · intro hnone
    have hdata : (stream.logical.content.drop stream.logical.offset).take buffer.length =
        read.data := by
      rw [hdelivers.data, between_add, List.take_eq_take_iff, List.length_drop]
      have hcomplete := hdelivers.complete hnone
      have hcount := hdelivers.count_le
      omega
    have hsize : min buffer.length (max 1 buffer.length) = buffer.length := by omega
    refine ⟨.ok buffer.length, ?_, hnone.symm⟩
    simp only [File.read, OpenFile.read, hsize, hdata, hdelivers.logical]

theorem write_plain_iff {written : FILE.Written} (hunread : stream.unread = [])
    (haccepts : stream.Accepts buffer written) :
    (∃ native, File.write (some stream.logical) buffer native =
        (if written.count ≠ buffer.length then
            .error (.ioException (written.failure.elim 0 FILE.Failure.errno))
          else .ok (.ok written.count), some written.stream.logical) ∧
        failure native = written.failure.map FILE.Failure.errno) ↔
      ∀ failed, written.failure = some failed → failed.lost = written.count := by
  have hcount := haccepts.count_le
  have hlogical : stream.logical = stream.file.put stream.unwritten :=
    FILE.logical_of_unread_nil hunread
  have hlogical' : written.stream.logical =
      written.stream.file.put written.stream.unwritten :=
    FILE.logical_of_unread_nil haccepts.unread
  have hkept := haccepts.keeps
  cases hfailure : written.failure with
  | none =>
      refine iff_of_true ?_ fun failed hfailed => (nomatch hfailed)
      have hwhole := haccepts.complete_iff.mp hfailure
      rw [FILE.Written.lost, hfailure, hwhole, List.take_length] at hkept
      have hput : written.stream.logical = stream.logical.put buffer := by
        rw [hlogical, hlogical']
        exact hkept.put_eq
      refine ⟨.ok buffer.length, ?_, rfl⟩
      rw [if_neg (not_not_intro hwhole), hput, hwhole]
      simp only [File.write, OpenFile.write, List.take_length]
  | some failed =>
      rw [FILE.Written.lost, hfailure] at hkept
      have hsame := hkept.put_eq_iff
      rw [List.length_take, Nat.min_eq_left hcount, ← hlogical, ← hlogical'] at hsame
      have hshort : written.count ≠ buffer.length := fun hwhole => by
        simp [haccepts.complete_iff.mpr hwhole] at hfailure
      constructor
      · rintro ⟨native, hfile, hnative⟩ other hother
        obtain rfl := Option.some.inj hother
        cases native with
        | ok limit => cases hnative
        | error errno => exact hsame.mp (Option.some.inj (Prod.mk.inj hfile).2).symm
      · intro hharmless
        refine ⟨.error failed.errno, ?_, rfl⟩
        rw [if_pos hshort, hsame.mpr (hharmless failed rfl)]
        rfl

/-- What a seek is when the buffer cannot be handed over, which is a buffer of bytes to write. -/
theorem logical_eq_iff_of_failed {failed : FILE.Failure} {flushed : FILE}
    (hcoherent : stream.Coherent) (hflush : stream.fflush steps = some (some failed, flushed)) :
    flushed.logical = stream.logical ↔ failed.lost = 0 := by
  have hflushes := FILE.fflush_spec hflush
  have hunread : stream.unread = [] := hcoherent.oneWay.resolve_left fun hempty =>
    nomatch (hflushes.idle hempty).1
  rw [FILE.logical_of_unread_nil hunread,
    FILE.logical_of_unread_nil (hflushes.unread.trans hunread)]
  exact hflushes.keeps.put_eq_iff

theorem seek_plain_iff {failed : Option FILE.Failure} {flushed : FILE} {offset : BitVec 64}
    {whence : Seek} {result : Except Exception Nat} {fp : Option FILE}
    (hcoherent : stream.Coherent) (hflush : stream.fflush steps = some (failed, flushed))
    (hseek : BufferedFile.seek (some stream) offset whence steps = some (result, fp)) :
    (∃ native, File.seek (some stream.logical) offset whence (failure native) =
        (result, logical fp) ∧ failure native = failed.map FILE.Failure.errno) ↔
      HarmlessSeek stream offset whence failed := by
  simp only [BufferedFile.seek, FILE.fseeko, hflush, Option.map_some] at hseek
  cases failed with
  | some failed =>
      obtain ⟨rfl, rfl⟩ := Prod.mk.inj (Option.some.inj hseek)
      rw [HarmlessSeek, ← logical_eq_iff_of_failed hcoherent hflush]
      constructor
      · rintro ⟨native, hfile, hnative⟩
        rw [hnative] at hfile
        exact (Option.some.inj (Prod.mk.inj hfile).2).symm
      · intro hsame
        refine ⟨.error failed.errno, ?_, rfl⟩
        simp only [File.seek, failure, logical, Option.map_some, hsame]
  | none =>
      have hlogical := (FILE.fflush_spec hflush).logical
      simp only [hlogical] at hseek
      cases htarget : stream.logical.lseek offset whence with
      | error errno =>
          simp only [htarget] at hseek
          obtain ⟨rfl, rfl⟩ := Prod.mk.inj (Option.some.inj hseek)
          refine iff_of_true ⟨.ok 0, ?_, rfl⟩ (by simp [HarmlessSeek, htarget])
          simp only [File.seek, failure, htarget, logical, Option.map_some, hlogical]
      | ok file =>
          simp only [htarget] at hseek
          obtain ⟨rfl, rfl⟩ := Prod.mk.inj (Option.some.inj hseek)
          constructor
          · rintro ⟨native, hfile, hfailure⟩
            rw [hfailure] at hfile
            simp only [Option.map_none, File.seek, htarget, Prod.mk.injEq, Except.ok.injEq] at hfile
            intro file' hfile'
            obtain rfl := Except.ok.inj (htarget.symm.trans hfile')
            exact hfile.1
          · intro hzero
            have hoffset := hzero file htarget
            refine ⟨.ok 0, ?_, rfl⟩
            simp only [File.seek, failure, htarget, hoffset, logical, Option.map_some,
              FILE.logical_ofFile]

/-! ### Runs -/

/-- A stream that was not written to since the last seek has nothing to write, and one that was not
read from has nothing left to read. -/
structure Positioned (last : Option Direction) (stream : FILE) : Prop where
  coherent : stream.Coherent
  unwritten : last ≠ some .writing → stream.unwritten = []
  unread : last ≠ some .reading → stream.unread = []

def Invariant (session : Session) : Prop :=
  ∀ stream, session.fp = some stream → Positioned session.last stream

theorem positioned_ofFile {last : Option Direction} {file : OpenFile} :
    Positioned last (.ofFile file) :=
  ⟨FILE.coherent_of_unread_nil rfl, fun _ => rfl, fun _ => rfl⟩

theorem step_eq_some {session next : Session} {call : Call} (hstep : step session call = some next) :
    session.Allows call.1 ∧ ∃ response, buffered session.fp call.2 call.1 = some (response, next.fp) ∧
      next.last = session.lastAfter response := by
  unfold step at hstep
  split at hstep
  next hallows =>
    obtain ⟨⟨response, fp⟩, hbuffered, rfl⟩ := Option.map_eq_some_iff.mp hstep
    exact ⟨hallows, response, hbuffered, rfl⟩
  next => cases hstep

theorem givesFileResult_of_buffered {session next : Session} {call : Call} {response : Response}
    (hbuffered : buffered session.fp call.2 call.1 = some (response, next.fp)) :
    GivesFileResult session call next ↔
      ∃ native, plain (logical session.fp) native call.1 = (response, logical next.fp) ∧
        failure native = session.fp.bind fun stream => metError stream call.2 call.1 := by
  constructor
  · rintro ⟨response', native, hbuffered', hplain⟩
    obtain rfl := (Prod.mk.inj (Option.some.inj (hbuffered.symm.trans hbuffered'))).1
    exact ⟨native, hplain⟩
  · rintro ⟨native, hplain⟩
    exact ⟨response, native, hbuffered, hplain⟩

theorem plain_of_closed {steps : List LibraryStep} {request : Request} {response : Response}
    {fp : Option FILE} (hbuffered : buffered none steps request = some (response, fp)) :
    plain none (.ok 0) request = (response, logical fp) := by
  cases request <;>
  · obtain ⟨hresponse, hfp⟩ := Prod.mk.inj (Option.some.inj hbuffered)
    rw [← hresponse, ← hfp]
    rfl

/-- What a read of an open stream tells of the stream. -/
theorem buffered_read {stream : FILE} {steps : List LibraryStep} {buffer : List Byte}
    {response : Response} {fp : Option FILE}
    (hbuffered : buffered (some stream) steps (.read buffer) = some (response, fp)) :
    ∃ read, stream.fread buffer.length steps = some read ∧ fp = some read.stream ∧
      response = .read (.ok (.ok read.data.length)) (overwrite buffer 0 read.data) := by
  obtain ⟨_, hcall, hpair⟩ := Option.map_eq_some_iff.mp hbuffered
  obtain ⟨read, hread, rfl⟩ := Option.map_eq_some_iff.mp hcall
  obtain ⟨rfl, rfl⟩ := Prod.mk.inj hpair
  exact ⟨read, hread, rfl, rfl⟩

theorem buffered_write {stream : FILE} {steps : List LibraryStep} {buffer : List Byte}
    {response : Response} {fp : Option FILE}
    (hbuffered : buffered (some stream) steps (.write buffer) = some (response, fp)) :
    ∃ written, stream.fwrite buffer steps = some written ∧ fp = some written.stream ∧
      response = .write (if written.count ≠ buffer.length then
          .error (.ioException (written.failure.elim 0 FILE.Failure.errno))
        else .ok (.ok written.count)) := by
  obtain ⟨_, hcall, hpair⟩ := Option.map_eq_some_iff.mp hbuffered
  obtain ⟨written, hwrite, rfl⟩ := Option.map_eq_some_iff.mp hcall
  obtain ⟨rfl, rfl⟩ := Prod.mk.inj hpair
  exact ⟨written, hwrite, rfl, rfl⟩

theorem harmless_iff {stream : FILE} {last : Option Direction} {call : Call} :
    Harmless ⟨some stream, last⟩ call ↔
      match call.1 with
      | .read _ => metError stream call.2 call.1 = none
      | .write buffer => ∀ written, stream.fwrite buffer call.2 = some written →
          ∀ failed, written.failure = some failed → failed.lost = written.count
      | .seek offset whence => ∀ failed flushed, stream.fflush call.2 = some (failed, flushed) →
          HarmlessSeek stream offset whence failed
      | .close => True := by
  simp only [Harmless, Option.some.injEq, forall_eq']

theorem givesFileResult_iff {session next : Session} {call : Call} (hinvariant : Invariant session)
    (hstep : step session call = some next) :
    GivesFileResult session call next ↔ Harmless session call := by
  obtain ⟨hallows, response, hbuffered, _⟩ := step_eq_some hstep
  rw [givesFileResult_of_buffered hbuffered]
  obtain ⟨fp, last⟩ := session
  obtain ⟨request, steps⟩ := call
  cases fp with
  | none =>
      have hplain := plain_of_closed hbuffered
      exact iff_of_true ⟨.ok 0, hplain, rfl⟩ fun stream hstream => by cases hstream
  | some stream =>
      rw [harmless_iff]
      cases request with
      | read buffer =>
          obtain ⟨read, hread, hfp, rfl⟩ := buffered_read hbuffered
          have hpositioned := hinvariant stream rfl
          have hdelivers := FILE.fread_spec hpositioned.coherent (hpositioned.unwritten hallows) hread
          have hiff := read_plain_iff hdelivers
          simp only [hfp, plain, logical, Option.map_some, Option.bind_some, metError, hread,
            Response.read.injEq, Prod.ext_iff, and_assoc] at hiff ⊢
          exact hiff
      | write buffer =>
          obtain ⟨written, hwrite, hfp, rfl⟩ := buffered_write hbuffered
          have hunread := (hinvariant stream rfl).unread hallows
          have hiff := write_plain_iff hunread (FILE.fwrite_spec hunread hwrite)
          simp only [hfp, plain, logical, Option.map_some, Option.bind_some, metError, hwrite,
            Response.write.injEq, Prod.ext_iff, Option.some.injEq, forall_eq'] at hiff ⊢
          exact hiff
      | seek offset whence =>
          obtain ⟨⟨result, fp⟩, hseek, hpair⟩ := Option.map_eq_some_iff.mp hbuffered
          obtain ⟨rfl, hfp⟩ := Prod.mk.inj hpair
          obtain ⟨_, hfseeko, _⟩ := Option.map_eq_some_iff.mp hseek
          obtain ⟨⟨failed, flushed⟩, hflush, _⟩ := Option.map_eq_some_iff.mp hfseeko
          have hiff := seek_plain_iff (hinvariant stream rfl).coherent hflush hseek
          simp only [← hfp, plain, logical, Option.map_some, Option.bind_some, metError, hflush,
            Response.seek.injEq, Prod.ext_iff, Option.some.injEq, and_imp,
            forall_eq', forall_apply_eq_imp_iff] at hiff ⊢
          exact hiff
      | close =>
          obtain ⟨⟨result, fp⟩, hclose, hpair⟩ := Option.map_eq_some_iff.mp hbuffered
          obtain ⟨⟨failed, flushed⟩, hflush, hresult⟩ := Option.map_eq_some_iff.mp hclose
          obtain ⟨rfl, rfl⟩ := Prod.mk.inj hresult
          obtain ⟨rfl, hfp⟩ := Prod.mk.inj hpair
          refine iff_of_true ?_ trivial
          simp only [← hfp, plain, logical, Option.map_none, Option.bind_some, metError, hflush,
            true_and]
          cases failed with
          | none => exact ⟨.ok 0, rfl⟩
          | some failed => exact ⟨.error failed.errno, rfl⟩

theorem Positioned.seek {last : Option Direction} {stream next : FILE} {offset : BitVec 64}
    {whence : Seek} {steps : List LibraryStep} {result : Except Exception Nat}
    (hpositioned : Positioned last stream)
    (hseek : BufferedFile.seek (some stream) offset whence steps = some (result, some next)) :
    Positioned (Session.lastAfter ⟨some stream, last⟩ (.seek result)) next := by
  obtain ⟨_, hfseeko, hresult⟩ := Option.map_eq_some_iff.mp hseek
  obtain ⟨⟨failed, flushed⟩, hflush, rfl⟩ := Option.map_eq_some_iff.mp hfseeko
  have hflushes := FILE.fflush_spec hflush
  have hflushed : Positioned last flushed := by
    refine ⟨hpositioned.coherent.fflush hflush, fun hlast => ?_, fun hlast => ?_⟩
    · have hunwritten := hpositioned.unwritten hlast
      rw [(hflushes.idle hunwritten).2]
      exact hunwritten
    · exact hflushes.unread.trans (hpositioned.unread hlast)
  cases failed with
  | some failed =>
      obtain ⟨rfl, hnext⟩ := Prod.mk.inj hresult
      exact Option.some.inj hnext ▸ hflushed
  | none =>
      simp only at hresult
      cases htarget : flushed.logical.lseek offset whence with
      | error errno =>
          simp only [htarget] at hresult
          obtain ⟨rfl, hnext⟩ := Prod.mk.inj hresult
          exact Option.some.inj hnext ▸ hflushed
      | ok file =>
          simp only [htarget] at hresult
          obtain ⟨rfl, hnext⟩ := Prod.mk.inj hresult
          exact Option.some.inj hnext ▸ positioned_ofFile

theorem Invariant.step {session next : Session} {call : Call} (hinvariant : Invariant session)
    (hstep : step session call = some next) : Invariant next := by
  obtain ⟨hallows, response, hbuffered, hlast⟩ := step_eq_some hstep
  obtain ⟨fp, last⟩ := session
  obtain ⟨request, steps⟩ := call
  intro reached hreached
  rw [hreached] at hbuffered
  rw [hlast]
  cases fp with
  | none => cases request <;> cases hbuffered
  | some stream =>
      have hpositioned := hinvariant stream rfl
      cases request with
      | read buffer =>
          obtain ⟨read, hread, hfp, rfl⟩ := buffered_read hbuffered
          obtain rfl := Option.some.inj hfp
          have hdelivers := FILE.fread_spec hpositioned.coherent (hpositioned.unwritten hallows) hread
          exact ⟨hdelivers.coherent, fun _ => hdelivers.unwritten, fun hne => absurd rfl hne⟩
      | write buffer =>
          obtain ⟨written, hwrite, hfp, rfl⟩ := buffered_write hbuffered
          obtain rfl := Option.some.inj hfp
          have haccepts := FILE.fwrite_spec (hpositioned.unread hallows) hwrite
          exact ⟨FILE.coherent_of_unread_nil haccepts.unread, fun hne => absurd rfl hne,
            fun _ => haccepts.unread⟩
      | seek offset whence =>
          obtain ⟨⟨result, fp⟩, hseek, hpair⟩ := Option.map_eq_some_iff.mp hbuffered
          obtain ⟨rfl, rfl⟩ := Prod.mk.inj hpair
          exact hpositioned.seek hseek
      | close =>
          obtain ⟨⟨result, fp⟩, hclose, hpair⟩ := Option.map_eq_some_iff.mp hbuffered
          obtain ⟨_, _, hresult⟩ := Option.map_eq_some_iff.mp hclose
          obtain ⟨_, rfl⟩ := Prod.mk.inj hpair
          cases hresult

/-- **Buffered results.** In a run of calls on a `BufferedFile`, each call gives the result that a
plain `File` gives, exactly when every read meets no error, every write that meets one leaves as many
bytes as there were before, every seek that meets one leaves the buffer whole, and every seek that
succeeds goes to the start of the file. -/
theorem givesFileResults_iff_harmless (content : List Byte) (calls : List Call) :
    EachStep step GivesFileResult (.opened content) calls ↔
      Guarded step Harmless (.opened content) calls := by
  apply eachStep_congr Invariant
  · intro stream hstream
    exact Option.some.inj hstream ▸ positioned_ofFile
  · exact fun session call next hinvariant => hinvariant.step
  · exact fun session call next hinvariant => givesFileResult_iff hinvariant

/-- Where the plain `File` returns 2, the buffered one returns 0. -/
theorem not_givesFileResults_of_seek :
    ¬ EachStep step GivesFileResult (.opened [1, 2, 3]) [(.seek 2 .set, [])] := by
  intro hgives
  obtain ⟨response, native, hbuffered, hplain, hfailure⟩ := (hgives _ rfl).1
  obtain rfl : Response.seek (.ok 0) = response := (Prod.mk.inj (Option.some.inj hbuffered)).1
  cases native with
  | error errno => cases hfailure
  | ok limit =>
      have hresult : (.ok 2 : Except Exception Nat) = .ok 0 :=
        Response.seek.inj (Prod.mk.inj hplain).1
      exact absurd (Except.ok.inj hresult) (by decide)

end Cadence.BufferedResults
