import Cadence.Foundation.Blocks
import Cadence.Foundation.Operations
import Cadence.Foundation.Quiescence
import Cadence.Program.Session

/-!
# What the example server answers

A client sends its bytes in whatever pieces it likes, the network delivers them in others, and the
connection takes the response in yet others. None of it shows in the answer: it is the response to each
complete block of ten bytes, in order, and nothing for the bytes behind the last complete block.
-/

namespace Cadence.SessionAnswers

open Program ByteCursor Segment Blocks StepSystem

variable {Reader Writer Buffer : Type} [MemoryReader Reader] [MemoryWriter Writer]
  [ByteCursor Buffer] {alphabet : Base16} {session next : Session Reader Writer}
  {server server' : Server Reader Writer} {stopped : Bool} {moved count length : Nat}
  {ec : Option Errno} {data block answered : List Byte}

def line (alphabet : Base16) (block : List Byte) : List Byte := alphabet.encode block ++ [newline]

/-- All that there is to be sent for what has come in. -/
def owed (alphabet : Base16) (data : List Byte) : List Byte := answers 10 (line alphabet) data

/-- The complete blocks have been answered, and of the next one `moved` bytes have been read. -/
def Collecting (alphabet : Base16) (session : Session Reader Writer) (moved : Nat) : Prop :=
  ∃ answered count, answered.length = 10 * count ∧ session.sent = owed alphabet answered ∧
    session.arrived = answered ++ ((bytes session.writer).take moved ++ session.incoming)

/-- A block has been read, and `moved` bytes of its response have been sent. -/
def Responding (alphabet : Base16) (session : Session Reader Writer) (moved : Nat) : Prop :=
  ∃ answered block count, answered.length = 10 * count ∧ block.length = 10 ∧
    bytes session.reader = line alphabet block ∧
    session.sent = owed alphabet answered ++ (line alphabet block).take moved ∧
    session.arrived = answered ++ block ++ session.incoming

/-- What a phase says about the session. -/
def Accounted (alphabet : Base16) (session : Session Reader Writer) : Phase → Prop
  | .reading view moved =>
      view = ⟨0, 10⟩ ∧ moved < 10 ∧ position session.writer = 0 ∧ Collecting alphabet session moved
  | .readDone none length =>
      length = 10 ∧ position session.writer = 0 ∧ Collecting alphabet session 10
  | .readDone (some _) length =>
      length < 10 ∧ Collecting alphabet session length ∧
        (session.failed = false → session.incoming = [] ∧ session.ended = true)
  | .writing view moved => view = ⟨0, 21⟩ ∧ moved < 21 ∧ Responding alphabet session moved
  | .writeDone none length => length = 21 ∧ Responding alphabet session 21
  | .writeDone (some _) length => session.failed = true ∧ Responding alphabet session length
  | .gone =>
      session.sent <+: owed alphabet session.arrived ∧
        (session.failed = false → session.sent = owed alphabet session.arrived ∧
          session.incoming = [] ∧ session.ended = true)

structure Sound (alphabet : Base16) (session : Session Reader Writer) : Prop where
  inBuffer : (bytes session.writer).length = 10
  outBuffer : (bytes session.reader).length = 21
  cursor : position session.reader = 0
  accounted : Accounted alphabet session session.phase

/-! ### Responses -/

theorem length_line (hblock : block.length = 10) : (line alphabet block).length = 21 := by
  simp [line, Base16.encode, List.length_flatMap, hblock]

theorem owed_block (hanswered : answered.length = 10 * count) (hblock : block.length = 10) :
    owed alphabet (answered ++ block) = owed alphabet answered ++ line alphabet block :=
  answers_block hanswered hblock (by decide)

omit [MemoryReader Reader] in
theorem Collecting.owed_eq (hcollecting : Collecting alphabet session moved) (hmoved : moved < 10)
    (hincoming : session.incoming = []) : session.sent = owed alphabet session.arrived := by
  obtain ⟨answered, count, hlength, hsent, harrived⟩ := hcollecting
  have hrest : ((bytes session.writer).take moved).length < 10 :=
    Nat.lt_of_le_of_lt (List.length_take_le _ _) hmoved
  rw [hsent, harrived, hincoming, List.append_nil, owed, owed, answers_of_lt hlength hrest]

omit [MemoryReader Reader] in
theorem Collecting.sent_within (hcollecting : Collecting alphabet session moved) :
    session.sent <+: owed alphabet session.arrived := by
  obtain ⟨answered, count, _, hsent, harrived⟩ := hcollecting
  rw [hsent, harrived]
  exact answers_within

omit [MemoryWriter Writer] in
theorem Responding.sent_within (hresponding : Responding alphabet session moved) :
    session.sent <+: owed alphabet session.arrived := by
  obtain ⟨answered, block, count, hlength, hblock, _, hsent, harrived⟩ := hresponding
  have hwhole : session.sent <+: owed alphabet (answered ++ block) := by
    rw [hsent, owed_block hlength hblock]
    exact List.prefix_append_right_inj _ |>.mpr (List.take_prefix _ _)
  rw [harrived]
  exact hwhole.trans answers_within

theorem Sound.sent_within (hsound : Sound alphabet session) :
    session.sent <+: owed alphabet session.arrived := by
  have haccounted := hsound.accounted
  cases hphase : session.phase with
  | reading view moved =>
      rw [hphase] at haccounted
      exact haccounted.2.2.2.sent_within
  | readDone ec length =>
      rw [hphase] at haccounted
      cases ec with
      | none => exact haccounted.2.2.sent_within
      | some ec => exact haccounted.2.1.sent_within
  | writing view moved =>
      rw [hphase] at haccounted
      exact haccounted.2.2.sent_within
  | writeDone ec length =>
      rw [hphase] at haccounted
      cases ec with
      | none => exact haccounted.2.sent_within
      | some ec => exact haccounted.2.sent_within
  | gone =>
      rw [hphase] at haccounted
      exact haccounted.1

/-! ### The client -/

omit [MemoryReader Reader] in
theorem Collecting.arrive (hcollecting : Collecting alphabet session moved) :
    Collecting alphabet { session with
      incoming := session.incoming ++ data, arrived := session.arrived ++ data } moved := by
  obtain ⟨answered, count, hlength, hsent, harrived⟩ := hcollecting
  refine ⟨answered, count, hlength, hsent, ?_⟩
  dsimp only
  rw [harrived, List.append_assoc, List.append_assoc]

omit [MemoryWriter Writer] in
theorem Responding.arrive (hresponding : Responding alphabet session moved) :
    Responding alphabet { session with
      incoming := session.incoming ++ data, arrived := session.arrived ++ data } moved := by
  obtain ⟨answered, block, count, hlength, hblock, hbytes, hsent, harrived⟩ := hresponding
  refine ⟨answered, block, count, hlength, hblock, hbytes, hsent, ?_⟩
  dsimp only
  rw [harrived, List.append_assoc]

/-- The client and the network change nothing of what a phase says. -/
theorem Accounted.congr {session' : Session Reader Writer} {phase : Phase}
    (haccounted : Accounted alphabet session phase)
    (hposition : position session'.writer = position session.writer)
    (hcollecting : ∀ moved, Collecting alphabet session moved → Collecting alphabet session' moved)
    (hresponding : ∀ moved, Responding alphabet session moved → Responding alphabet session' moved)
    (hwithin : session.sent <+: owed alphabet session.arrived →
      session'.sent <+: owed alphabet session'.arrived)
    (hfailed : session'.failed = session.failed)
    (hended : session.incoming = [] ∧ session.ended = true →
      (session'.incoming = [] ∧ session'.ended = true) ∧
        owed alphabet session.arrived = owed alphabet session'.arrived ∧
        session'.sent = session.sent) : Accounted alphabet session' phase := by
  cases phase with
  | reading view moved =>
      obtain ⟨hview, hmoved, hstart, hrest⟩ := haccounted
      exact ⟨hview, hmoved, hposition.trans hstart, hcollecting moved hrest⟩
  | readDone ec length =>
      cases ec with
      | none =>
          obtain ⟨hlength, hstart, hrest⟩ := haccounted
          exact ⟨hlength, hposition.trans hstart, hcollecting 10 hrest⟩
      | some ec =>
          obtain ⟨hlength, hrest, hend⟩ := haccounted
          refine ⟨hlength, hcollecting length hrest, fun hnot => ?_⟩
          exact (hended (hend (hfailed.symm.trans hnot))).1
  | writing view moved =>
      obtain ⟨hview, hmoved, hrest⟩ := haccounted
      exact ⟨hview, hmoved, hresponding moved hrest⟩
  | writeDone ec length =>
      cases ec with
      | none => exact ⟨haccounted.1, hresponding 21 haccounted.2⟩
      | some ec => exact ⟨hfailed.trans haccounted.1, hresponding length haccounted.2⟩
  | gone =>
      obtain ⟨hsent, hend⟩ := haccounted
      refine ⟨hwithin hsent, fun hnot => ?_⟩
      obtain ⟨howed, hrest⟩ := hend (hfailed.symm.trans hnot)
      obtain ⟨hrest', hsame, hsent'⟩ := hended hrest
      exact ⟨by rw [hsent', howed, hsame], hrest'⟩

theorem Sound.arrive (hsound : Sound alphabet session) (hended : session.ended = false) :
    Sound alphabet { session with
      incoming := session.incoming ++ data, arrived := session.arrived ++ data } where
  inBuffer := hsound.inBuffer
  outBuffer := hsound.outBuffer
  cursor := hsound.cursor
  accounted := by
    refine hsound.accounted.congr rfl (fun _ h => h.arrive) (fun _ h => h.arrive) ?_ rfl ?_
    · exact fun hwithin => hwithin.trans answers_within
    · rintro ⟨_, htrue⟩
      cases hended.symm.trans htrue

theorem Sound.finish (hsound : Sound alphabet session) :
    Sound alphabet { session with ended := true } where
  inBuffer := hsound.inBuffer
  outBuffer := hsound.outBuffer
  cursor := hsound.cursor
  accounted :=
    hsound.accounted.congr rfl (fun _ h => h) (fun _ h => h) id rfl
      fun hend => ⟨⟨hend.1, rfl⟩, rfl, rfl⟩

theorem Sound.drain (hsound : Sound alphabet session) {room : Nat} :
    Sound alphabet { session with room := room } where
  inBuffer := hsound.inBuffer
  outBuffer := hsound.outBuffer
  cursor := hsound.cursor
  accounted :=
    hsound.accounted.congr rfl (fun _ h => h) (fun _ h => h) id rfl fun hend => ⟨hend, rfl, rfl⟩

/-! ### Reading -/

theorem take_overwrite {l : List Byte} {offset : Nat} (hoffset : offset ≤ l.length) :
    (overwrite l offset data).take (offset + data.length) = l.take offset ++ data := by
  apply List.take_left'
  rw [List.length_append, List.length_take, Nat.min_eq_left hoffset]

omit [MemoryReader Reader] in
theorem Collecting.readSome (hcollecting : Collecting alphabet session moved)
    (hlength : (bytes session.writer).length = 10) (hmoved : moved + count ≤ 10)
    (hcount : count ≤ session.incoming.length) :
    Collecting alphabet (session.readSome ⟨0, 10⟩ moved count) (moved + count) := by
  obtain ⟨answered, blocks, hanswered, hsent, harrived⟩ := hcollecting
  have htaken : (session.incoming.take count).length = count :=
    List.length_take_of_le hcount
  have hfits : moved + (session.incoming.take count).length ≤ (bytes session.writer).length := by
    rw [htaken, hlength]
    exact hmoved
  have hbytes : (bytes (session.readSome ⟨0, 10⟩ moved count).writer).take (moved + count) =
      (bytes session.writer).take moved ++ session.incoming.take count := by
    have hstored := ByteWriter.bytes_store session.writer _ _ hfits
    have htake : (overwrite (bytes session.writer) moved (session.incoming.take count)).take
        (moved + (session.incoming.take count).length) = _ :=
      take_overwrite (Nat.le_trans (Nat.le_add_right _ _) hfits)
    rw [htaken] at htake
    rw [← htake, ← hstored, Program.Session.readSome, Nat.zero_add]
  refine ⟨answered, blocks, hanswered, hsent, ?_⟩
  rw [hbytes, List.append_assoc]
  change session.arrived = answered ++ (_ ++ (_ ++ session.incoming.drop count))
  rw [List.take_append_drop, harrived]

theorem Sound.readSome (hsound : Sound alphabet session) {view : MemoryView}
    (hphase : session.phase = .reading view moved) (hmoved : moved + count ≤ view.length)
    (hcount : count ≤ session.incoming.length) :
    Sound alphabet (session.readSome view moved count) := by
  have haccounted := hsound.accounted
  rw [hphase] at haccounted
  obtain ⟨rfl, hlt, hposition, hcollecting⟩ := haccounted
  have hread := hcollecting.readSome hsound.inBuffer hmoved hcount
  have hposition' : position (session.readSome ⟨0, 10⟩ moved count).writer = 0 :=
    (ByteWriter.position_store session.writer _ _).trans hposition
  have hfits : 0 + moved + (session.incoming.take count).length ≤ (bytes session.writer).length := by
    rw [List.length_take_of_le hcount, hsound.inBuffer, Nat.zero_add]
    exact hmoved
  constructor
  · exact (congrArg List.length (ByteWriter.bytes_store session.writer _ _ hfits)).trans
      ((length_overwrite hfits).trans hsound.inBuffer)
  · exact hsound.outBuffer
  · exact hsound.cursor
  · by_cases hwhole : moved + count = 10
    · have hdone : (session.readSome ⟨0, 10⟩ moved count).phase = .readDone none 10 := if_pos hwhole
      rw [hdone]
      exact ⟨rfl, hposition', hwhole ▸ hread⟩
    · have hmore : (session.readSome ⟨0, 10⟩ moved count).phase =
          .reading ⟨0, 10⟩ (moved + count) := if_neg hwhole
      rw [hmore]
      exact ⟨rfl, Nat.lt_of_le_of_ne hmoved hwhole, hposition', hread⟩

theorem Sound.readEnd (hsound : Sound alphabet session) {view : MemoryView}
    (hphase : session.phase = .reading view moved) (hincoming : session.incoming = [])
    (hended : session.ended = true) :
    Sound alphabet { session with phase := .readDone (some eof) moved } := by
  have haccounted := hsound.accounted
  rw [hphase] at haccounted
  obtain ⟨_, hmoved, _, hcollecting⟩ := haccounted
  exact ⟨hsound.inBuffer, hsound.outBuffer, hsound.cursor, hmoved, hcollecting,
    fun _ => ⟨hincoming, hended⟩⟩

theorem Sound.readFail (hsound : Sound alphabet session) {view : MemoryView} {ec : Errno}
    (hphase : session.phase = .reading view moved) :
    Sound alphabet { session with phase := .readDone (some ec) moved, failed := true } := by
  have haccounted := hsound.accounted
  rw [hphase] at haccounted
  obtain ⟨_, hmoved, _, hcollecting⟩ := haccounted
  exact ⟨hsound.inBuffer, hsound.outBuffer, hsound.cursor, hmoved, hcollecting,
    fun hnot => (nomatch hnot)⟩

/-! ### Responding -/

/-- Two writes that fill the memory from its start. -/
theorem bytes_written_written {writer : Writer} {first second : List Byte}
    (hstart : position writer = 0) (hfill : (bytes writer).length = first.length + second.length) :
    bytes (MemoryWriter.written (MemoryWriter.written writer first) second) = first ++ second := by
  have hfits : position writer + first.length ≤ (bytes writer).length := by omega
  obtain ⟨hbytes, hposition⟩ := MemoryWriter.written_of_le hfits
  rw [hstart, Nat.zero_add] at hposition
  have hfits' : position (MemoryWriter.written writer first) + second.length ≤
      (bytes (MemoryWriter.written writer first)).length := by
    rw [hposition, hbytes, length_overwrite hfits]
    exact Nat.le_of_eq hfill.symm
  obtain ⟨hbytes', _⟩ := MemoryWriter.written_of_le hfits'
  calc bytes (MemoryWriter.written (MemoryWriter.written writer first) second)
      = overwrite (overwrite (bytes writer) 0 first) (0 + first.length) second := by
        rw [hbytes', hbytes, hposition, hstart, Nat.zero_add]
    _ = overwrite (bytes writer) 0 (first ++ second) := overwrite_overwrite (Nat.zero_le _)
    _ = first ++ second := by
        rw [overwrite, List.take_zero, List.nil_append, Nat.zero_add, List.length_append, ← hfill,
          List.drop_length, List.append_nil]

theorem bytes_encodedResponce (alphabet : Base16)
    (hreader : (bytes session.reader).length = 21)
    (hwritten : MemoryWriter.viewWritten session.writer = block) (hblock : block.length = 10) :
    bytes (session.encodedResponce alphabet) = line alphabet block := by
  obtain ⟨hmemory, hstart⟩ := @MemoryWriter.wrapMemory_spec Writer _ (bytes session.reader)
  have hfill : (bytes (MemoryWriter.wrapMemory (bytes session.reader) : Writer)).length =
      (alphabet.encode block).length + [newline].length := by
    rw [hmemory, hreader, ← List.length_append]
    exact (length_line hblock).symm
  rw [Session.encodedResponce, hwritten]
  exact bytes_written_written hstart hfill

/-- Nothing of the buffer has been passed, so the operation is for all of it. -/
theorem asioBuffer_whole {buffer : Buffer} (hposition : position buffer = 0) :
    asioBuffer buffer (remaining buffer) = .ok ⟨0, (bytes buffer).length⟩ := by
  rw [asioBuffer_of_le (Nat.le_refl (remaining buffer)), remaining, hposition, Nat.sub_zero]

theorem phase_respond (hlength : (bytes (session.respond alphabet).reader).length = 21)
    (hposition : position (session.respond alphabet).reader = 0) :
    (session.respond alphabet).phase = .writing ⟨0, 21⟩ 0 := by
  have hview := asioBuffer_whole hposition
  rw [hlength] at hview
  exact congrArg (Session.started .writing .writeDone) hview

omit [MemoryReader Reader] in
theorem phase_doRead (hinBuffer : (bytes session.writer).length = 10) :
    (session.doRead false).phase = .reading ⟨0, 10⟩ 0 := by
  obtain ⟨hbytes, hposition⟩ := MemoryWriter.clear_spec session.writer
  have hview := asioBuffer_whole hposition
  rw [hbytes, hinBuffer] at hview
  exact congrArg (Session.started .reading .readDone) hview

/-- The block in the buffer is answered. -/
theorem sound_respond (hinBuffer : (bytes session.writer).length = 10)
    (houtBuffer : (bytes session.reader).length = 21) (hcursor : position session.reader = 0)
    (hwritten : MemoryWriter.viewWritten session.writer = block) (hblock : block.length = 10)
    (hanswered : answered.length = 10 * count) (hsent : session.sent = owed alphabet answered)
    (harrived : session.arrived = answered ++ block ++ session.incoming) :
    Sound alphabet (session.respond alphabet) := by
  have hmemory := bytes_encodedResponce alphabet houtBuffer hwritten hblock
  have hsame : (bytes (session.encodedResponce alphabet)).length = (bytes session.reader).length := by
    rw [hmemory, length_line hblock, houtBuffer]
  obtain ⟨hbytes, hposition⟩ := MemoryReader.remap_spec session.reader _ hsame
  rw [← Session.reader_respond, hmemory] at hbytes
  rw [← Session.reader_respond, hcursor] at hposition
  have hlength : (bytes (session.respond alphabet).reader).length = 21 := by
    rw [hbytes, length_line hblock]
  have hresponding : Responding alphabet (session.respond alphabet) 0 := by
    refine ⟨answered, block, count, hanswered, hblock, hbytes, ?_, ?_⟩
    · rw [Session.sent_respond, hsent, List.take_zero, List.append_nil]
    · rw [Session.arrived_respond, Session.incoming_respond, harrived]
  refine ⟨hinBuffer, hlength, hposition, ?_⟩
  rw [phase_respond hlength hposition]
  exact ⟨rfl, by decide, hresponding⟩

/-- Everything that has been read is answered. -/
theorem sound_doRead (hinBuffer : (bytes session.writer).length = 10)
    (houtBuffer : (bytes session.reader).length = 21) (hcursor : position session.reader = 0)
    (hanswered : answered.length = 10 * count) (hsent : session.sent = owed alphabet answered)
    (harrived : session.arrived = answered ++ session.incoming) :
    Sound alphabet (session.doRead false) := by
  obtain ⟨hbytes, hposition⟩ := MemoryWriter.clear_spec session.writer
  refine ⟨(congrArg List.length hbytes).trans hinBuffer, houtBuffer, hcursor, ?_⟩
  rw [phase_doRead hinBuffer]
  exact ⟨rfl, by decide, hposition, answered, count, hanswered, hsent, harrived⟩

theorem Sound.readHandler (hsound : Sound alphabet session)
    (hphase : session.phase = .readDone ec length) :
    Sound alphabet (session.readHandler alphabet ec length) := by
  have haccounted := hsound.accounted
  rw [hphase] at haccounted
  cases ec with
  | some ec =>
      obtain ⟨hlength, hcollecting, hend⟩ := haccounted
      rw [Program.Session.readHandler_error]
      refine ⟨hsound.inBuffer, hsound.outBuffer, hsound.cursor, hcollecting.sent_within, ?_⟩
      intro hnot
      obtain ⟨hincoming, hended⟩ := hend hnot
      exact ⟨hcollecting.owed_eq hlength hincoming, hincoming, hended⟩
  | none =>
      obtain ⟨rfl, hstart, answered, count, hanswered, hsent, harrived⟩ := haccounted
      have hfits : position session.writer + 10 ≤ (bytes session.writer).length := by
        exact Nat.le_of_eq (by rw [hstart, hsound.inBuffer])
      obtain ⟨hposition, hbytes⟩ := advanced_of_le hfits
      have hwritten : MemoryWriter.viewWritten (advanced session.writer 10) =
          (bytes session.writer).take 10 := by
        rw [MemoryWriter.viewWritten_eq, hbytes, hposition, hstart]
      have hblock : ((bytes session.writer).take 10).length = 10 :=
        List.length_take_of_le (Nat.le_of_eq hsound.inBuffer.symm)
      rw [Program.Session.readHandler_ok]
      refine sound_respond ?_ hsound.outBuffer hsound.cursor hwritten hblock hanswered hsent ?_
      · exact (congrArg List.length hbytes).trans hsound.inBuffer
      · rw [List.append_assoc]
        exact harrived

/-! ### Writing -/

theorem Sound.writeSome (hsound : Sound alphabet session) {view : MemoryView}
    (hphase : session.phase = .writing view moved) (hmoved : moved + count ≤ view.length) :
    Sound alphabet (session.writeSome view moved count) := by
  have haccounted := hsound.accounted
  rw [hphase] at haccounted
  obtain ⟨rfl, hlt, answered, block, blocks, hanswered, hblock, hbytes, hsent, harrived⟩ := haccounted
  have hpart : session.sent ++ between (bytes session.reader) (0 + moved) (0 + moved + count) =
      owed alphabet answered ++ (line alphabet block).take (moved + count) := by
    rw [hsent, hbytes, Nat.zero_add, between_add, List.append_assoc, List.take_add]
  have hresponding : Responding alphabet (session.writeSome ⟨0, 21⟩ moved count) (moved + count) :=
    ⟨answered, block, blocks, hanswered, hblock, hbytes, hpart, harrived⟩
  refine ⟨hsound.inBuffer, hsound.outBuffer, hsound.cursor, ?_⟩
  by_cases hwhole : moved + count = 21
  · have hdone : (session.writeSome ⟨0, 21⟩ moved count).phase = .writeDone none 21 := if_pos hwhole
    rw [hdone]
    exact ⟨rfl, hwhole ▸ hresponding⟩
  · have hmore : (session.writeSome ⟨0, 21⟩ moved count).phase =
        .writing ⟨0, 21⟩ (moved + count) := if_neg hwhole
    rw [hmore]
    exact ⟨rfl, Nat.lt_of_le_of_ne hmoved hwhole, hresponding⟩

theorem Sound.writeFail (hsound : Sound alphabet session) {view : MemoryView} {ec : Errno}
    (hphase : session.phase = .writing view moved) :
    Sound alphabet { session with phase := .writeDone (some ec) moved, failed := true } := by
  have haccounted := hsound.accounted
  rw [hphase] at haccounted
  exact ⟨hsound.inBuffer, hsound.outBuffer, hsound.cursor, rfl, haccounted.2.2⟩

theorem Sound.writeHandler (hsound : Sound alphabet session)
    (hphase : session.phase = .writeDone ec length) :
    Sound alphabet (session.writeHandler false ec length) := by
  have haccounted := hsound.accounted
  rw [hphase] at haccounted
  cases ec with
  | some ec =>
      obtain ⟨hfailed, hresponding⟩ := haccounted
      rw [Program.Session.writeHandler_error]
      refine ⟨hsound.inBuffer, hsound.outBuffer, hsound.cursor, hresponding.sent_within, ?_⟩
      intro hnot
      cases hfailed.symm.trans hnot
  | none =>
      obtain ⟨rfl, answered, block, count, hanswered, hblock, hbytes, hsent, harrived⟩ := haccounted
      have hfits : position session.reader + 21 ≤ (bytes session.reader).length := by
        exact Nat.le_of_eq (by rw [hsound.cursor, hsound.outBuffer])
      obtain ⟨_, hsame⟩ := advanced_of_le hfits
      have hwhole : session.sent = owed alphabet (answered ++ block) := by
        rw [hsent, owed_block hanswered hblock,
          List.take_of_length_le (Nat.le_of_eq (length_line hblock))]
      have hmore : (answered ++ block).length = 10 * (count + 1) := by
        rw [List.length_append, hanswered, hblock, Nat.mul_succ]
      rw [Program.Session.writeHandler_ok]
      obtain ⟨hbytes', hcursor⟩ := MemoryReader.rewind_spec (advanced session.reader 21)
      refine sound_doRead hsound.inBuffer ?_ hcursor hmore hwhole harrived
      exact (congrArg List.length (hbytes'.trans hsame)).trans hsound.outBuffer

theorem sound_onNewConnection {inBuffer : Fin 10 → Byte} {outBuffer : Fin 21 → Byte} {room : Nat}
    {printed constructed : Option Errno}
    (hcreate : Session.onNewConnection false printed constructed inBuffer outBuffer room = .ok session) :
    Sound alphabet session := by
  unfold Program.Session.onNewConnection at hcreate
  split at hcreate
  next => cases hcreate
  next => cases hcreate
  next =>
    obtain rfl := Except.ok.inj hcreate
    obtain ⟨hwriter, _⟩ := @MemoryWriter.wrapMemory_spec Writer _ (List.ofFn inBuffer)
    obtain ⟨hreader, hcursor⟩ := @MemoryReader.wrapMemory_spec Reader _ (List.ofFn outBuffer)
    have hnothing : ([] : List Byte).length = 10 * 0 := rfl
    refine sound_doRead ?_ ?_ hcursor hnothing rfl rfl
    · exact (congrArg List.length hwriter).trans List.length_ofFn
    · exact (congrArg List.length hreader).trans List.length_ofFn

/-! ### One step of a session -/

/-- What a session comes to by a step. -/
inductive Effect (alphabet : Base16) (session : Session Reader Writer) :
    Session.Action → Session Reader Writer → Prop where
  | arrives (data : List Byte) (hended : session.ended = false) :
      Effect alphabet session (.arrive data) { session with
        incoming := session.incoming ++ data, arrived := session.arrived ++ data }
  | finishes : Effect alphabet session .finish { session with ended := true }
  | drains (count : Nat) :
      Effect alphabet session (.drain count) { session with room := session.room + count }
  | reads {view : MemoryView} {moved : Nat} (count : Nat)
      (hphase : session.phase = .reading view moved) (hpos : 0 < count)
      (hmoved : moved + count ≤ view.length) (hcount : count ≤ session.incoming.length) :
      Effect alphabet session (.readSome count) (session.readSome view moved count)
  | ends {view : MemoryView} {moved : Nat} (hphase : session.phase = .reading view moved)
      (hincoming : session.incoming = []) (hended : session.ended = true) :
      Effect alphabet session .readEnd { session with phase := .readDone (some eof) moved }
  | failsToRead {view : MemoryView} {moved : Nat} (ec : Errno)
      (hphase : session.phase = .reading view moved) :
      Effect alphabet session (.readFail ec) { session with
        phase := .readDone (some ec) moved, failed := true }
  | hasRead {ec : Option Errno} {length : Nat} (hphase : session.phase = .readDone ec length) :
      Effect alphabet session .readHandler (session.readHandler alphabet ec length)
  | writes {view : MemoryView} {moved : Nat} (count : Nat)
      (hphase : session.phase = .writing view moved) (hpos : 0 < count)
      (hmoved : moved + count ≤ view.length) :
      Effect alphabet session (.writeSome count) (session.writeSome view moved count)
  | failsToWrite {view : MemoryView} {moved : Nat} (ec : Errno)
      (hphase : session.phase = .writing view moved) :
      Effect alphabet session (.writeFail ec) { session with
        phase := .writeDone (some ec) moved, failed := true }
  | hasWritten {ec : Option Errno} {length : Nat} (hphase : session.phase = .writeDone ec length) :
      Effect alphabet session .writeHandler (session.writeHandler false ec length)

theorem effect_of_step {action : Session.Action}
    (hstep : session.step alphabet stopped action = some next) :
    Effect alphabet session action next := by
  cases action with
  | arrive data =>
      obtain ⟨hended, hnext⟩ := Option.ite_none_left_eq_some.mp hstep
      exact Option.some.inj hnext ▸ .arrives data (Bool.eq_false_iff.mpr hended)
  | finish => exact Option.some.inj hstep ▸ .finishes
  | drain count => exact Option.some.inj hstep ▸ .drains count
  | readSome count =>
      dsimp only [Session.step] at hstep
      split at hstep
      next view moved hphase =>
        obtain ⟨⟨_, hpos, hmoved, hcount⟩, hnext⟩ := Option.ite_none_right_eq_some.mp hstep
        exact Option.some.inj hnext ▸ .reads count hphase hpos hmoved hcount
      next => cases hstep
  | readEnd =>
      dsimp only [Session.step] at hstep
      split at hstep
      next view moved hphase =>
        obtain ⟨⟨_, hincoming, hended⟩, hnext⟩ := Option.ite_none_right_eq_some.mp hstep
        exact Option.some.inj hnext ▸ .ends hphase hincoming hended
      next => cases hstep
  | readFail ec =>
      dsimp only [Session.step] at hstep
      split at hstep
      next view moved hphase => exact Option.some.inj hstep ▸ .failsToRead ec hphase
      next => cases hstep
  | readHandler =>
      dsimp only [Session.step] at hstep
      split at hstep
      next ec length hphase =>
        obtain ⟨_, hnext⟩ := Option.ite_none_left_eq_some.mp hstep
        exact Option.some.inj hnext ▸ .hasRead hphase
      next => cases hstep
  | writeSome count =>
      dsimp only [Session.step] at hstep
      split at hstep
      next view moved hphase =>
        obtain ⟨⟨_, hpos, hmoved, _⟩, hnext⟩ := Option.ite_none_right_eq_some.mp hstep
        exact Option.some.inj hnext ▸ .writes count hphase hpos hmoved
      next => cases hstep
  | writeFail ec =>
      dsimp only [Session.step] at hstep
      split at hstep
      next view moved hphase => exact Option.some.inj hstep ▸ .failsToWrite ec hphase
      next => cases hstep
  | writeHandler =>
      dsimp only [Session.step] at hstep
      split at hstep
      next ec length hphase =>
        obtain ⟨hrunning, hnext⟩ := Option.ite_none_left_eq_some.mp hstep
        rw [Bool.eq_false_iff.mpr hrunning] at hnext
        exact Option.some.inj hnext ▸ .hasWritten hphase
      next => cases hstep

theorem Sound.step (hsound : Sound alphabet session) {action : Session.Action}
    (hstep : session.step alphabet stopped action = some next) : Sound alphabet next := by
  cases effect_of_step hstep with
  | arrives data hended => exact hsound.arrive hended
  | finishes => exact hsound.finish
  | drains count => exact hsound.drain
  | reads count hphase _ hmoved hcount => exact hsound.readSome hphase hmoved hcount
  | ends hphase hincoming hended => exact hsound.readEnd hphase hincoming hended
  | failsToRead ec hphase => exact hsound.readFail hphase
  | hasRead hphase => exact hsound.readHandler hphase
  | writes count hphase _ hmoved => exact hsound.writeSome hphase hmoved
  | failsToWrite ec hphase => exact hsound.writeFail hphase
  | hasWritten hphase => exact hsound.writeHandler hphase

/-! ### The server -/

/-- Each client has been sent a front part of what it is owed. -/
def Answered (alphabet : Base16) (server : Server Reader Writer) : Prop :=
  ∀ session ∈ server.sessions, session.sent <+: owed alphabet session.arrived

theorem step_session_eq_some {i : Nat} {action : Session.Action}
    (hstep : server.step alphabet (.session i action) = some server') :
    ∃ session next, server.sessions[i]? = some session ∧
      session.step alphabet server.isStopped action = some next ∧
      server' = { server with sessions := server.sessions.set i next } := by
  dsimp only [Server.step] at hstep
  split at hstep
  next => cases hstep
  next session hsession =>
    obtain ⟨next, hnext, rfl⟩ := Option.map_eq_some_iff.mp hstep
    exact ⟨session, next, hsession, hnext, rfl⟩

theorem sound_of_step {action : Server.Action}
    (hall : ∀ session ∈ server.sessions, Sound alphabet session)
    (hstep : server.step alphabet action = some server') :
    ∀ session ∈ server'.sessions, Sound alphabet session := by
  cases action with
  | accept printed constructed inBuffer outBuffer room =>
      obtain ⟨hrunning, hnext⟩ := Option.ite_none_left_eq_some.mp hstep
      obtain rfl := Option.some.inj hnext
      rw [Bool.eq_false_iff.mpr hrunning]
      cases hcreate : (Session.onNewConnection false printed constructed inBuffer outBuffer room :
          Except Errno (Session Reader Writer)) with
      | error ec => exact hall
      | ok session =>
          intro other hother
          rcases List.mem_append.mp hother with hold | hnew
          · exact hall other hold
          · rw [List.mem_singleton.mp hnew]
            exact sound_onNewConnection hcreate
  | stop =>
      obtain ⟨_, hnext⟩ := Option.ite_none_left_eq_some.mp hstep
      obtain rfl := Option.some.inj hnext
      exact hall
  | session i action =>
      obtain ⟨session, next, hsession, hnext, rfl⟩ := step_session_eq_some hstep
      intro other hother
      rcases List.mem_or_eq_of_mem_set hother with hold | rfl
      · exact hall other hold
      · exact (hall session (List.mem_of_getElem? hsession)).step hnext

theorem sound_always (alphabet : Base16) (actions : List Server.Action) :
    Always (Server.step alphabet) (fun server => ∀ session ∈ server.sessions, Sound alphabet session)
      (Server.start : Server Reader Writer) actions :=
  always_of_step (fun _ hsession => (nomatch hsession))
    fun _ _ _ hall hstep => sound_of_step hall hstep

/-- **What the example server answers.** For any number of clients, and however their bytes are cut up
by clients, network and sockets: what a client has been sent is a front part of the responses to the
complete blocks of ten bytes that it has sent, one behind the other and in order. -/
theorem every_client_answered_in_order (alphabet : Base16) (actions : List Server.Action) :
    Always (Server.step alphabet) (Answered alphabet) (Server.start : Server Reader Writer)
      actions :=
  (sound_always alphabet actions).mono fun _ hall session hsession =>
    (hall session hsession).sent_within

/-- The eleventh byte is not answered. -/
example : (run (Server.step ⟨id, id⟩) (Server.start : Server ArrayBuffer ArrayBuffer)
    [.accept none none (fun _ => 0) (fun _ => 0) 30,
      .session 0 (.arrive [1, 2, 3, 4, 5, 6, 7, 8, 9, 8, 7]), .session 0 (.readSome 4),
      .session 0 (.readSome 6), .session 0 .readHandler, .session 0 (.writeSome 20),
      .session 0 (.writeSome 1), .session 0 .writeHandler, .session 0 (.readSome 1)]).map
      (fun server => server.sessions.map Session.sent) =
    some [[1, 1, 2, 2, 3, 3, 4, 4, 5, 5, 6, 6, 7, 7, 8, 8, 9, 9, 8, 8, 10]] := by decide

/-! ### The server at rest -/

/-- An upper bound for the steps that the loop makes in a phase, until it needs more to read. -/
def stepsLeft : Phase → Nat
  | .gone => 0
  | .writeDone (some _) _ => 1
  | .readDone (some _) _ => 2
  | .reading _ _ => 3
  | .writeDone none _ => 10
  | .writing view moved => 30 + (view.length - moved)
  | .readDone none _ => 60

def weight (session : Session Reader Writer) : Nat :=
  100 * session.incoming.length + stepsLeft session.phase

def remainingSteps (server : Server Reader Writer) : Nat := (server.sessions.map weight).sum

omit [MemoryReader Reader] [MemoryWriter Writer] in
/-- A phase with less to do is entered, and nothing comes in. -/
theorem weight_lt {phase phase' : Phase} (hphase : session.phase = phase)
    (hphase' : next.phase = phase') (hincoming : next.incoming = session.incoming)
    (hless : stepsLeft phase' < stepsLeft phase) : weight next < weight session := by
  rw [weight, weight, hphase, hphase', hincoming]
  exact Nat.add_lt_add_left hless _

omit [MemoryReader Reader] in
theorem weight_readSome {view : MemoryView}
    (hphase : session.phase = .reading view moved) (hpos : 0 < count)
    (hcount : count ≤ session.incoming.length) :
    weight (session.readSome view moved count) < weight session := by
  have hincoming : (session.readSome view moved count).incoming.length =
      session.incoming.length - count := List.length_drop
  have hsteps : stepsLeft (session.readSome view moved count).phase ≤ 60 := by
    by_cases hwhole : moved + count = view.length
    · have hdone : (session.readSome view moved count).phase = .readDone none view.length :=
        if_pos hwhole
      rw [hdone, stepsLeft]
    · have hmore : (session.readSome view moved count).phase = .reading view (moved + count) :=
        if_neg hwhole
      rw [hmore, stepsLeft]
      decide
  rw [weight, weight, hincoming, hphase, stepsLeft]
  omega

theorem weight_readHandler (hsound : Sound alphabet session)
    (hphase : session.phase = .readDone ec length) :
    weight (session.readHandler alphabet ec length) < weight session := by
  have hnext := hsound.readHandler hphase
  cases ec with
  | some ec => exact weight_lt hphase rfl rfl (Nat.zero_lt_two)
  | none =>
      rw [Program.Session.readHandler_ok] at hnext ⊢
      have hphase' := phase_respond hnext.outBuffer hnext.cursor
      exact weight_lt hphase hphase' Program.Session.incoming_respond (by decide : 51 < 60)

omit [MemoryWriter Writer] in
theorem weight_writeSome {view : MemoryView} (hphase : session.phase = .writing view moved)
    (hpos : 0 < count) (hmoved : moved + count ≤ view.length) :
    weight (session.writeSome view moved count) < weight session := by
  have hsteps : stepsLeft (session.writeSome view moved count).phase <
      30 + (view.length - moved) := by
    by_cases hwhole : moved + count = view.length
    · have hdone : (session.writeSome view moved count).phase = .writeDone none view.length :=
        if_pos hwhole
      rw [hdone, stepsLeft]
      omega
    · have hmore : (session.writeSome view moved count).phase = .writing view (moved + count) :=
        if_neg hwhole
      rw [hmore, stepsLeft]
      omega
  rw [weight, weight, hphase, stepsLeft]
  exact Nat.add_lt_add_left hsteps _

theorem weight_writeHandler (hsound : Sound alphabet session)
    (hphase : session.phase = .writeDone ec length) :
    weight (session.writeHandler false ec length) < weight session := by
  cases ec with
  | some ec => exact weight_lt hphase rfl rfl Nat.one_pos
  | none =>
      rw [Program.Session.writeHandler_ok]
      have hphase' : (Session.doRead { session with
          reader := MemoryReader.rewind (advanced session.reader length) } false).phase =
            .reading ⟨0, 10⟩ 0 := phase_doRead hsound.inBuffer
      exact weight_lt hphase hphase' rfl (by decide : 3 < 10)

theorem weight_lt_of_loop (hsound : Sound alphabet session) {action : Session.Action}
    (hloop : Session.OfLoop action) (hstep : session.step alphabet stopped action = some next) :
    weight next < weight session := by
  cases effect_of_step hstep with
  | reads count hphase hpos _ hcount => exact weight_readSome hphase hpos hcount
  | ends hphase => exact weight_lt hphase rfl rfl (by decide : 2 < 3)
  | hasRead hphase => exact weight_readHandler hsound hphase
  | writes count hphase hpos hmoved => exact weight_writeSome hphase hpos hmoved
  | hasWritten hphase => exact weight_writeHandler hsound hphase
  | arrives | finishes | drains | failsToRead | failsToWrite => exact hloop.elim

theorem remainingSteps_lt_of_loop (hall : ∀ session ∈ server.sessions, Sound alphabet session)
    {action : Server.Action} (hloop : Server.OfLoop action)
    (hstep : server.step alphabet action = some server') :
    remainingSteps server' < remainingSteps server := by
  cases action with
  | session i action =>
      obtain ⟨session, next, hsession, hnext, rfl⟩ := step_session_eq_some hstep
      have hsound := hall session (List.mem_of_getElem? hsession)
      have hless := weight_lt_of_loop hsound hloop hnext
      have hsum := Operations.sum_map_set weight hsession next
      change (List.map weight (server.sessions.set i next)).sum < (List.map weight server.sessions).sum
      omega
  | accept _ _ _ _ _ | stop => exact hloop.elim

/-- Nothing that can be read or sent is left to be done for the session. -/
def Served (alphabet : Base16) (session : Session Reader Writer) : Prop :=
  session.failed = true ∨
    (session.sent = owed alphabet session.arrived ∧ session.incoming = []) ∨
    ((∃ view moved, session.phase = .writing view moved) ∧ session.room = 0)

theorem served_of_atRest (hsound : Sound alphabet session)
    (hrest : ∀ action, Session.OfLoop action → session.step alphabet false action = none) :
    Served alphabet session := by
  have haccounted := hsound.accounted
  cases hphase : session.phase with
  | reading view moved =>
      rw [hphase] at haccounted
      obtain ⟨rfl, hmoved, _, hcollecting⟩ := haccounted
      have hread := hrest (.readSome 1) trivial
      simp only [Session.step, hphase] at hread
      have hincoming : session.incoming = [] := by
        by_contra hne
        have hpos : 1 ≤ session.incoming.length := List.length_pos_iff.mpr hne
        rw [if_pos ⟨Bool.false_ne_true, Nat.one_pos, hmoved, hpos⟩] at hread
        cases hread
      exact .inr (.inl ⟨hcollecting.owed_eq hmoved hincoming, hincoming⟩)
  | readDone ec length =>
      have hhandler := hrest .readHandler trivial
      simp [Session.step, hphase] at hhandler
  | writing view moved =>
      rw [hphase] at haccounted
      obtain ⟨rfl, hmoved, _⟩ := haccounted
      have hwrite := hrest (.writeSome 1) trivial
      simp only [Session.step, hphase] at hwrite
      refine .inr (.inr ⟨⟨_, _, hphase⟩, ?_⟩)
      by_contra hne
      have hpos : 1 ≤ session.room := Nat.one_le_iff_ne_zero.mpr hne
      rw [if_pos ⟨Bool.false_ne_true, Nat.one_pos, hmoved, hpos⟩] at hwrite
      cases hwrite
  | writeDone ec length =>
      have hhandler := hrest .writeHandler trivial
      simp [Session.step, hphase] at hhandler
  | gone =>
      rw [hphase] at haccounted
      cases hfailed : session.failed with
      | true => exact .inl hfailed
      | false =>
          obtain ⟨howed, hincoming, _⟩ := haccounted.2 hfailed
          exact .inr (.inl ⟨howed, hincoming⟩)

/-- **No client is forgotten.** After any run the loop left to itself comes to rest after a bounded
number of steps. Unless it has been stopped or a new connection has raised, each client has then been
sent the responses to all its complete blocks, or its connection has failed, or has no room for the
response. -/
theorem every_client_served (alphabet : Base16) (actions : List Server.Action) :
    Always (Server.step alphabet) (fun server => ComesToRest (Server.step alphabet) Server.OfLoop
      (fun server => server.loop = .running → ∀ session ∈ server.sessions, Served alphabet session)
      server (remainingSteps server)) (Server.start : Server Reader Writer) actions := by
  refine (sound_always alphabet actions).mono fun server hall => comesToRest remainingSteps
    (fun _ _ _ hall hloop hstep => remainingSteps_lt_of_loop hall hloop hstep)
    (fun _ _ _ hall hstep => sound_of_step hall hstep) ?_ server hall
  intro server hall hrest hrunning session hsession
  obtain ⟨i, hi⟩ := List.getElem?_of_mem hsession
  apply served_of_atRest (hall session hsession)
  intro action hloop
  have hnone := hrest (.session i action) hloop
  have hnot : server.isStopped = false := by simp [Server.isStopped, hrunning]
  simp only [Server.step, hi, hnot, Option.map_eq_none_iff] at hnone
  exact hnone

end Cadence.SessionAnswers
