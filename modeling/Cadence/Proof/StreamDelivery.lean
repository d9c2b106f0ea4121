import Cadence.Async.StreamSocket
import Cadence.Foundation.Indexed
import Cadence.Foundation.Operations
import Cadence.Foundation.Quiescence

/-!
# What a connection delivers

Operations outstanding together are woven: the bytes of each keep their order, and those of one may
come between those of another. When no write is started before the one in front of it has ended, and
no read, the bytes are one stream, from the writes as they were started to the reads as they were
started.
-/

namespace Cadence.StreamDelivery

open StepSystem ByteCursor Segment Strands Indexed StreamSocket OneWay

variable {Reader Writer Buffer : Type} [ByteCursor Reader] [ByteWriter Writer] [ByteCursor Buffer]

/-- How the operation has ended, whether or not its handler has run. -/
def ended : Progress → Option (Option Errno)
  | .moving => none
  | .done ec | .resolved ec => some ec

/-- An operation that has moved what the journal says, out of its own view. It is a success when that
is all of the view, and only then. -/
structure Sound (journal : List (Nat × Byte)) (i : Nat) (operation : Composed Buffer) : Prop where
  offset : operation.view.offset = position operation.buffer
  fits : position operation.buffer + operation.view.length ≤ (bytes operation.buffer).length
  within : operation.moved ≤ operation.view.length
  short : operation.progress = .moving → operation.moved < operation.view.length
  whole : ∀ ec, ended operation.progress = some ec →
    (ec = none ↔ operation.moved = operation.view.length)
  strand : strand i journal = operation.passed

structure Books (way : OneWay Reader Writer) : Prop where
  conserved : way.accepted.map Prod.snd = way.handed.map Prod.snd ++ way.inFlight
  writes : Each (Sound way.accepted) way.writes
  reads : Each (Sound way.handed) way.reads
  numbersOfWrites : Below way.writes.length way.accepted
  numbersOfReads : Below way.reads.length way.handed

variable {way next : OneWay Reader Writer} {action : Action Reader Writer}

/-! ### The operations of one end -/

section OneEnd

variable {operations : List (Composed Buffer)} {operation changed : Composed Buffer} {journal : List (Nat × Byte)} {isOpen : Bool}
  {i n count : Nat} {data : List Byte}

theorem Sound.of_submit {buffer : Buffer} (hsubmit : Composed.submit isOpen buffer n = some operation)
    (hbelow : Below i journal) : Sound journal i operation := by
  obtain ⟨hn, hmap⟩ := Option.ite_none_right_eq_some.mp hsubmit
  rw [asioBuffer_of_le hn] at hmap
  obtain rfl := Option.some.inj hmap
  constructor
  · rfl
  · exact add_le_of_le_remaining hn
  · exact Nat.zero_le n
  · intro hmoving
    change 0 < n
    by_contra hzero
    obtain rfl : n = 0 := Nat.eq_zero_of_not_pos hzero
    cases hmoving
  · intro ec hended
    change ec = none ↔ 0 = n
    by_cases hn : n = 0
    · obtain rfl : none = ec := by simpa [ended, hn] using hended
      exact iff_of_true rfl hn.symm
    · cases isOpen with
      | true => simp [ended, hn] at hended
      | false =>
          obtain rfl : some EBADF = ec := by simpa [ended, hn] using hended
          exact iff_of_false (fun hnone => (nomatch hnone)) fun hzero => hn hzero.symm
  · rw [strand_of_below hbelow (Nat.le_refl i), Composed.passed]
    exact between_self.symm

omit [ByteCursor Buffer] in
theorem move_eq_some (hmove : operation.move count = some changed) :
    operation.progress = .moving ∧ 0 < count ∧ operation.moved + count ≤ operation.view.length ∧
      changed = { operation with
        moved := operation.moved + count
        progress := if operation.moved + count = operation.view.length then .done none
          else .moving } := by
  obtain ⟨⟨hmoving, hcount, hwithin⟩, hchanged⟩ := Option.ite_none_right_eq_some.mp hmove
  exact ⟨hmoving, hcount, hwithin, (Option.some.inj hchanged).symm⟩

omit [ByteCursor Buffer] in
theorem fail_eq_some {ec : Errno} (hfail : operation.fail ec = some changed) :
    operation.progress = .moving ∧ changed = { operation with progress := .done (some ec) } := by
  obtain ⟨hmoving, hchanged⟩ := Option.ite_none_right_eq_some.mp hfail
  exact ⟨hmoving, (Option.some.inj hchanged).symm⟩

omit [ByteCursor Buffer] in
theorem deliver_eq_some (hdeliver : operation.deliver = some changed) :
    ∃ ec, operation.progress = .done ec ∧
      changed = { operation with progress := .resolved ec } := by
  unfold Composed.deliver at hdeliver
  split at hdeliver
  next ec hdone => exact ⟨ec, hdone, (Option.some.inj hdeliver).symm⟩
  next => cases hdeliver

/-- The others have nothing to do with what one operation moves. -/
theorem Sound.other {j : Nat} (hsound : Sound journal j operation) (hne : i ≠ j) :
    Sound (journal ++ tagged i data) j operation := by
  refine ⟨hsound.offset, hsound.fits, hsound.within, hsound.short, hsound.whole, ?_⟩
  rw [strand_append_tagged_of_ne hne]
  exact hsound.strand

theorem Sound.fail {ec : Errno} (hsound : Sound journal i operation)
    (hfail : operation.fail ec = some changed) : Sound journal i changed := by
  obtain ⟨hmoving, rfl⟩ := fail_eq_some hfail
  refine ⟨hsound.offset, hsound.fits, hsound.within, fun hmoving => (nomatch hmoving),
    fun other hended => ?_, hsound.strand⟩
  obtain rfl : some ec = other := Option.some.inj hended
  exact iff_of_false (fun hnone => (nomatch hnone)) (Nat.ne_of_lt (hsound.short hmoving))

theorem Sound.deliver (hsound : Sound journal i operation)
    (hdeliver : operation.deliver = some changed) : Sound journal i changed := by
  obtain ⟨ec, hdone, rfl⟩ := deliver_eq_some hdeliver
  refine ⟨hsound.offset, hsound.fits, hsound.within, fun hmoving => (nomatch hmoving),
    fun other hended => hsound.whole other ?_, hsound.strand⟩
  rw [hdone]
  exact hended

/-- The operation has moved `data` more, which its buffer has now behind what was there. -/
theorem Sound.move {buffer : Buffer} (hsound : Sound journal i operation)
    (hmove : operation.move count = some changed)
    (hposition : position buffer = position operation.buffer)
    (hlength : (bytes buffer).length = (bytes operation.buffer).length)
    (hpassed : between (bytes buffer) (position operation.buffer)
      (position operation.buffer + (operation.moved + count)) = operation.passed ++ data) :
    Sound (journal ++ tagged i data) i { changed with buffer := buffer } := by
  obtain ⟨_, _, hwithin, rfl⟩ := move_eq_some hmove
  constructor
  · exact hsound.offset.trans hposition.symm
  · change position buffer + operation.view.length ≤ (bytes buffer).length
    rw [hposition, hlength]
    exact hsound.fits
  · exact hwithin
  · intro hmoving
    refine Nat.lt_of_le_of_ne hwithin fun heq => ?_
    dsimp only at hmoving
    rw [if_pos heq] at hmoving
    cases hmoving
  · intro ec hended
    change ec = none ↔ operation.moved + count = operation.view.length
    by_cases hall : operation.moved + count = operation.view.length
    · obtain rfl : none = ec := by simpa [ended, hall] using hended
      exact iff_of_true rfl hall
    · simp [ended, hall] at hended
  · rw [strand_append_tagged_self, hsound.strand, ← hpassed, Composed.passed, hposition]

end OneEnd

/-! ### Both ends -/

theorem Books.connected (more : Nat) : Books (connected more : OneWay Reader Writer) where
  conserved := rfl
  writes _ _ hnone := by cases hnone
  reads _ _ hnone := by cases hnone
  numbersOfWrites _ hitem := by cases hitem
  numbersOfReads _ hitem := by cases hitem

omit [ByteCursor Reader] [ByteWriter Writer] in
theorem onWrite_eq_some {i : Nat} {change : Composed Reader → Option (Composed Reader)}
    (hstep : way.onWrite i change = some next) :
    ∃ operation changed, way.writes[i]? = some operation ∧ change operation = some changed ∧
      next = { way with writes := way.writes.set i changed } := by
  unfold OneWay.onWrite at hstep
  split at hstep
  next => cases hstep
  next operation hget =>
    obtain ⟨changed, hchange, rfl⟩ := Option.map_eq_some_iff.mp hstep
    exact ⟨operation, changed, hget, hchange, rfl⟩

omit [ByteCursor Reader] [ByteWriter Writer] in
theorem onRead_eq_some {i : Nat} {change : Composed Writer → Option (Composed Writer)}
    (hstep : way.onRead i change = some next) :
    ∃ operation changed, way.reads[i]? = some operation ∧ change operation = some changed ∧
      next = { way with reads := way.reads.set i changed } := by
  unfold OneWay.onRead at hstep
  split at hstep
  next => cases hstep
  next operation hget =>
    obtain ⟨changed, hchange, rfl⟩ := Option.map_eq_some_iff.mp hstep
    exact ⟨operation, changed, hget, hchange, rfl⟩

theorem Books.onWrite {i : Nat} {change : Composed Reader → Option (Composed Reader)}
    (hbooks : Books way)
    (hsound : ∀ operation changed, change operation = some changed →
      Sound way.accepted i operation → Sound way.accepted i changed)
    (hstep : way.onWrite i change = some next) : Books next := by
  obtain ⟨operation, changed, hget, hchange, rfl⟩ := onWrite_eq_some hstep
  have hchanged := hsound operation changed hchange (hbooks.writes i operation hget)
  refine ⟨hbooks.conserved, hbooks.writes.set hchanged fun _ _ _ h => h, hbooks.reads, ?_,
    hbooks.numbersOfReads⟩
  rw [List.length_set]
  exact hbooks.numbersOfWrites

theorem Books.onRead {i : Nat} {change : Composed Writer → Option (Composed Writer)}
    (hbooks : Books way)
    (hsound : ∀ operation changed, change operation = some changed →
      Sound way.handed i operation → Sound way.handed i changed)
    (hstep : way.onRead i change = some next) : Books next := by
  obtain ⟨operation, changed, hget, hchange, rfl⟩ := onRead_eq_some hstep
  have hchanged := hsound operation changed hchange (hbooks.reads i operation hget)
  refine ⟨hbooks.conserved, hbooks.writes, hbooks.reads.set hchanged fun _ _ _ h => h,
    hbooks.numbersOfWrites, ?_⟩
  rw [List.length_set]
  exact hbooks.numbersOfReads

omit [ByteWriter Writer] in
theorem writeSome_eq_some {i count : Nat} (hstep : way.writeSome i count = some next) :
    ∃ operation changed data, way.writes[i]? = some operation ∧
      operation.move count = some changed ∧
      data = between (bytes operation.buffer) (operation.view.offset + operation.moved)
        (operation.view.offset + operation.moved + count) ∧
      next = { way with
        writes := way.writes.set i changed
        inFlight := way.inFlight ++ data
        accepted := way.accepted ++ tagged i data } := by
  unfold OneWay.writeSome at hstep
  split at hstep
  next => cases hstep
  next operation hget =>
    obtain ⟨_, hmap⟩ := Option.ite_none_right_eq_some.mp hstep
    obtain ⟨changed, hmove, rfl⟩ := Option.map_eq_some_iff.mp hmap
    exact ⟨operation, changed, _, hget, hmove, rfl, rfl⟩

omit [ByteCursor Reader] in
theorem readSome_eq_some {i count : Nat} (hstep : way.readSome i count = some next) :
    ∃ operation changed, way.reads[i]? = some operation ∧ count ≤ way.inFlight.length ∧
      operation.move count = some changed ∧
      next = { way with
        reads := way.reads.set i { changed with
          buffer := ByteWriter.store operation.buffer
            (operation.view.offset + operation.moved) (way.inFlight.take count) }
        inFlight := way.inFlight.drop count
        handed := way.handed ++ tagged i (way.inFlight.take count) } := by
  unfold OneWay.readSome at hstep
  split at hstep
  next => cases hstep
  next operation hget =>
    obtain ⟨hcount, hmap⟩ := Option.ite_none_right_eq_some.mp hstep
    obtain ⟨changed, hmove, rfl⟩ := Option.map_eq_some_iff.mp hmap
    exact ⟨operation, changed, hget, hcount, hmove, rfl⟩

theorem Books.writeSome {i count : Nat} (hbooks : Books way)
    (hstep : way.writeSome i count = some next) : Books next := by
  obtain ⟨operation, changed, data, hget, hmove, hdata, rfl⟩ := writeSome_eq_some hstep
  obtain ⟨hi, _⟩ := List.getElem?_eq_some_iff.mp hget
  have hsound := hbooks.writes i operation hget
  have hpassed : between (bytes operation.buffer) (position operation.buffer)
      (position operation.buffer + (operation.moved + count)) = operation.passed ++ data := by
    rw [hdata, hsound.offset, Nat.add_assoc, Composed.passed]
    exact (between_append (Nat.le_add_right _ _) (by omega)).symm
  have hchanged : Sound (way.accepted ++ tagged i data) i changed := by
    obtain ⟨_, _, _, rfl⟩ := move_eq_some hmove
    exact hsound.move hmove rfl rfl hpassed
  refine ⟨?_, hbooks.writes.set hchanged fun _ _ hne hother => hother.other hne, hbooks.reads, ?_,
    hbooks.numbersOfReads⟩
  · rw [List.map_append, map_snd_tagged, hbooks.conserved, List.append_assoc]
  · rw [List.length_set]
    exact hbooks.numbersOfWrites.append hi

theorem Books.readSome {i count : Nat} (hbooks : Books way)
    (hstep : way.readSome i count = some next) : Books next := by
  obtain ⟨operation, changed, hget, hcount, hmove, rfl⟩ := readSome_eq_some hstep
  obtain ⟨hi, _⟩ := List.getElem?_eq_some_iff.mp hget
  obtain ⟨_, _, hwithin, _⟩ := move_eq_some hmove
  have hsound := hbooks.reads i operation hget
  have hlength : (way.inFlight.take count).length = count := List.length_take_of_le hcount
  have hroom : operation.view.offset + operation.moved + (way.inFlight.take count).length ≤
      (bytes operation.buffer).length := by
    have hfits := hsound.fits
    rw [hsound.offset, hlength]
    omega
  have hstore := ByteWriter.bytes_store operation.buffer _ _ hroom
  have hpassed : between
      (bytes (ByteWriter.store operation.buffer (operation.view.offset + operation.moved)
        (way.inFlight.take count)))
      (position operation.buffer) (position operation.buffer + (operation.moved + count)) =
      operation.passed ++ way.inFlight.take count := by
    have hoffset := hsound.offset
    have hback := between_overwrite_self hroom
    rw [hlength] at hback
    have hfront : between (overwrite (bytes operation.buffer)
        (operation.view.offset + operation.moved) (way.inFlight.take count))
        (position operation.buffer) (operation.view.offset + operation.moved) =
        operation.passed := by
      rw [between_overwrite_of_le (Nat.le_refl _) (by omega), Composed.passed, hoffset]
    have hstop : position operation.buffer + (operation.moved + count) =
        operation.view.offset + operation.moved + count := by omega
    have hstart : position operation.buffer ≤ operation.view.offset + operation.moved := by omega
    rw [hstore, hstop, ← between_append hstart (Nat.le_add_right _ count), hfront, hback]
  have hchanged := hsound.move hmove (ByteWriter.position_store _ _ _)
    (by rw [hstore, length_overwrite hroom]) hpassed
  refine ⟨?_, hbooks.writes, hbooks.reads.set hchanged fun _ _ hne hother => hother.other hne,
    hbooks.numbersOfWrites, ?_⟩
  · rw [List.map_append, map_snd_tagged, List.append_assoc, List.take_append_drop]
    exact hbooks.conserved
  · rw [List.length_set]
    exact hbooks.numbersOfReads.append hi

theorem Books.of_step (hbooks : Books way) (hstep : step way action = some next) : Books next := by
  cases action with
  | asyncWrite src bytesToWrite =>
      obtain ⟨operation, hsubmit, rfl⟩ := Option.map_eq_some_iff.mp hstep
      have hnew := Sound.of_submit hsubmit hbooks.numbersOfWrites
      refine ⟨hbooks.conserved, hbooks.writes.concat hnew, hbooks.reads, ?_, hbooks.numbersOfReads⟩
      exact hbooks.numbersOfWrites.mono (by simp)
  | asyncRead dest bytesToRead =>
      obtain ⟨operation, hsubmit, rfl⟩ := Option.map_eq_some_iff.mp hstep
      have hnew := Sound.of_submit hsubmit hbooks.numbersOfReads
      refine ⟨hbooks.conserved, hbooks.writes, hbooks.reads.concat hnew, hbooks.numbersOfWrites, ?_⟩
      exact hbooks.numbersOfReads.mono (by simp)
  | closeSource | closeSink | resize more =>
      obtain rfl := Option.some.inj hstep
      exact ⟨hbooks.conserved, hbooks.writes, hbooks.reads, hbooks.numbersOfWrites,
        hbooks.numbersOfReads⟩
  | failWrite i ec => exact hbooks.onWrite (fun _ _ hfail hsound => hsound.fail hfail) hstep
  | failRead i ec => exact hbooks.onRead (fun _ _ hfail hsound => hsound.fail hfail) hstep
  | writeSome i count => exact hbooks.writeSome (Option.ite_none_right_eq_some.mp hstep).2
  | abortWrite i ec =>
      obtain ⟨_, hfails⟩ := Option.ite_none_left_eq_some.mp hstep
      exact hbooks.onWrite (fun _ _ hfail hsound => hsound.fail hfail) hfails
  | readSome i count => exact hbooks.readSome (Option.ite_none_right_eq_some.mp hstep).2
  | abortRead i ec =>
      obtain ⟨_, hfails⟩ := Option.ite_none_left_eq_some.mp hstep
      exact hbooks.onRead (fun _ _ hfail hsound => hsound.fail hfail) hfails
  | readEnd i =>
      obtain ⟨_, hfails⟩ := Option.ite_none_right_eq_some.mp hstep
      exact hbooks.onRead (fun _ _ hfail hsound => hsound.fail hfail) hfails
  | deliverWrite i => exact hbooks.onWrite (fun _ _ hdeliver hsound => hsound.deliver hdeliver) hstep
  | deliverRead i => exact hbooks.onRead (fun _ _ hdeliver hsound => hsound.deliver hdeliver) hstep

theorem books_always (more : Nat) (actions : List (Action Reader Writer)) :
    Always step Books (connected more : OneWay Reader Writer) actions :=
  always_of_step (Books.connected more) fun _ _ _ hbooks hstep => hbooks.of_step hstep

/-! ### All runs -/

/-- The handler has left the buffer as the operation did, with the cursor where the path puts it, and
reports a success of whole operations, and of no others. -/
structure Handled (impl : StreamSocketImpl) (call : Operation) (operation : Composed Buffer)
    (ec : Option Errno) : Prop where
  finished : Finished (impl.transport.Advances call ec) operation.buffer ec operation.moved
    (handler impl call operation ec)
  whole : ec = none ↔ operation.moved = operation.view.length

theorem Sound.handled {journal : List (Nat × Byte)} {i : Nat} {operation : Composed Buffer}
    {ec : Option Errno} (hsound : Sound journal i operation) (impl : StreamSocketImpl)
    (call : Operation) (hresolved : operation.progress = .resolved ec) :
    Handled impl call operation ec where
  finished := by
    have hlength : position operation.buffer + operation.moved ≤ (bytes operation.buffer).length :=
      Nat.le_trans (Nat.add_le_add_left hsound.within _) hsound.fits
    exact impl.transport.finished_finish call ec hlength
  whole := hsound.whole ec (by rw [hresolved, ended])

/-- The bytes of each operation, in their order, are a strand of what the kernel carries. -/
def Woven (impl : StreamSocketImpl) (call : Operation) (journal : List (Nat × Byte)) (i : Nat)
    (operation : Composed Buffer) : Prop :=
  strand i journal = operation.passed ∧
    ∀ ec, operation.progress = .resolved ec → Handled impl call operation ec

structure Conserved (impl : StreamSocketImpl) (way : OneWay Reader Writer) : Prop where
  conserved : way.accepted.map Prod.snd = way.handed.map Prod.snd ++ way.inFlight
  writes : Each (Woven impl .asyncWrite way.accepted) way.writes
  reads : Each (Woven impl .asyncRead way.handed) way.reads

/-- **Nothing is lost.** In every run, with any number of operations outstanding at both ends, what
is accepted from the writes is what is handed to the reads and what is on its way, and it is woven of
the bytes that each write has taken out of its buffer, and each read has put into its own. -/
theorem woven_stream (impl : StreamSocketImpl) (more : Nat)
    (actions : List (Action Reader Writer)) :
    Always step (Conserved impl) (connected more) actions := by
  refine (books_always more actions).mono fun way hbooks => ⟨hbooks.conserved, ?_, ?_⟩
  · intro i operation hget
    have hsound := hbooks.writes i operation hget
    exact ⟨hsound.strand, fun ec hresolved => hsound.handled impl .asyncWrite hresolved⟩
  · intro i operation hget
    have hsound := hbooks.reads i operation hget
    exact ⟨hsound.strand, fun ec hresolved => hsound.handled impl .asyncRead hresolved⟩

/-! ### One operation at a time -/

/-- No operation is started at an end before the one in front of it has ended. -/
def Alone (way : OneWay Reader Writer) : Action Reader Writer → Prop
  | .asyncWrite _ _ => ∀ operation ∈ way.writes, operation.progress ≠ .moving
  | .asyncRead _ _ => ∀ operation ∈ way.reads, operation.progress ≠ .moving
  | _ => True

instance (way : OneWay Reader Writer) (action : Action Reader Writer) :
    Decidable (Alone way action) := by
  cases action <;> unfold Alone <;> infer_instance

/-- What the reads have put into their buffers, and what is on its way, is what the writes have taken
out of theirs. -/
def InOrder (way : OneWay Reader Writer) : Prop :=
  way.writes.flatMap Composed.passed = way.reads.flatMap Composed.passed ++ way.inFlight

def LastMoves (operations : List (Composed Buffer)) : Prop :=
  Each (fun i operation => operation.progress = .moving → i + 1 = operations.length) operations

structure InTurn (way : OneWay Reader Writer) : Prop where
  books : Books way
  accepted : Ordered way.accepted
  handed : Ordered way.handed
  writes : LastMoves way.writes
  reads : LastMoves way.reads

section OneEnd

variable {operations : List (Composed Buffer)} {operation changed : Composed Buffer}
  {journal : List (Nat × Byte)} {i count : Nat}

omit [ByteCursor Buffer] in
theorem LastMoves.concat (halone : ∀ operation ∈ operations, operation.progress ≠ .moving) :
    LastMoves (operations ++ [operation]) := by
  have hold : Each (fun i old => old.progress = .moving →
      i + 1 = (operations ++ [operation]).length) operations :=
    fun i old hget hmoving => absurd hmoving (halone old (List.mem_of_getElem? hget))
  exact hold.concat fun _ => by simp

omit [ByteCursor Buffer] in
theorem LastMoves.set (hlast : LastMoves operations) (hget : operations[i]? = some operation)
    (hmoving : changed.progress = .moving → operation.progress = .moving) :
    LastMoves (operations.set i changed) := by
  have hlength : (operations.set i changed).length = operations.length := List.length_set
  unfold LastMoves
  rw [hlength]
  exact Each.set hlast (fun hmoves => hlast i operation hget (hmoving hmoves)) fun _ _ _ h => h

omit [ByteCursor Buffer] in
theorem moving_of_fail {ec : Errno} (hfail : operation.fail ec = some changed) :
    changed.progress = .moving → operation.progress = .moving :=
  fun _ => (fail_eq_some hfail).1

omit [ByteCursor Buffer] in
theorem moving_of_deliver (hdeliver : operation.deliver = some changed) :
    changed.progress = .moving → operation.progress = .moving := by
  obtain ⟨_, _, rfl⟩ := deliver_eq_some hdeliver
  exact fun hmoving => (nomatch hmoving)

theorem flatMap_passed (heach : Each (Sound journal) operations) :
    ((List.range operations.length).flatMap fun i => strand i journal) =
      operations.flatMap Composed.passed := by
  have hmap : ((List.range operations.length).map fun i => strand i journal) =
      operations.map Composed.passed := by
    refine List.ext_getElem (by simp) fun i hi hi' => ?_
    rw [List.getElem_map, List.getElem_map, List.getElem_range]
    refine (heach i _ ?_).strand
    exact List.getElem?_eq_getElem (by simpa using hi')
  rw [List.flatMap_def, List.flatMap_def, hmap]

end OneEnd

theorem InTurn.inOrder (hturn : InTurn way) : InOrder way := by
  have hbooks := hturn.books
  calc way.writes.flatMap Composed.passed
      = way.accepted.map Prod.snd := by
        rw [← flatMap_passed hbooks.writes, hturn.accepted.eq_strands hbooks.numbersOfWrites]
    _ = way.handed.map Prod.snd ++ way.inFlight := hbooks.conserved
    _ = way.reads.flatMap Composed.passed ++ way.inFlight := by
        rw [hturn.handed.eq_strands hbooks.numbersOfReads, flatMap_passed hbooks.reads]

theorem InTurn.onWrite {i : Nat} {change : Composed Reader → Option (Composed Reader)}
    (hturn : InTurn way) (hbooks : Books next)
    (hmoving : ∀ operation changed, change operation = some changed →
      changed.progress = .moving → operation.progress = .moving)
    (hstep : way.onWrite i change = some next) : InTurn next := by
  obtain ⟨operation, changed, hget, hchange, rfl⟩ := onWrite_eq_some hstep
  exact ⟨hbooks, hturn.accepted, hturn.handed,
    hturn.writes.set hget (hmoving operation changed hchange), hturn.reads⟩

theorem InTurn.onRead {i : Nat} {change : Composed Writer → Option (Composed Writer)}
    (hturn : InTurn way) (hbooks : Books next)
    (hmoving : ∀ operation changed, change operation = some changed →
      changed.progress = .moving → operation.progress = .moving)
    (hstep : way.onRead i change = some next) : InTurn next := by
  obtain ⟨operation, changed, hget, hchange, rfl⟩ := onRead_eq_some hstep
  exact ⟨hbooks, hturn.accepted, hturn.handed, hturn.writes,
    hturn.reads.set hget (hmoving operation changed hchange)⟩

/-- Only the last operation of an end moves bytes, so that their numbers do not decrease. -/
theorem InTurn.of_step (hturn : InTurn way) (hstep : step way action = some next)
    (halone : Alone way action) : InTurn next := by
  have hbooks := hturn.books.of_step hstep
  cases action with
  | asyncWrite src bytesToWrite =>
      obtain ⟨operation, _, rfl⟩ := Option.map_eq_some_iff.mp hstep
      exact ⟨hbooks, hturn.accepted, hturn.handed, LastMoves.concat halone, hturn.reads⟩
  | asyncRead dest bytesToRead =>
      obtain ⟨operation, _, rfl⟩ := Option.map_eq_some_iff.mp hstep
      exact ⟨hbooks, hturn.accepted, hturn.handed, hturn.writes, LastMoves.concat halone⟩
  | closeSource | closeSink | resize more =>
      obtain rfl := Option.some.inj hstep
      exact ⟨hbooks, hturn.accepted, hturn.handed, hturn.writes, hturn.reads⟩
  | failWrite i ec => exact hturn.onWrite hbooks (fun _ _ hfail => moving_of_fail hfail) hstep
  | failRead i ec => exact hturn.onRead hbooks (fun _ _ hfail => moving_of_fail hfail) hstep
  | writeSome i count =>
      obtain ⟨_, hwrite⟩ := Option.ite_none_right_eq_some.mp hstep
      obtain ⟨operation, changed, data, hget, hmove, _, rfl⟩ := writeSome_eq_some hwrite
      have hmoving := (move_eq_some hmove).1
      have hbelow : Below (i + 1) way.accepted := by
        rw [hturn.writes i operation hget hmoving]
        exact hturn.books.numbersOfWrites
      exact ⟨hbooks, hturn.accepted.append hbelow, hturn.handed,
        hturn.writes.set hget fun _ => hmoving, hturn.reads⟩
  | abortWrite i ec =>
      obtain ⟨_, hfails⟩ := Option.ite_none_left_eq_some.mp hstep
      exact hturn.onWrite hbooks (fun _ _ hfail => moving_of_fail hfail) hfails
  | readSome i count =>
      obtain ⟨_, hread⟩ := Option.ite_none_right_eq_some.mp hstep
      obtain ⟨operation, changed, hget, _, hmove, rfl⟩ := readSome_eq_some hread
      have hmoving := (move_eq_some hmove).1
      have hbelow : Below (i + 1) way.handed := by
        rw [hturn.reads i operation hget hmoving]
        exact hturn.books.numbersOfReads
      exact ⟨hbooks, hturn.accepted, hturn.handed.append hbelow, hturn.writes,
        hturn.reads.set hget fun _ => hmoving⟩
  | abortRead i ec =>
      obtain ⟨_, hfails⟩ := Option.ite_none_left_eq_some.mp hstep
      exact hturn.onRead hbooks (fun _ _ hfail => moving_of_fail hfail) hfails
  | readEnd i =>
      obtain ⟨_, hfails⟩ := Option.ite_none_right_eq_some.mp hstep
      exact hturn.onRead hbooks (fun _ _ hfail => moving_of_fail hfail) hfails
  | deliverWrite i =>
      exact hturn.onWrite hbooks (fun _ _ hdeliver => moving_of_deliver hdeliver) hstep
  | deliverRead i =>
      exact hturn.onRead hbooks (fun _ _ hdeliver => moving_of_deliver hdeliver) hstep

/-- **One stream.** In every run that starts no operation at an end before the one in front of it has
ended, the reads get the bytes of the writes in the order in which they were started, whatever parts
of them are moved at a time and whichever operations fail in between. -/
theorem delivered_in_order (more : Nat) (actions : List (Action Reader Writer))
    (halone : Guarded step Alone (connected more) actions) :
    Always step InOrder (connected more) actions := by
  have hstart : InTurn (connected more : OneWay Reader Writer) :=
    ⟨Books.connected more, List.Pairwise.nil, List.Pairwise.nil,
      fun _ _ hnone => (nomatch hnone), fun _ _ hnone => (nomatch hnone)⟩
  have hturn := always_of_guarded hstart
    (fun _ _ _ hturn hstep halone => hturn.of_step hstep halone) halone
  exact hturn.mono fun _ hturn => hturn.inOrder

/-- A write of two bytes and a read, a byte at a time. -/
theorem delivered_in_order_byteByByte :
    Always step InOrder (connected 0 : OneWay ArrayBuffer ArrayBuffer)
      [.asyncWrite ⟨[7, 8], 0, by decide⟩ 2, .writeSome 0 1, .asyncRead ⟨[0, 0], 0, by decide⟩ 2,
        .readSome 0 1, .writeSome 0 1, .readSome 0 1, .deliverWrite 0, .deliverRead 0] :=
  delivered_in_order 0 _ (by decide)

/-- The bytes of two writes that are started together may be woven. -/
example : (run step (connected 3 : OneWay ArrayBuffer ArrayBuffer)
    [.asyncWrite ⟨[1, 2], 0, by decide⟩ 2, .asyncWrite ⟨[8, 9], 0, by decide⟩ 2, .writeSome 0 1,
      .writeSome 1 2, .writeSome 0 1]).map OneWay.inFlight = some [1, 8, 9, 2] := by decide

/-! ### The loops on their own -/

structure Rested (way : OneWay Reader Writer) : Prop where
  handledWrites : ∀ operation ∈ way.writes, ∀ ec, operation.progress ≠ .done ec
  handledReads : ∀ operation ∈ way.reads, ∀ ec, operation.progress ≠ .done ec
  starved : ∀ operation ∈ way.reads, operation.progress = .moving →
    way.inFlight = [] ∧ (∀ other ∈ way.writes, other.progress ≠ .moving) ∧
      way.sourceOpen = true ∧ way.sinkOpen = true
  full : ∀ operation ∈ way.writes, operation.progress = .moving →
    way.capacity ≤ way.inFlight.length ∧ way.sourceOpen = true ∧ way.sinkOpen = true

def stepsLeft : Progress → Nat
  | .moving => 2
  | .done _ => 1
  | .resolved _ => 0

def remaining (operation : Composed Buffer) : Nat :=
  operation.view.length - operation.moved + stepsLeft operation.progress

def remainingSteps (way : OneWay Reader Writer) : Nat :=
  (way.writes.map remaining).sum + (way.reads.map remaining).sum

section OneEnd

variable {operations : List (Composed Buffer)} {operation changed : Composed Buffer} {i count : Nat}

end OneEnd

theorem AtRest.not_done (hrest : AtRest step OfLoop way) :
    (∀ operation ∈ way.writes, ∀ ec, operation.progress ≠ .done ec) ∧
      ∀ operation ∈ way.reads, ∀ ec, operation.progress ≠ .done ec := by
  constructor
  · intro operation hmem ec hdone
    obtain ⟨i, hget⟩ := List.getElem?_of_mem hmem
    have hnone := hrest (.deliverWrite i) trivial
    simp [step, OneWay.onWrite, hget, Composed.deliver, hdone] at hnone
  · intro operation hmem ec hdone
    obtain ⟨i, hget⟩ := List.getElem?_of_mem hmem
    have hnone := hrest (.deliverRead i) trivial
    simp [step, OneWay.onRead, hget, Composed.deliver, hdone] at hnone

/-- A write that is left has both ends open and no room. -/
theorem Books.full (hbooks : Books way) (hrest : AtRest step OfLoop way)
    {operation : Composed Reader} (hmem : operation ∈ way.writes)
    (hmoving : operation.progress = .moving) :
    way.capacity ≤ way.inFlight.length ∧ way.sourceOpen = true ∧ way.sinkOpen = true := by
  obtain ⟨i, hget⟩ := List.getElem?_of_mem hmem
  have hshort := (hbooks.writes i operation hget).short hmoving
  have hopen : way.sourceOpen = true ∧ way.sinkOpen = true := by
    by_contra hclosed
    have hnone := hrest (.abortWrite i EBADF) trivial
    simp only [step, if_neg hclosed] at hnone
    simp [OneWay.onWrite, hget, Composed.fail, hmoving] at hnone
  refine ⟨?_, hopen⟩
  by_contra hroom
  have hone : way.inFlight.length + 1 ≤ way.capacity := by omega
  have hnone := hrest (.writeSome i 1) trivial
  simp only [step, hopen.1, if_true] at hnone
  simp [OneWay.writeSome, hget, hone, Composed.move, hmoving] at hnone
  omega

theorem Books.starved (hbooks : Books way) (hrest : AtRest step OfLoop way)
    {operation : Composed Writer} (hmem : operation ∈ way.reads)
    (hmoving : operation.progress = .moving) :
    way.inFlight = [] ∧ way.sourceOpen = true ∧ way.sinkOpen = true := by
  obtain ⟨i, hget⟩ := List.getElem?_of_mem hmem
  have hshort := (hbooks.reads i operation hget).short hmoving
  have hsink : way.sinkOpen = true := by
    by_contra hclosed
    have hnone := hrest (.abortRead i EBADF) trivial
    simp only [step, if_neg hclosed] at hnone
    simp [OneWay.onRead, hget, Composed.fail, hmoving] at hnone
  have hempty : way.inFlight = [] := by
    by_contra hne
    have hone : 1 ≤ way.inFlight.length := List.length_pos_iff.mpr hne
    have hnone := hrest (.readSome i 1) trivial
    simp only [step, hsink, if_true] at hnone
    simp [OneWay.readSome, hget, hone, Composed.move, hmoving] at hnone
    omega
  have hsource : way.sourceOpen = true := by
    by_contra hclosed
    have hfalse : way.sourceOpen = false := Bool.eq_false_iff.mpr hclosed
    have hnone := hrest (.readEnd i) trivial
    simp only [step, hfalse, hempty, and_self, if_true] at hnone
    simp [OneWay.onRead, hget, Composed.fail, hmoving] at hnone
  exact ⟨hempty, hsource, hsink⟩

theorem Books.rested (hbooks : Books way) (hrest : AtRest step OfLoop way) : Rested way where
  handledWrites := (AtRest.not_done hrest).1
  handledReads := (AtRest.not_done hrest).2
  full operation hmem hmoving := hbooks.full hrest hmem hmoving
  starved operation hmem hmoving := by
    obtain ⟨hempty, hsource, hsink⟩ := hbooks.starved hrest hmem hmoving
    refine ⟨hempty, fun other hother hwrites => ?_, hsource, hsink⟩
    -- a connection that carries nothing has room
    have hfull := (hbooks.full hrest hother hwrites).1
    rw [hempty] at hfull
    exact absurd hfull (Nat.not_le.mpr way.capacity_pos)

end Cadence.StreamDelivery
