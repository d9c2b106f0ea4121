import Cadence.Async.Pipe
import Cadence.Foundation.Quiescence

/-!
# What goes into a pipe comes out of it

Any number of reads and writes may be outstanding on a pipe, and the handlers may run in any order. The
bytes are a stream all the same: what the writes have taken out of their buffers, in the order in which
the writes were started, is what the reads have put into theirs, in the same sense, and what is still
in the pipe.
-/

namespace Cadence.PipeStream

open StepSystem Operations ByteCursor Segment Pipe

variable {Reader Writer Buffer : Type} [ByteCursor Reader] [ByteWriter Writer] [ByteCursor Buffer]

/-- The bytes that an operation has moved. -/
def chunk (entry : Entry (ChannelTransfer Buffer) Moved) : List Byte :=
  match entry.status.outcome with
  | some moved => moved.data
  | none => []

structure Sound (isOpen : Bool) (entry : Entry (ChannelTransfer Buffer) Moved) : Prop where
  offset : entry.op.view.offset = position entry.op.buffer
  fits : position entry.op.buffer + entry.op.view.length ≤ (bytes entry.op.buffer).length
  within : (chunk entry).length ≤ entry.op.view.length
  waits : entry.status.isWaiting = true → isOpen = true ∧ 0 < entry.op.view.length

structure Books (pipe : Pipe Reader Writer) : Prop where
  conserved : Table.stream chunk pipe.writes =
    Table.stream chunk pipe.reads ++ pipe.buffer.content
  readsInOrder : Table.InOrder chunk pipe.reads
  writesInOrder : Table.InOrder chunk pipe.writes
  reads : ∀ entry ∈ pipe.reads, Sound pipe.isOpen entry
  writes : ∀ entry ∈ pipe.writes, Sound pipe.isOpen entry
  taken : ∀ entry ∈ pipe.writes, chunk entry = entry.op.front (chunk entry).length

variable {pipe next : Pipe Reader Writer} {action : Action Reader Writer}

/-! ### One end -/

variable {isOpen : Bool} {entry : Entry (ChannelTransfer Buffer) Moved}

theorem submit_eq_some {buffer : Buffer} {n : Nat} (hsubmit : submit isOpen buffer n = some entry) :
    Sound isOpen entry ∧ chunk entry = [] := by
  obtain ⟨hn, hmap⟩ := Option.ite_none_right_eq_some.mp hsubmit
  rw [asioBuffer_of_le hn] at hmap
  obtain rfl : ⟨⟨buffer, ⟨position buffer, n⟩⟩, started isOpen n⟩ = entry := Option.some.inj hmap
  have hchunk : chunk (⟨⟨buffer, ⟨position buffer, n⟩⟩, started isOpen n⟩ :
      Entry (ChannelTransfer Buffer) Moved) = [] := by
    unfold started
    split
    · rfl
    · split <;> rfl
  refine ⟨⟨rfl, add_le_of_le_remaining hn, ?_, fun hwaiting => ?_⟩, hchunk⟩
  · rw [hchunk]
    exact Nat.zero_le _
  · unfold started at hwaiting
    split at hwaiting
    next => cases hwaiting
    next hpositive =>
      split at hwaiting
      next hopen => exact ⟨hopen, Nat.pos_of_ne_zero hpositive⟩
      next => cases hwaiting

theorem Sound.complete {op : ChannelTransfer Buffer} {moved : Moved}
    (hsound : Sound isOpen ⟨op, .waiting⟩) (hlength : moved.data.length ≤ op.view.length) : Sound isOpen ⟨op, .ready moved⟩ :=
  ⟨hsound.offset, hsound.fits, hlength, fun hwaiting => by cases hwaiting⟩

theorem Sound.deliver {op : ChannelTransfer Buffer} {moved : Moved}
    (hsound : Sound isOpen ⟨op, .ready moved⟩) : Sound isOpen ⟨op, .resolved moved⟩ :=
  ⟨hsound.offset, hsound.fits, hsound.within, fun hwaiting => by cases hwaiting⟩

/-- Operations that do not wait are sound however the end is. -/
theorem Sound.of_not_waiting {isOpen' : Bool} (hsound : Sound isOpen entry)
    (hdone : entry.status.isWaiting = false) : Sound isOpen' entry :=
  ⟨hsound.offset, hsound.fits, hsound.within, fun hwaiting => by cases hdone.symm.trans hwaiting⟩

theorem sound_cancelAll {table : Table (ChannelTransfer Buffer) Moved} {isOpen' : Bool}
    (hall : ∀ entry ∈ table, Sound isOpen entry) :
    ∀ entry ∈ table.completeAll fun _ => .error ECANCELED, Sound isOpen' entry := by
  intro entry hentry
  have hsound : Sound isOpen entry :=
    Table.forall_complete hall (fun _ hwait => hwait.complete (Nat.zero_le _)) entry hentry
  exact hsound.of_not_waiting (Table.isWaiting_completeAll hentry)

omit [ByteCursor Buffer] in
theorem stream_cancelAll (table : Table (ChannelTransfer Buffer) Moved) :
    Table.stream chunk (table.completeAll fun _ => .error ECANCELED) = Table.stream chunk table :=
  Table.stream_complete (fun _ => rfl) fun _ => rfl

/-! ### Both ends -/

theorem Books.create (more : Nat) : Books (Pipe.create more : Pipe Reader Writer) where
  conserved := rfl
  readsInOrder := List.Pairwise.nil
  writesInOrder := List.Pairwise.nil
  reads _ hentry := by cases hentry
  writes _ hentry := by cases hentry
  taken _ hentry := by cases hentry

theorem Books.cancelAll (hbooks : Books pipe) (isOpen : Bool) :
    Books { pipe.cancelAll with isOpen := isOpen } where
  conserved := by
    rw [Pipe.cancelAll, stream_cancelAll, stream_cancelAll]
    exact hbooks.conserved
  readsInOrder := hbooks.readsInOrder.complete
  writesInOrder := hbooks.writesInOrder.complete
  reads := sound_cancelAll hbooks.reads
  writes := sound_cancelAll hbooks.writes
  taken := Table.forall_complete hbooks.taken fun _ _ => by
    simp [chunk, Status.outcome, Moved.data, ChannelTransfer.front]

theorem PipeBuffer.change_eq_some {content : List Byte} {room : Nat} {buffer : PipeBuffer}
    (hchange : PipeBuffer.change content room = some buffer) : buffer.content = content := by
  unfold PipeBuffer.change at hchange
  split at hchange
  next => rw [← Option.some.inj hchange]
  next => cases hchange

theorem Books.readSome {room : Nat} (hbooks : Books pipe) (hread : pipe.readSome room = some next) :
    Books next := by
  unfold Pipe.readSome at hread
  split at hread
  next => cases hread
  next transfer hfirst =>
    obtain ⟨_, hmap⟩ := Option.ite_none_left_eq_some.mp hread
    obtain ⟨buffer, hchange, rfl⟩ := Option.map_eq_some_iff.mp hmap
    have hwaiting := hbooks.reads _ (Table.mem_of_firstWaiting hfirst)
    have hmoved := hbooks.readsInOrder.stream_complete_one
      (fun _ => .ok (pipe.buffer.content.take transfer.view.length)) (fun _ => rfl) hfirst
    refine ⟨?_, hbooks.readsInOrder.complete, hbooks.writesInOrder, ?_, hbooks.writes,
      hbooks.taken⟩
    · calc Table.stream chunk pipe.writes
          = Table.stream chunk pipe.reads ++ (pipe.buffer.content.take transfer.view.length ++
              pipe.buffer.content.drop transfer.view.length) := by
            rw [List.take_append_drop, hbooks.conserved]
        _ = _ := by
            rw [hmoved, PipeBuffer.change_eq_some hchange, ← List.append_assoc]
            rfl
    · refine Table.forall_complete_one hbooks.reads hfirst (hwaiting.complete ?_)
      exact List.length_take_le _ _

theorem Books.writeSome {length room : Nat} (hbooks : Books pipe)
    (hwrite : pipe.writeSome length room = some next) : Books next := by
  unfold Pipe.writeSome at hwrite
  split at hwrite
  next => cases hwrite
  next transfer hfirst =>
    obtain ⟨⟨_, hlength, _⟩, hmap⟩ := Option.ite_none_right_eq_some.mp hwrite
    obtain ⟨buffer, hchange, rfl⟩ := Option.map_eq_some_iff.mp hmap
    have hwaiting := hbooks.writes _ (Table.mem_of_firstWaiting hfirst)
    have hfront : (transfer.front length).length = length :=
      ChannelTransfer.length_front hwaiting.offset (Nat.le_trans (Nat.add_le_add_left hlength _) hwaiting.fits)
    have hmoved := hbooks.writesInOrder.stream_complete_one
      (fun _ => .ok (transfer.front length)) (fun _ => rfl) hfirst
    refine ⟨?_, hbooks.readsInOrder, hbooks.writesInOrder.complete, hbooks.reads, ?_, ?_⟩
    · calc Table.stream chunk (pipe.writes.complete (fun _ => .ok (transfer.front length)) 1)
          = Table.stream chunk pipe.reads ++ pipe.buffer.content ++ transfer.front length := by
            rw [hmoved, hbooks.conserved]
            rfl
        _ = Table.stream chunk pipe.reads ++ buffer.content := by
            rw [PipeBuffer.change_eq_some hchange, List.append_assoc]
    · refine Table.forall_complete_one hbooks.writes hfirst (hwaiting.complete ?_)
      exact Nat.le_trans (Nat.le_of_eq hfront) hlength
    · refine Table.forall_complete_one hbooks.taken hfirst ?_
      exact (congrArg transfer.front hfront).symm

theorem Books.of_step (hbooks : Books pipe) (hstep : step pipe action = some next) : Books next := by
  cases action with
  | asyncRead dest bytesToRead =>
      obtain ⟨entry, hsubmit, rfl⟩ := Option.map_eq_some_iff.mp hstep
      obtain ⟨hsound, hchunk⟩ := submit_eq_some hsubmit
      refine ⟨?_, hbooks.readsInOrder.concat hchunk, hbooks.writesInOrder, ?_, hbooks.writes,
        hbooks.taken⟩
      · rw [Table.stream_concat hchunk]
        exact hbooks.conserved
      · exact List.forall_mem_append.mpr ⟨hbooks.reads, List.forall_mem_singleton.mpr hsound⟩
  | asyncWrite src bytesToWrite =>
      obtain ⟨entry, hsubmit, rfl⟩ := Option.map_eq_some_iff.mp hstep
      obtain ⟨hsound, hchunk⟩ := submit_eq_some hsubmit
      refine ⟨?_, hbooks.readsInOrder, hbooks.writesInOrder.concat hchunk, hbooks.reads, ?_, ?_⟩
      · rw [Table.stream_concat hchunk]
        exact hbooks.conserved
      · exact List.forall_mem_append.mpr ⟨hbooks.writes, List.forall_mem_singleton.mpr hsound⟩
      · refine List.forall_mem_append.mpr ⟨hbooks.taken, List.forall_mem_singleton.mpr ?_⟩
        simp [hchunk, ChannelTransfer.front]
  | cancel =>
      obtain rfl := Option.some.inj hstep
      unfold Pipe.cancel
      split
      · exact hbooks.cancelAll pipe.isOpen
      · exact hbooks
  | close =>
      obtain rfl := Option.some.inj hstep
      exact hbooks.cancelAll false
  | readSome room => exact hbooks.readSome (Option.ite_none_right_eq_some.mp hstep).2
  | writeSome length room => exact hbooks.writeSome (Option.ite_none_right_eq_some.mp hstep).2
  | deliverRead i =>
      obtain ⟨reads, hdeliver, rfl⟩ := Option.map_eq_some_iff.mp hstep
      refine ⟨?_, hbooks.readsInOrder.deliver (fun _ _ => rfl) hdeliver, hbooks.writesInOrder, ?_,
        hbooks.writes, hbooks.taken⟩
      · rw [Table.stream_deliver (fun _ _ => rfl) hdeliver]
        exact hbooks.conserved
      · exact Table.forall_deliver hbooks.reads (fun _ _ => Sound.deliver) hdeliver
  | deliverWrite i =>
      obtain ⟨writes, hdeliver, rfl⟩ := Option.map_eq_some_iff.mp hstep
      refine ⟨?_, hbooks.readsInOrder, hbooks.writesInOrder.deliver (fun _ _ => rfl) hdeliver,
        hbooks.reads, ?_, ?_⟩
      · rw [Table.stream_deliver (fun _ _ => rfl) hdeliver]
        exact hbooks.conserved
      · exact Table.forall_deliver hbooks.writes (fun _ _ => Sound.deliver) hdeliver
      · exact Table.forall_deliver hbooks.taken (fun _ _ htaken => htaken) hdeliver

/-! ### What the handlers leave in the buffers -/

theorem passed_readHandler {op : ChannelTransfer Writer} {moved : Moved}
    (hoffset : op.view.offset = position op.buffer)
    (hfits : position op.buffer + moved.data.length ≤ (bytes op.buffer).length) :
    op.Passed moved (readHandler op moved) :=
  ChannelTransfer.passed_of_stored hoffset hfits

theorem passed_writeHandler {op : ChannelTransfer Reader} {moved : Moved}
    (hoffset : op.view.offset = position op.buffer)
    (hfits : position op.buffer + moved.data.length ≤ (bytes op.buffer).length)
    (hfront : moved.data = op.front moved.data.length) :
    op.Passed moved (writeHandler op moved) :=
  ChannelTransfer.passed_of_front hoffset hfits hfront

omit [ByteCursor Buffer] in
theorem chunk_of_future {moved : Moved} (hfuture : entry.status.future = some moved) :
    chunk entry = moved.data := by
  rw [chunk, Status.outcome_of_future hfuture]

/-- What the caller sees of the stream: the bytes that the cursors have passed. -/
structure Delivered (pipe : Pipe Reader Writer) : Prop where
  conserved : Table.stream chunk pipe.writes =
    Table.stream chunk pipe.reads ++ pipe.buffer.content
  reads : ∀ entry ∈ pipe.reads, ∀ moved, entry.status.future = some moved →
    chunk entry = moved.data ∧ entry.op.Passed moved (readHandler entry.op moved)
  writes : ∀ entry ∈ pipe.writes, ∀ moved, entry.status.future = some moved →
    chunk entry = moved.data ∧ entry.op.Passed moved (writeHandler entry.op moved)

theorem Books.delivered (hbooks : Books pipe) : Delivered pipe where
  conserved := hbooks.conserved
  reads entry hentry moved hfuture := by
    have hchunk := chunk_of_future hfuture
    obtain ⟨hoffset, hfits, hwithin, _⟩ := hbooks.reads entry hentry
    rw [hchunk] at hwithin
    exact ⟨hchunk, passed_readHandler hoffset (Nat.le_trans (Nat.add_le_add_left hwithin _) hfits)⟩
  writes entry hentry moved hfuture := by
    have hchunk := chunk_of_future hfuture
    have htaken := hbooks.taken entry hentry
    obtain ⟨hoffset, hfits, hwithin, _⟩ := hbooks.writes entry hentry
    rw [hchunk] at hwithin htaken
    exact ⟨hchunk, passed_writeHandler hoffset
      (Nat.le_trans (Nat.add_le_add_left hwithin _) hfits) htaken⟩

/-- **Stream.** All along a run, with any number of operations outstanding and handlers in any order,
the reads have put into their buffers what the writes have taken out of theirs, in the order in which
they were started, except for what is in the pipe. -/
theorem stream_through_pipe (more : Nat) (actions : List (Action Reader Writer)) :
    Always step Delivered (create more) actions := by
  have hbooks : Always step Books (create more : Pipe Reader Writer) actions :=
    always_of_step (Books.create more) fun _ _ _ hbooks hstep => hbooks.of_step hstep
  exact hbooks.mono fun _ hbooks => hbooks.delivered

/-! ### The loop on its own -/

/-- Handlers have run for all that could be moved. A read is left only when all that the writes have
moved is read. Of the writes that are left there is no room for the one that has waited longest, and
the others wait behind it. -/
structure Rested (pipe : Pipe Reader Writer) : Prop where
  handledReads : ∀ entry ∈ pipe.reads, entry.status.outcome = entry.status.future
  handledWrites : ∀ entry ∈ pipe.writes, entry.status.outcome = entry.status.future
  drained : pipe.reads.firstWaiting ≠ none →
    pipe.writes.firstWaiting = none ∧ Table.stream chunk pipe.reads = Table.stream chunk pipe.writes
  full : ∀ transfer, pipe.writes.firstWaiting = some transfer →
    ∀ length, ¬ MayWrite pipe.buffer.room transfer.view.length length

def remaining (pipe : Pipe Reader Writer) : Nat :=
  pipe.reads.remaining + pipe.writes.remaining

theorem AtRest.content_eq_nil (hrest : AtRest step OfLoop pipe) (hopen : pipe.isOpen = true)
    (hwaiting : pipe.reads.firstWaiting ≠ none) : pipe.buffer.content = [] := by
  by_contra hcontent
  obtain ⟨transfer, hfirst⟩ := Option.ne_none_iff_exists'.mp hwaiting
  have hnone := hrest (.readSome pipeBuf) trivial
  simp [step, Pipe.readSome, PipeBuffer.change, hopen, hfirst, hcontent] at hnone

theorem AtRest.not_mayWrite (hrest : AtRest step OfLoop pipe) (hopen : pipe.isOpen = true)
    {transfer : ChannelTransfer Reader} (hfirst : pipe.writes.firstWaiting = some transfer)
    (length : Nat) : ¬ MayWrite pipe.buffer.room transfer.view.length length := by
  intro hmay
  have hnone := hrest (.writeSome length pipeBuf) trivial
  simp [step, Pipe.writeSome, PipeBuffer.change, hopen, hfirst, hmay] at hnone

/-- There is always something that an empty pipe takes. -/
theorem mayWrite_of_empty {buffer : PipeBuffer} (hempty : buffer.content = []) {n : Nat}
    (hpositive : 0 < n) : MayWrite buffer.room n (min n pipeBuf) := by
  have hroom := buffer.room_of_empty hempty
  have hbuf : 0 < pipeBuf := Nat.succ_pos _
  refine ⟨Nat.lt_min.mpr ⟨hpositive, hbuf⟩, Nat.min_le_left _ _, ?_, Nat.min_eq_left⟩
  exact Nat.le_trans (Nat.min_le_right _ _) hroom

theorem Books.rested (hbooks : Books pipe) (hrest : AtRest step OfLoop pipe) : Rested pipe where
  handledReads _ hentry := Table.outcome_eq_future_of_settle
    (Table.settle_of_deliver_eq_none fun i =>
      Option.map_eq_none_iff.mp (hrest (.deliverRead i) trivial)) hentry
  handledWrites _ hentry := Table.outcome_eq_future_of_settle
    (Table.settle_of_deliver_eq_none fun i =>
      Option.map_eq_none_iff.mp (hrest (.deliverWrite i) trivial)) hentry
  full transfer hfirst length := by
    have hwaits := (hbooks.writes _ (Table.mem_of_firstWaiting hfirst)).waits rfl
    exact AtRest.not_mayWrite hrest hwaits.1 hfirst length
  drained hwaiting := by
    obtain ⟨transfer, hfirst⟩ := Option.ne_none_iff_exists'.mp hwaiting
    have hopen := ((hbooks.reads _ (Table.mem_of_firstWaiting hfirst)).waits rfl).1
    have hempty := AtRest.content_eq_nil hrest hopen hwaiting
    have hconserved := hbooks.conserved
    rw [hempty, List.append_nil] at hconserved
    refine ⟨?_, hconserved.symm⟩
    by_contra hwrites
    obtain ⟨transfer', hfirst'⟩ := Option.ne_none_iff_exists'.mp hwrites
    have hwaits := (hbooks.writes _ (Table.mem_of_firstWaiting hfirst')).waits rfl
    exact AtRest.not_mayWrite hrest hwaits.1 hfirst' _ (mayWrite_of_empty hempty hwaits.2)

end Cadence.PipeStream
