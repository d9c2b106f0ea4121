import Cadence.Async.LocalDatagrams
import Cadence.Foundation.Indexed
import Cadence.Foundation.StepSystem

/-!
# Whole datagrams in order

What is put into the queues of local datagram sockets is written down in a journal, which has the
sends of every socket in the order in which they were started. The reads of a socket get what the
journal has for it, in that order, one datagram a read, each once and none twice; unless some are
thrown away with a queue.
-/

namespace Cadence.DatagramDelivery

open StepSystem Operations ByteCursor Strands Indexed DatagramDomainSocket

variable {Reader Writer Buffer : Type} [ByteCursor Reader] [ByteWriter Writer] [ByteCursor Buffer]

/-- The datagram that a read has got. -/
def taken (entry : Entry (ChannelTransfer Writer) (Except Errno Datagram)) : List Datagram :=
  match entry.status.outcome with
  | some (.ok datagram) => [datagram]
  | _ => []

/-- What a send has put into a queue. -/
def given (entry : Entry (Request Reader) Moved) : List (List Byte) :=
  match entry.status.outcome with
  | some (.ok data) => [data]
  | _ => []

def byReceiver (journal : List Passage) : List (Nat × Datagram) :=
  journal.map fun passage => (passage.receiver, passage.datagram)

def bySender (journal : List Passage) : List (Nat × List Byte) :=
  journal.map fun passage => (passage.datagram.sender, passage.datagram.data)

/-- What the journal has for socket `j`. -/
def arrivals (journal : List Passage) (j : Nat) : List Datagram := strand j (byReceiver journal)

/-- What the journal has from socket `i`. -/
def departures (journal : List Passage) (i : Nat) : List (List Byte) := strand i (bySender journal)

structure Fits (transfer : ChannelTransfer Buffer) : Prop where
  offset : transfer.view.offset = position transfer.buffer
  fits : position transfer.buffer + transfer.view.length ≤ (bytes transfer.buffer).length

structure ReadBooks (arrived : List Datagram)
    (reads : Table (ChannelTransfer Writer) (Except Errno Datagram)) (queue : List Datagram)
    (discarded : Bool) : Prop where
  arrives : (Table.stream taken reads ++ queue).Sublist arrived
  whole : discarded = false → Table.stream taken reads ++ queue = arrived
  inOrder : Table.InOrder taken reads
  fits : ∀ entry ∈ reads, Fits entry.op

/-- A send is for the whole of its view. -/
def Sends (entry : Entry (Request Reader) Moved) : Prop :=
  Fits entry.op.transfer ∧ ∀ data, entry.status.outcome = some (.ok data) →
    data = entry.op.transfer.front entry.op.transfer.view.length

structure WriteBooks (departed : List (List Byte)) (writes : Table (Request Reader) Moved) :
    Prop where
  departs : Table.stream given writes = departed
  inOrder : Table.InOrder given writes
  sends : ∀ entry ∈ writes, Sends entry

/-- The books of socket `i`. -/
structure Books (arrived : Nat → List Datagram) (departed : Nat → List (List Byte)) (i : Nat)
    (socket : Socket Reader Writer) : Prop where
  reads : ReadBooks (arrived i) socket.reads socket.queue socket.discarded
  writes : WriteBooks (departed i) socket.writes

/-! ### The reads and the queue of a socket -/

section Reads

variable {reads next : Table (ChannelTransfer Writer) (Except Errno Datagram)}
  {arrived queue : List Datagram} {discarded : Bool} {datagram : Datagram} {ec : Errno} {k n : Nat}

theorem fits_of_submit {buffer : Buffer} {transfer : ChannelTransfer Buffer}
    (hsubmit : Socket.submit buffer n = some transfer) : Fits transfer := by
  obtain ⟨hn, hmap⟩ := Option.ite_none_right_eq_some.mp hsubmit
  rw [asioBuffer_of_le hn] at hmap
  obtain rfl := Option.some.inj hmap
  exact ⟨rfl, add_le_of_le_remaining hn⟩

omit [ByteWriter Writer] in
theorem taken_started {transfer : ChannelTransfer Writer} {isOpen : Bool} :
    taken ⟨transfer, Socket.started isOpen⟩ = [] := by
  cases isOpen <;> rfl

/-- The queue stays, and the reads have got what they had. -/
theorem ReadBooks.congr (hbooks : ReadBooks arrived reads queue discarded)
    (hstream : Table.stream taken next = Table.stream taken reads)
    (hinOrder : Table.InOrder taken next) (hfits : ∀ entry ∈ next, Fits entry.op) :
    ReadBooks arrived next queue discarded := by
  refine ⟨?_, ?_, hinOrder, hfits⟩
  · rw [hstream]
    exact hbooks.arrives
  · rw [hstream]
    exact hbooks.whole

theorem ReadBooks.start {dest : Writer} {transfer : ChannelTransfer Writer} {isOpen : Bool}
    (hbooks : ReadBooks arrived reads queue discarded)
    (hsubmit : Socket.submit dest n = some transfer) :
    ReadBooks arrived (reads ++ [⟨transfer, Socket.started isOpen⟩]) queue discarded := by
  refine hbooks.congr (Table.stream_concat taken_started) (hbooks.inOrder.concat taken_started) ?_
  exact List.forall_mem_append.mpr
    ⟨hbooks.fits, List.forall_mem_singleton.mpr (fits_of_submit hsubmit)⟩

theorem ReadBooks.fail {count : Nat} (hbooks : ReadBooks arrived reads queue discarded) :
    ReadBooks arrived (reads.complete (fun _ => .error ec) count) queue discarded := by
  refine hbooks.congr (Table.stream_complete (fun _ => rfl) fun _ => rfl) hbooks.inOrder.complete ?_
  exact Table.forall_complete hbooks.fits fun _ hfits => hfits

theorem ReadBooks.discard (hbooks : ReadBooks arrived reads queue discarded) :
    ReadBooks arrived reads [] (discarded || !queue.isEmpty) := by
  refine ⟨?_, fun hkept => ?_, hbooks.inOrder, hbooks.fits⟩
  · rw [List.append_nil]
    exact (List.sublist_append_left _ _).trans hbooks.arrives
  · obtain ⟨hdiscarded, hempty⟩ := Bool.or_eq_false_iff.mp hkept
    have hqueue : queue = [] := by simpa using hempty
    have hwhole := hbooks.whole hdiscarded
    rwa [hqueue] at hwhole

/-- The first read that waits gets what comes first. -/
theorem ReadBooks.receive {transfer : ChannelTransfer Writer}
    (hbooks : ReadBooks arrived reads (datagram :: queue) discarded)
    (hfirst : reads.firstWaiting = some transfer) :
    ReadBooks arrived (reads.complete (fun _ => .ok datagram) 1) queue discarded := by
  have hmoved := hbooks.inOrder.stream_complete_one (fun _ => .ok datagram) (fun _ => rfl) hfirst
  have hstream : Table.stream taken (reads.complete (fun _ => .ok datagram) 1) ++ queue =
      Table.stream taken reads ++ datagram :: queue := by
    calc Table.stream taken (reads.complete (fun _ => .ok datagram) 1) ++ queue
        = (Table.stream taken reads ++ [datagram]) ++ queue := by
          rw [hmoved]
          rfl
      _ = Table.stream taken reads ++ datagram :: queue := by
          rw [List.append_assoc, List.singleton_append]
  refine ⟨?_, ?_, hbooks.inOrder.complete, ?_⟩
  · rw [hstream]
    exact hbooks.arrives
  · rw [hstream]
    exact hbooks.whole
  · exact Table.forall_complete hbooks.fits fun _ hfits => hfits

theorem ReadBooks.queued (hbooks : ReadBooks arrived reads queue discarded) :
    ReadBooks (arrived ++ [datagram]) reads (queue ++ [datagram]) discarded := by
  refine ⟨?_, fun hkept => ?_, hbooks.inOrder, hbooks.fits⟩
  · rw [← List.append_assoc]
    exact hbooks.arrives.append (List.Sublist.refl _)
  · rw [← List.append_assoc, hbooks.whole hkept]

theorem ReadBooks.deliver (hbooks : ReadBooks arrived reads queue discarded)
    (hdeliver : reads.deliver k = some next) : ReadBooks arrived next queue discarded :=
  hbooks.congr (Table.stream_deliver (fun _ _ => rfl) hdeliver)
    (hbooks.inOrder.deliver (fun _ _ => rfl) hdeliver)
    (Table.forall_deliver hbooks.fits (fun _ _ hfits => hfits) hdeliver)

end Reads

/-! ### The writes of a socket -/

section Writes

variable {writes next : Table (Request Reader) Moved} {departed : List (List Byte)}
  {data : List Byte} {ec : Errno} {k n : Nat}

omit [ByteCursor Reader] in
theorem given_started {request : Request Reader} {isOpen : Bool} :
    given ⟨request, Socket.started isOpen⟩ = [] := by
  cases isOpen <;> rfl

theorem WriteBooks.start {src : Reader} {transfer : ChannelTransfer Reader} {isOpen : Bool}
    {destination : Option AsioLocalEndpoint} (hbooks : WriteBooks departed writes)
    (hsubmit : Socket.submit src n = some transfer) :
    WriteBooks departed (writes ++ [⟨⟨transfer, destination⟩, Socket.started isOpen⟩]) := by
  refine ⟨?_, hbooks.inOrder.concat given_started, ?_⟩
  · rw [Table.stream_concat given_started]
    exact hbooks.departs
  · refine List.forall_mem_append.mpr ⟨hbooks.sends, List.forall_mem_singleton.mpr ?_⟩
    refine ⟨fits_of_submit hsubmit, fun data houtcome => ?_⟩
    cases isOpen <;> simp [Socket.started, Status.outcome] at houtcome

theorem WriteBooks.fail {count : Nat} (hbooks : WriteBooks departed writes) :
    WriteBooks departed (writes.complete (fun _ => .error ec) count) := by
  refine ⟨?_, hbooks.inOrder.complete, ?_⟩
  · rw [Table.stream_complete (fun _ => rfl) fun _ => rfl]
    exact hbooks.departs
  · exact Table.forall_complete hbooks.sends fun _ hsends => ⟨hsends.1, fun _ hok => (nomatch hok)⟩

theorem WriteBooks.sent {request : Request Reader} (hbooks : WriteBooks departed writes)
    (hfirst : writes.firstWaiting = some request)
    (hdata : data = request.transfer.front request.transfer.view.length) :
    WriteBooks (departed ++ [data]) (writes.complete (fun _ => .ok data) 1) := by
  have hmoved := hbooks.inOrder.stream_complete_one (fun _ => .ok data) (fun _ => rfl) hfirst
  refine ⟨?_, hbooks.inOrder.complete, ?_⟩
  · rw [← hbooks.departs]
    exact hmoved
  · have hsends := hbooks.sends _ (Table.mem_of_firstWaiting hfirst)
    refine Table.forall_complete_one hbooks.sends hfirst ⟨hsends.1, fun other hok => ?_⟩
    obtain rfl : data = other := Except.ok.inj (Option.some.inj hok)
    exact hdata

theorem WriteBooks.deliver (hbooks : WriteBooks departed writes)
    (hdeliver : writes.deliver k = some next) : WriteBooks departed next := by
  refine ⟨?_, hbooks.inOrder.deliver (fun _ _ => rfl) hdeliver, ?_⟩
  · rw [Table.stream_deliver (fun _ _ => rfl) hdeliver]
    exact hbooks.departs
  · exact Table.forall_deliver hbooks.sends (fun _ _ hsends => hsends) hdeliver

end Writes

/-! ### One socket -/

section OneSocket

variable {arrived : Nat → List Datagram} {departed : Nat → List (List Byte)} {i n : Nat}
  {socket changed : Socket Reader Writer}

theorem Books.cancelAll (hbooks : Books arrived departed i socket) :
    Books arrived departed i socket.cancelAll :=
  ⟨hbooks.reads.fail, hbooks.writes.fail⟩

theorem Books.discard (hbooks : Books arrived departed i socket) :
    Books arrived departed i socket.discard :=
  ⟨hbooks.reads.discard, hbooks.writes⟩

theorem Books.connectTo {peer : AsioLocalEndpoint} (hbooks : Books arrived departed i socket) :
    Books arrived departed i (socket.connectTo peer) := by
  unfold Socket.connectTo
  split
  · exact ⟨hbooks.reads, hbooks.writes⟩
  · exact ⟨hbooks.reads.discard, hbooks.writes⟩

theorem Books.connect {endpoint : UnixEndpoint} {openFailure failure : Option Errno}
    (hbooks : Books arrived departed i socket)
    (hconnect : socket.connect endpoint openFailure failure = some changed) :
    Books arrived departed i changed := by
  obtain ⟨peer, _, hconnect⟩ := Option.bind_eq_some_iff.mp hconnect
  obtain ⟨⟨result, native⟩, _, hresult⟩ := Option.bind_eq_some_iff.mp hconnect
  cases result with
  | ok _ =>
      obtain rfl := Option.some.inj hresult
      have hconnected : Books arrived departed i (socket.connectTo peer) := hbooks.connectTo
      exact ⟨hconnected.reads, hconnected.writes⟩
  | error _ =>
      obtain rfl := Option.some.inj hresult
      exact ⟨hbooks.reads, hbooks.writes⟩

theorem Books.write {src : Reader} {destination : Option AsioLocalEndpoint}
    (hbooks : Books arrived departed i socket)
    (hwrite : socket.write src n destination = some changed) : Books arrived departed i changed := by
  obtain ⟨transfer, hsubmit, rfl⟩ := Option.map_eq_some_iff.mp hwrite
  exact ⟨hbooks.reads, hbooks.writes.start hsubmit⟩

theorem Books.receive (hbooks : Books arrived departed i socket)
    (hreceive : socket.receive = some changed) : Books arrived departed i changed := by
  unfold Socket.receive at hreceive
  split at hreceive
  next => cases hreceive
  next datagram queue hqueue =>
    obtain ⟨hsome, hchanged⟩ := Option.ite_none_right_eq_some.mp hreceive
    obtain rfl := Option.some.inj hchanged
    obtain ⟨transfer, hfirst⟩ := Option.isSome_iff_exists.mp hsome
    have hreads := hbooks.reads
    rw [hqueue] at hreads
    exact ⟨hreads.receive hfirst, hbooks.writes⟩

end OneSocket

/-! ### The network -/

structure Kept (network : Network Reader Writer) : Prop where
  books : Each (Books (arrivals network.journal) (departures network.journal)) network.sockets
  receivers : Below network.sockets.length (byReceiver network.journal)
  senders : Below network.sockets.length (bySender network.journal)

variable {network next : Network Reader Writer} {action : Network.Action Reader Writer}

theorem byReceiver_concat {journal : List Passage} {i j : Nat} {data : List Byte} :
    byReceiver (journal ++ [⟨j, ⟨i, data⟩⟩]) = byReceiver journal ++ tagged j [⟨i, data⟩] :=
  List.map_append

theorem bySender_concat {journal : List Passage} {i j : Nat} {data : List Byte} :
    bySender (journal ++ [⟨j, ⟨i, data⟩⟩]) = bySender journal ++ tagged i [data] :=
  List.map_append

theorem arrivals_concat {journal : List Passage} {i j : Nat} {data : List Byte} :
    arrivals (journal ++ [⟨j, ⟨i, data⟩⟩]) =
      Function.update (arrivals journal) j (arrivals journal j ++ [⟨i, data⟩]) := by
  unfold arrivals
  rw [byReceiver_concat]
  exact strand_concat _

theorem departures_concat {journal : List Passage} {i j : Nat} {data : List Byte} :
    departures (journal ++ [⟨j, ⟨i, data⟩⟩]) =
      Function.update (departures journal) i (departures journal i ++ [data]) := by
  unfold departures
  rw [bySender_concat]
  exact strand_concat _

theorem Kept.onSocket {i : Nat} {change : Socket Reader Writer → Option (Socket Reader Writer)}
    (hkept : Kept network)
    (hbooks : ∀ socket changed, change socket = some changed →
      Books (arrivals network.journal) (departures network.journal) i socket →
      Books (arrivals network.journal) (departures network.journal) i changed)
    (hstep : network.onSocket i change = some next) : Kept next := by
  unfold Network.onSocket at hstep
  split at hstep
  next => cases hstep
  next socket hget =>
    obtain ⟨changed, hchange, rfl⟩ := Option.map_eq_some_iff.mp hstep
    have hchanged := hbooks socket changed hchange (hkept.books i socket hget)
    refine ⟨hkept.books.set hchanged fun _ _ _ hother => hother, ?_, ?_⟩
    · rw [List.length_set]
      exact hkept.receivers
    · rw [List.length_set]
      exact hkept.senders

/-- A new socket has nothing in the journal. -/
theorem Kept.concat {socket : Socket Reader Writer} {names : List AsioLocalEndpoint}
    (hkept : Kept network) (hreads : socket.reads = []) (hwrites : socket.writes = [])
    (hqueue : socket.queue = []) :
    Kept { network with sockets := network.sockets ++ [socket], names := names } := by
  have harrivals : arrivals network.journal network.sockets.length = [] :=
    strand_of_below hkept.receivers (Nat.le_refl _)
  have hdepartures : departures network.journal network.sockets.length = [] :=
    strand_of_below hkept.senders (Nat.le_refl _)
  have hmore : network.sockets.length ≤ (network.sockets ++ [socket]).length := by simp
  refine ⟨hkept.books.concat ⟨?_, ?_⟩, hkept.receivers.mono hmore, hkept.senders.mono hmore⟩
  · rw [harrivals, hreads, hqueue]
    exact ⟨List.Sublist.refl _, fun _ => rfl, List.Pairwise.nil, fun _ hentry => (nomatch hentry)⟩
  · rw [hdepartures, hwrites]
    exact ⟨rfl, List.Pairwise.nil, fun _ hentry => (nomatch hentry)⟩

theorem Kept.create {endpoint : Option UnixEndpoint} (hkept : Kept network)
    (hcreate : network.create endpoint = some next) : Kept next := by
  cases endpoint with
  | none =>
      obtain rfl := Option.some.inj hcreate
      exact hkept.concat rfl rfl rfl
  | some endpoint =>
      obtain ⟨name, _, hname⟩ := Option.bind_eq_some_iff.mp hcreate
      by_cases hempty : name.path = []
      · rw [if_pos hempty] at hname
        obtain rfl := Option.some.inj hname
        exact hkept.concat rfl rfl rfl
      · rw [if_neg hempty] at hname
        obtain ⟨_, hbound⟩ := Option.ite_none_left_eq_some.mp hname
        obtain rfl := Option.some.inj hbound
        exact hkept.concat rfl rfl rfl

/-- The journal gets what the send loses and the queue gains, also where they are of one socket. -/
theorem Kept.transmit {i j : Nat} (hkept : Kept network)
    (htransmit : network.transmit i j = some next) : Kept next := by
  unfold Network.transmit at htransmit
  split at htransmit
  next source target hsource htarget =>
    split at htransmit
    next => cases htransmit
    next request hfirst =>
      obtain ⟨_, hnext⟩ := Option.ite_none_right_eq_some.mp htransmit
      obtain rfl := Option.some.inj hnext
      obtain ⟨hi, _⟩ := List.getElem?_eq_some_iff.mp hsource
      obtain ⟨hj, _⟩ := List.getElem?_eq_some_iff.mp htarget
      have hsent : Each (Books (arrivals network.journal) (Function.update (departures network.journal)
          i (departures network.journal i ++ [request.transfer.front request.transfer.view.length])))
          (network.sockets.modify i fun socket =>
            socket.sent (request.transfer.front request.transfer.view.length)) := by
        refine hkept.books.modify ?_ ?_
        · intro socket hget hbooks
          obtain rfl : source = socket := Option.some.inj (hsource.symm.trans hget)
          refine ⟨hbooks.reads, ?_⟩
          rw [Function.update_self]
          exact hbooks.writes.sent hfirst rfl
        · intro k socket hne hbooks
          refine ⟨hbooks.reads, ?_⟩
          rw [Function.update_of_ne (Ne.symm hne)]
          exact hbooks.writes
      refine ⟨?_, ?_, ?_⟩
      · rw [arrivals_concat, departures_concat]
        refine hsent.modify ?_ ?_
        · intro socket _ hbooks
          refine ⟨?_, hbooks.writes⟩
          rw [Function.update_self]
          exact hbooks.reads.queued
        · intro k socket hne hbooks
          refine ⟨?_, hbooks.writes⟩
          rw [Function.update_of_ne (Ne.symm hne)]
          exact hbooks.reads
      · rw [byReceiver_concat, List.length_modify, List.length_modify]
        exact hkept.receivers.append hj
      · rw [bySender_concat, List.length_modify, List.length_modify]
        exact hkept.senders.append hi
  next => cases htransmit

theorem Kept.of_step (hkept : Kept network) (hstep : Network.step network action = some next) :
    Kept next := by
  cases action with
  | create endpoint => exact hkept.create hstep
  | connect i endpoint openFailure failure =>
      exact hkept.onSocket (fun _ _ hconnect hbooks => hbooks.connect hconnect) hstep
  | asyncRead i dest bytesToRead =>
      refine hkept.onSocket (fun _ _ hread hbooks => ?_) hstep
      obtain ⟨transfer, hsubmit, rfl⟩ := Option.map_eq_some_iff.mp hread
      exact ⟨hbooks.reads.start hsubmit, hbooks.writes⟩
  | asyncWrite i src bytesToWrite =>
      exact hkept.onSocket (fun _ _ hwrite hbooks => hbooks.write hwrite) hstep
  | asyncWriteTo i src bytesToWrite endpoint =>
      refine hkept.onSocket (fun _ _ hwrite hbooks => ?_) hstep
      obtain ⟨destination, _, hwrite⟩ := Option.bind_eq_some_iff.mp hwrite
      exact hbooks.write hwrite
  | cancel i =>
      refine hkept.onSocket (fun socket _ hcancel hbooks => ?_) hstep
      obtain rfl := Option.some.inj hcancel
      unfold Socket.cancel
      split
      · exact hbooks.cancelAll
      · exact hbooks
  | close i =>
      refine hkept.onSocket (fun _ _ hclose hbooks => ?_) hstep
      obtain rfl := Option.some.inj hclose
      exact ⟨hbooks.cancelAll.discard.reads, hbooks.cancelAll.writes⟩
  | transmit i j => exact hkept.transmit hstep
  | receive i => exact hkept.onSocket (fun _ _ hreceive hbooks => hbooks.receive hreceive) hstep
  | failRead i ec =>
      refine hkept.onSocket (fun _ _ hfail hbooks => ?_) hstep
      obtain rfl := Option.some.inj hfail
      exact ⟨hbooks.reads.fail, hbooks.writes⟩
  | failWrite i ec =>
      refine hkept.onSocket (fun _ _ hfail hbooks => ?_) hstep
      obtain rfl := Option.some.inj hfail
      exact ⟨hbooks.reads, hbooks.writes.fail⟩
  | losePeer i =>
      refine hkept.onSocket (fun _ _ hlose hbooks => ?_) hstep
      obtain rfl := Option.some.inj hlose
      exact ⟨hbooks.reads.discard, hbooks.writes.fail⟩
  | deliverRead i k =>
      refine hkept.onSocket (fun _ _ hdeliver hbooks => ?_) hstep
      obtain ⟨reads, hreads, rfl⟩ := Option.map_eq_some_iff.mp hdeliver
      exact ⟨hbooks.reads.deliver hreads, hbooks.writes⟩
  | deliverWrite i k =>
      refine hkept.onSocket (fun _ _ hdeliver hbooks => ?_) hstep
      obtain ⟨writes, hwrites, rfl⟩ := Option.map_eq_some_iff.mp hdeliver
      exact ⟨hbooks.reads, hbooks.writes.deliver hwrites⟩

/-! ### What the callers see -/

theorem passed_readHandler {transfer : ChannelTransfer Writer} (hfits : Fits transfer)
    (result : Except Errno Datagram) :
    transfer.Passed (stored transfer result) (readHandler transfer result) := by
  refine ChannelTransfer.passed_of_stored hfits.offset ?_
  have hlength : (stored transfer result).data.length ≤ transfer.view.length := by
    cases result with
    | error ec => exact Nat.zero_le _
    | ok datagram => exact List.length_take_le _ _
  exact Nat.le_trans (Nat.add_le_add_left hlength _) hfits.fits

theorem passed_writeHandler {request : Request Reader} {moved : Moved}
    (hfits : Fits request.transfer)
    (hfront : ∀ data, moved = .ok data → data = request.transfer.front request.transfer.view.length) :
    request.transfer.Passed moved (writeHandler request moved) := by
  have hlength := ChannelTransfer.length_front hfits.offset hfits.fits
  have hdata : moved.data.length ≤ request.transfer.view.length ∧
      moved.data = request.transfer.front moved.data.length := by
    cases moved with
    | error ec => exact ⟨Nat.zero_le _, by simp [Moved.data, ChannelTransfer.front]⟩
    | ok data =>
        obtain rfl := hfront data rfl
        exact ⟨Nat.le_of_eq hlength, by rw [Moved.data, hlength]⟩
  have hroom := Nat.le_trans (Nat.add_le_add_left hdata.1 _) hfits.fits
  unfold writeHandler
  split
  · exact ChannelTransfer.passed_of_front hfits.offset hroom hdata.2
  · exact ChannelTransfer.passed_of_front hfits.offset hroom hdata.2

/-- What has arrived for a socket and been taken by its reads or is in its queue, what its writes have
given to others, and what the handlers have left in the buffers. -/
structure Delivered (journal : List Passage) (i : Nat) (socket : Socket Reader Writer) : Prop where
  arrives : (Table.stream taken socket.reads ++ socket.queue).Sublist (arrivals journal i)
  whole : socket.discarded = false →
    Table.stream taken socket.reads ++ socket.queue = arrivals journal i
  departs : Table.stream given socket.writes = departures journal i
  reads : ∀ entry ∈ socket.reads, ∀ result, entry.status.future = some result →
    entry.op.Passed (stored entry.op result) (readHandler entry.op result)
  writes : ∀ entry ∈ socket.writes, ∀ moved, entry.status.future = some moved →
    entry.op.transfer.Passed moved (writeHandler entry.op moved) ∧
      ∀ data, moved = .ok data → data.length = entry.op.transfer.view.length

theorem Books.delivered {journal : List Passage} {i : Nat} {socket : Socket Reader Writer}
    (hbooks : Books (arrivals journal) (departures journal) i socket) :
    Delivered journal i socket where
  arrives := hbooks.reads.arrives
  whole := hbooks.reads.whole
  departs := hbooks.writes.departs
  reads entry hentry result _ := passed_readHandler (hbooks.reads.fits entry hentry) result
  writes entry hentry moved hfuture := by
    obtain ⟨hfits, hsends⟩ := hbooks.writes.sends entry hentry
    have hfront : ∀ data, moved = .ok data →
        data = entry.op.transfer.front entry.op.transfer.view.length := by
      rintro data rfl
      exact hsends data (Status.outcome_of_future hfuture)
    refine ⟨passed_writeHandler hfits hfront, fun data hok => ?_⟩
    rw [hfront data hok]
    exact ChannelTransfer.length_front hfits.offset hfits.fits

/-- **Whole datagrams, in order, once.** In every run of any number of sockets there is one journal of
all datagrams in which the sends of each socket are in the order in which they were started, and of
which the reads of each socket have got a part in the order in which they were started, a datagram
each, cut to what the read has asked for; and all of what is for the socket and is not in its queue,
unless a queue of it has been thrown away. -/
theorem datagrams_delivered (actions : List (Network.Action Reader Writer)) :
    Always Network.step (fun network => Each (Delivered network.journal) network.sockets)
      Network.empty actions := by
  have hempty : Kept (Network.empty : Network Reader Writer) :=
    ⟨Each.nil, fun _ hitem => (nomatch hitem), fun _ hitem => (nomatch hitem)⟩
  have hkept : Always Network.step Kept Network.empty actions :=
    always_of_step hempty fun _ _ _ hkept hstep => hkept.of_step hstep
  exact hkept.mono fun network hkept i socket hget => (hkept.books i socket hget).delivered

end Cadence.DatagramDelivery
