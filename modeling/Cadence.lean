import Cadence.Foundation.StepSystem
import Cadence.Foundation.Simulation
import Cadence.Foundation.StdVector
import Cadence.Foundation.Multimap
import Cadence.Foundation.Segment
import Cadence.Foundation.ObjectStore
import Cadence.Foundation.Ownership
import Cadence.Foundation.BitMask
import Cadence.Foundation.Journal
import Cadence.Io.Selector
import Cadence.Io.SelectorEpoll
import Cadence.Io.SelectorPoll
import Cadence.Io.Readiness
import Cadence.Io.File
import Cadence.Io.Lifetime
import Cadence.Io.SegmentLedger
import Cadence.Io.Serial
import Cadence.Io.SignalDispatcher
import Cadence.Io.SignalAttach
import Cadence.Async.Acceptor
import Cadence.Async.Channel
import Cadence.Async.UdpSocket
import Cadence.Async.DatagramSocket
import Cadence.Async.ChannelObject
import Cadence.AsyncServer
import Cadence.AsyncServerObject
import Cadence.Proof.EpollAttribution
import Cadence.Proof.PollIteration
import Cadence.Proof.AcceptLoop
import Cadence.Proof.ByteConservation
import Cadence.Proof.WriteAll
import Cadence.Proof.SenderAttribution
import Cadence.Proof.AcceptorOpen
import Cadence.Proof.LoopOwnership
import Cadence.Proof.HeldDescriptors
import Cadence.Proof.DescriptorOwnership
import Cadence.Proof.SignalChain
import Cadence.Proof.SerialHistory
import Cadence.Proof.PollRegistrations
import Cadence.Proof.SelectorWalk
import Cadence.Proof.SelectorEquivalence
import Cadence.Proof.EpollBookkeeping
import Cadence.Proof.DatagramErrors
import Cadence.Proof.HandOver
import Cadence.Proof.MovedServer
import Cadence.Proof.ClosedOnce
import Cadence.Proof.SegmentNames
import Cadence.Proof.SignalWindow
import Cadence.Io.IOObject
import Cadence.Io.OpenFile
import Cadence.Proof.DeviceStreams
import Cadence.Io.BufferedFile
import Cadence.Proof.BufferedResults
import Cadence.Proof.BufferedFlush
import Cadence.Proof.IterationExact
import Cadence.Proof.PollReasons
import Cadence.Proof.TransportMemory
import Cadence.Async.AcceptorSteps
import Cadence.Proof.AcceptorSetup
import Cadence.Foundation.Attempt
import Cadence.Io.Duplex
import Cadence.Proof.DuplexEnds
import Cadence.Io.SharedMemory
import Cadence.Proof.SegmentCreation
import Cadence.Proof.LocalEndpoints
import Cadence.Proof.DatagramNames
import Cadence.Proof.EndpointConversions
import Cadence.Foundation.ByteOrder
import Cadence.IPAddress
import Cadence.Proof.AddressClasses
import Cadence.Proof.SerialFailures
import Cadence.Foundation.Numeral
import Cadence.Foundation.InetText
import Cadence.Foundation.InetRoundTrip
import Cadence.Foundation.InetShape
import Cadence.IPEndpoint
import Cadence.Proof.AddressText
import Cadence.Proof.EndpointText
import Cadence.Foundation.Operations
import Cadence.Foundation.Quiescence
import Cadence.Foundation.Parts
import Cadence.Async.Event
import Cadence.Async.Pipe
import Cadence.Io.SerialListPorts
import Cadence.Io.PlatformFilesystem
import Cadence.Proof.EventNotifications
import Cadence.Proof.PipeStream
import Cadence.Proof.SerialPorts
import Cadence.Proof.FileIsolation
import Cadence.Foundation.Overwrites
import Cadence.Io.SharedSpace
import Cadence.Proof.SharedMappings
import Cadence.Proof.SharedContents
import Cadence.Foundation.Blocks
import Cadence.Program.Session
import Cadence.Proof.SessionAnswers
import Cadence.Foundation.Strands
import Cadence.Async.StreamSocket
import Cadence.Proof.StreamDelivery
import Cadence.Async.Transfer
import Cadence.Async.LocalDatagrams
import Cadence.Foundation.Indexed
import Cadence.Proof.DatagramDelivery
