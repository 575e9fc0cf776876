import Inferno.Lib.Serial
import Inferno.Lib.Prog
import Inferno.Lib.MinBy
import Inferno.Lib.Interleave
import Inferno.Lib.SortedMap
import Inferno.Lib.Slots
import Inferno.Lib.Detached
import Inferno.Lib.EarlyView
import Inferno.Lib.Partial
import Inferno.Lib.Outbox
import Inferno.Lib.ByteBuffer
import Inferno.Lib.BinarySerde
import Inferno.Lib.BinaryLayout
import Inferno.Lib.BitMask
import Inferno.Lib.Utf8Slices
import Inferno.Lib.Paging
import Inferno.Lib.Serve
import Inferno.Lib.Runs
import Inferno.Lib.ReverseIndex
import Inferno.Common
import Inferno.RingBuffer
import Inferno.RingWalk
import Inferno.RingTimeline
import Inferno.RingWriter
import Inferno.RingReader
import Inferno.RingLaw
import Inferno.RingReads
import Inferno.RingExec
import Inferno.RingPositions
import Inferno.RingLate
import Inferno.RingRecovery
import Inferno.RingChecked
import Inferno.RingShift
import Inferno.RingConcurrent
import Inferno.RealTimeBox
import Inferno.RealTimeBoxCustody
import Inferno.SamplesCollector
import Inferno.CollectorAudio
import Inferno.MediaClock
import Inferno.Wire
import Inferno.Dither
import Inferno.FlowsTransmit
import Inferno.TxFidelity
import Inferno.FlowsTransmitter
import Inferno.FlowsControl
import Inferno.TxWorld
import Inferno.TxTables
import Inferno.FlowsAnswers
import Inferno.TxIndices
import Inferno.Bytes
import Inferno.FlowsRequest
import Inferno.ChannelsBuffering
import Inferno.ChannelsSubscriber
import Inferno.SubscriberSteps
import Inferno.SubscriberTasks
import Inferno.ResolveSubscriptions
import Inferno.ResolvePlan
import Inferno.ResolveLedger
import Inferno.ResolveSlots
import Inferno.FlowsReceiver
import Inferno.SubscriberWorld
import Inferno.SubscriptionsView
import Inferno.Refcounts
import Inferno.Promises
import Inferno.RefcountsWorld
import Inferno.ResolveAssignment
import Inferno.FlowCreation
import Inferno.ChannelMaps
import Inferno.ReceiverSockets
import Inferno.SocketsWorld
import Inferno.TxMoves
import Inferno.TxSaved
import Inferno.TxFlags
import Inferno.TxStarvation
import Inferno.TxTurns
import Inferno.TxFormats
import Inferno.TxRounds
import Inferno.TxSchedule
import Inferno.TxGrace
import Inferno.TxUpdates
import Inferno.TxMulticasts
import Inferno.MulticastMap
import Inferno.MulticastSurvival
import Inferno.MulticastTables
import Inferno.TxRestart
import Inferno.ProtoArc
import Inferno.ArcListings
import Inferno.ListingsDecode
import Inferno.ListingsPages
import Inferno.ListingsFit
import Inferno.ArcServer
import Inferno.ChangeNotification
import Inferno.ArcServerSafety
import Inferno.ArcDeviceLock
import Inferno.MdnsChannels
import Inferno.MdnsResolve
import Inferno.ShmBridge
import Inferno.PtpDiscipline
import Inferno.CaptureConverters
import Inferno.WasapiRender
import Inferno.ReceiveSafety
import Inferno.AudioEnd
import Inferno.AudioTurns
import Inferno.AudioSinks
import Inferno.AudioOrder
import Inferno.TxIsolation
import Inferno.TxWaits
import Inferno.ReceiverThread
import Inferno.ReceiverStart
import Inferno.SilencedRings
import Inferno.SinkPool
import Inferno.ItemLists
import Inferno.PacketFraming
import Inferno.ChannelNames
import Inferno.WasapiConfig
import Inferno.ConfigFiles
import Inferno.SelfInfo
import Inferno.LossStatistics
import Inferno.ChangeNotification
import Inferno.FlowsCalls
import Inferno.MdnsDiscovery
import Inferno.Lib.MarkAndLook
import Inferno.MdnsService
import Inferno.MulticastAddresses
import Inferno.MulticastReservation
import Inferno.MulticastQueries
import Inferno.MulticastExclusive
import Inferno.MdnsResolution
import Inferno.Lib.PeakRegister
import Inferno.InfoMulticaster
import Inferno.HeartbeatLatencies
import Inferno.RingTells
import Inferno.TxCarriage
import Inferno.AudioNetwork
import Inferno.AudioProvenance
