import ForestLink.Lib.Bitmap
import ForestLink.Lib.Bytes
import ForestLink.Lib.Crc32
import ForestLink.Lib.Slice
import ForestLink.Lib.Dispatch
import ForestLink.Lib.Serial
import ForestLink.Lib.FreeList
import ForestLink.Lib.Ring
import ForestLink.Lib.Trace
import ForestLink.Lib.WindowSender
import ForestLink.Lib.Recency
import ForestLink.Lib.DescendingSort
import ForestLink.Lib.ParallelArrays
import ForestLink.Lib.Compaction
import ForestLink.Lib.Mealy
import ForestLink.Lib.CText
import ForestLink.Lib.Erasure
import ForestLink.Lib.Utf8
import ForestLink.Lib.Json
import ForestLink.Lib.JsonText
import ForestLink.Lib.JsonObject
import ForestLink.Protocol.Fec
import ForestLink.Protocol.Packet
import ForestLink.Protocol.SelectiveRepeat
import ForestLink.Protocol.SenderRuns
import ForestLink.Protocol.BufferPool
import ForestLink.Protocol.Header
import ForestLink.Protocol.FecDecoder
import ForestLink.Mesh.State
import ForestLink.Mesh.Arq
import ForestLink.Mesh.Handlers
import ForestLink.Mesh.Engine
import ForestLink.Mesh.RouteTable
import ForestLink.Mesh.Routing
import ForestLink.Mesh.TransferNetwork
import ForestLink.Mesh.Manager
import ForestLink.Mesh.Bridge
import ForestLink.Mesh.Packets
import ForestLink.Mesh.Occasion
import ForestLink.Mesh.ElectionNetwork
import ForestLink.Mesh.Answers
import ForestLink.Mesh.ExitRelay
import ForestLink.Mesh.LocalExit
import ForestLink.Mesh.LocalSender
import ForestLink.Transport.EspNowTx
import ForestLink.Transport.Receive
import ForestLink.Transport.Radio
import ForestLink.Mqtt.Client
import ForestLink.Mqtt.Tasks
import ForestLink.Mqtt.SessionQueue
import ForestLink.Mqtt.CloudEvents
import ForestLink.Mqtt.FileMessages
import ForestLink.Uart.Ingest
import ForestLink.Uart.Frames
import ForestLink.Uart.Node
import ForestLink.Cloud.Reassembler
import ForestLink.Cloud.SelectiveRepeat
import ForestLink.Cloud.Engine
import ForestLink.Cloud.Ingress
import ForestLink.Cloud.Topology
import ForestLink.Cloud.Server
import ForestLink.Cloud.Publish
import ForestLink.Cloud.MetaJson
import ForestLink.Proofs.FragmentLayout
import ForestLink.Proofs.FecDecoding
import ForestLink.Proofs.ReassemblerIntegrity
import ForestLink.Proofs.BitmapAgreement
import ForestLink.Proofs.StagedReplay
import ForestLink.Proofs.SenderWindow
import ForestLink.Proofs.SenderInvariant
import ForestLink.Proofs.MeshFrames
import ForestLink.Proofs.MeshPlacement
import ForestLink.Proofs.MeshAccounting
import ForestLink.Proofs.MeshStages
import ForestLink.Proofs.StallWatchdog
import ForestLink.Proofs.RoleExclusion
import ForestLink.Proofs.ExitHealth
import ForestLink.Proofs.UploadDrained
import ForestLink.Proofs.ExitIsolation
import ForestLink.Proofs.RouteEntries
import ForestLink.Proofs.RouteFreshness
import ForestLink.Proofs.RouteWithdrawal
import ForestLink.Proofs.RouteErrorFlood
import ForestLink.Proofs.RouteLoops
import ForestLink.Proofs.BufferPoolInvariant
import ForestLink.Proofs.BufferPoolRace
import ForestLink.Proofs.TxSlots
import ForestLink.Proofs.SlabConservation
import ForestLink.Proofs.CustodyAcks
import ForestLink.Proofs.AckSessions
import ForestLink.Proofs.SessionCrossing
import ForestLink.Proofs.MqttSerialRuns
import ForestLink.Proofs.MeshCalls
import ForestLink.Proofs.HopDiscipline
import ForestLink.Proofs.RelayDedup
import ForestLink.Proofs.CommandDedup
import ForestLink.Proofs.RouteHysteresis
import ForestLink.Proofs.EngineTurns
import ForestLink.Proofs.ElectionSessions
import ForestLink.Proofs.CompletionReports
import ForestLink.Proofs.UartFraming
import ForestLink.Proofs.WriteBounds
import ForestLink.Proofs.SetupRule
import ForestLink.Proofs.EngineConsistency
import ForestLink.Proofs.SuccessRest
import ForestLink.Proofs.OvertakenMeta
import ForestLink.Proofs.TransferStart
import ForestLink.Proofs.CongestionBit
import ForestLink.Proofs.RelayedItems
import ForestLink.Proofs.ForwardedPayloads
import ForestLink.Proofs.TopologyReports
import ForestLink.Proofs.TopicMessages
import ForestLink.Proofs.PublishedChunks
import ForestLink.Proofs.FecAgreement
import ForestLink.Proofs.CloudAnswers
import ForestLink.Proofs.TransferMetaJson
import ForestLink.Proofs.AcknowledgedChunks
import ForestLink.Proofs.LocalExitAcks
import ForestLink.Proofs.Backoff
import ForestLink.Proofs.RttSamples
import ForestLink.Protocol.Receiver
import ForestLink.Proofs.ReceiverSteps
import ForestLink.Proofs.ReceiverIntegrity
import ForestLink.Proofs.ReceiverPointer
import ForestLink.Uart.IngestRuns
import ForestLink.Proofs.IngestStorage
import ForestLink.Proofs.IngestErrors
import ForestLink.Proofs.IngestRelease
import ForestLink.Proofs.SentPayloads
import ForestLink.Proofs.ParityTransmission
import ForestLink.Proofs.RtoBounds
import ForestLink.Proofs.LocalExitWindow
import ForestLink.Proofs.NextHop
import ForestLink.Mesh.RouteCalls
import ForestLink.Mesh.SeenCalls
import ForestLink.Mesh.ElectionLoop
import ForestLink.Mesh.OowQueue
import ForestLink.Proofs.RouteRepresentation
import ForestLink.Proofs.LinkEtx
import ForestLink.Proofs.SeenCapacity
import ForestLink.Proofs.ExitElection
import ForestLink.Proofs.OowDrain
import ForestLink.Proofs.OowArrays
import ForestLink.Proofs.OowQueue
import ForestLink.Lib.Streak
import ForestLink.Mesh.RouteDetector
import ForestLink.Proofs.SwitchDetector
import ForestLink.Lib.Extent
import ForestLink.Sd.ReadCache
import ForestLink.Proofs.SdReads
import ForestLink.Proofs.SdOpening
import ForestLink.Proofs.NackDiscipline
import ForestLink.Proofs.StallPacing
import ForestLink.Proofs.ExitCount
import ForestLink.Lib.FirstSeen
import ForestLink.Cloud.TopologyGraph
import ForestLink.Proofs.TopologyShape
import ForestLink.Protocol.IndexMaps
import ForestLink.Proofs.IndexAgreement
import ForestLink.Proofs.SetupTotal
import ForestLink.Proofs.GatheredChunks
import ForestLink.Proofs.SavedUploads
import ForestLink.Proofs.ServiceOrder
import ForestLink.Lib.FirstFree
import ForestLink.Cloud.Save
import ForestLink.Proofs.SavedNames
import ForestLink.Proofs.IngressUploads
import ForestLink.Proofs.ArqDelivery
import ForestLink.Proofs.GroundedRoutes
import ForestLink.Proofs.SerialUpload
import ForestLink.Proofs.LocalExitFile
