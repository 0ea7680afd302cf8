import GeoWorld.Ai.ArtifactRuntime
import GeoWorld.Ai.ArtifactSwap
import GeoWorld.Ai.CompiledMachine
import GeoWorld.Ai.Decision
import GeoWorld.Ai.EventDispatch
import GeoWorld.Ai.FiniteStateMachine
import GeoWorld.Ai.Hfsm
import GeoWorld.Ai.TaskScheduler
import GeoWorld.Ai.UnreachableStates
import GeoWorld.Client.ThinClient
import GeoWorld.Debug.StateHash
import GeoWorld.Ecs.Consistency
import GeoWorld.Ecs.Handles
import GeoWorld.Ecs.Runtime
import GeoWorld.Editor.BehaviorGraph
import GeoWorld.Editor.GraphModel
import GeoWorld.Editor.HfsmGraph
import GeoWorld.Foundation.RandomStreams
import GeoWorld.Gateway.AckLoop
import GeoWorld.Gateway.Admission
import GeoWorld.Gateway.AdmissionGrowth
import GeoWorld.Gateway.Backpressure
import GeoWorld.Gateway.CaptureLsn
import GeoWorld.Gateway.CommandBudget
import GeoWorld.Gateway.CommandFingerprint
import GeoWorld.Gateway.ControlService
import GeoWorld.Gateway.DurableCodec
import GeoWorld.Gateway.DurableIndex
import GeoWorld.Gateway.DurableOnce
import GeoWorld.Gateway.DurableRecord
import GeoWorld.Gateway.ExactlyOnce
import GeoWorld.Gateway.FrameCodec
import GeoWorld.Gateway.HandOverStep
import GeoWorld.Gateway.HashAgreement
import GeoWorld.Gateway.InboundAck
import GeoWorld.Gateway.IngressOrder
import GeoWorld.Gateway.InterestExtent
import GeoWorld.Gateway.LocalSession
import GeoWorld.Gateway.MainLoop
import GeoWorld.Gateway.OwnershipGrants
import GeoWorld.Gateway.Pump
import GeoWorld.Gateway.RemoteReplica
import GeoWorld.Gateway.SessionClose
import GeoWorld.Gateway.SessionCore
import GeoWorld.Gateway.ShardSession
import GeoWorld.Gateway.StateQueue
import GeoWorld.Gateway.StreamTickets
import GeoWorld.Gateway.TickDivisors
import GeoWorld.Gateway.Types
import GeoWorld.Gateway.WriteLease
import GeoWorld.Gateway.WriteOrder
import GeoWorld.Library.AlignedCode
import GeoWorld.Library.Binary64
import GeoWorld.Library.ByteReader
import GeoWorld.Library.CallTrace
import GeoWorld.Library.CrashDisk
import GeoWorld.Library.DecimalWord
import GeoWorld.Library.DependencyOrder
import GeoWorld.Library.EditScript
import GeoWorld.Library.EffectProgram
import GeoWorld.Library.History
import GeoWorld.Library.IdTables
import GeoWorld.Library.KeyTally
import GeoWorld.Library.LabelledGraph
import GeoWorld.Library.LittleEndian
import GeoWorld.Library.MixedCounter
import GeoWorld.Library.NanArithmetic
import GeoWorld.Library.NumberedQueue
import GeoWorld.Library.OnceLedger
import GeoWorld.Library.ParallelSlots
import GeoWorld.Library.ParentChain
import GeoWorld.Library.PeriodicTimer
import GeoWorld.Library.Placement
import GeoWorld.Library.PrefixCode
import GeoWorld.Library.ReplaySpan
import GeoWorld.Library.RoseTree
import GeoWorld.Library.Runs
import GeoWorld.Library.ServiceRounds
import GeoWorld.Library.SlotHistory
import GeoWorld.Library.SortedMerge
import GeoWorld.Library.SortedSelection
import GeoWorld.Library.ThreeColours
import GeoWorld.Library.TokenBucket
import GeoWorld.Library.TreeMap
import GeoWorld.Library.Utf8
import GeoWorld.Library.Worklist
import GeoWorld.Library.WriteList
import GeoWorld.Library.Xml
import GeoWorld.Library.XmlRoundTrip
import GeoWorld.Persistence.AtomicPublish
import GeoWorld.Persistence.Branch
import GeoWorld.Persistence.BranchFork
import GeoWorld.Persistence.CheckpointCodec
import GeoWorld.Persistence.CheckpointLoader
import GeoWorld.Persistence.CheckpointPublish
import GeoWorld.Persistence.ContentHash
import GeoWorld.Persistence.CrashAtomic
import GeoWorld.Persistence.HashDivergence
import GeoWorld.Persistence.OverlayPublish
import GeoWorld.Persistence.PayloadBytes
import GeoWorld.Persistence.PublishCrash
import GeoWorld.Persistence.PublishRetry
import GeoWorld.Persistence.PublishSteps
import GeoWorld.Persistence.QueueRestore
import GeoWorld.Persistence.RandomProvider
import GeoWorld.Persistence.RecordLimit
import GeoWorld.Persistence.RecoveryComplete
import GeoWorld.Persistence.RecoveryReads
import GeoWorld.Persistence.RestoreOrder
import GeoWorld.Persistence.RuntimeProvider
import GeoWorld.Persistence.SegmentNames
import GeoWorld.Persistence.SnapshotCompare
import GeoWorld.Persistence.Storage
import GeoWorld.Persistence.TableCode
import GeoWorld.Persistence.TornTail
import GeoWorld.Persistence.WalAppend
import GeoWorld.Persistence.WalCodec
import GeoWorld.Persistence.WalDamage
import GeoWorld.Persistence.WalFloor
import GeoWorld.Persistence.WalLimit
import GeoWorld.Persistence.WalPrune
import GeoWorld.Persistence.WalReader
import GeoWorld.Persistence.WalScan
import GeoWorld.Persistence.WalStart
import GeoWorld.Persistence.WalThread
import GeoWorld.Persistence.WalVerdict
import GeoWorld.Persistence.WorldCheckpoint
import GeoWorld.Persistence.WorldOverlay
import GeoWorld.Persistence.WorldProvider
import GeoWorld.Projection.AckReplay
import GeoWorld.Projection.AckWindow
import GeoWorld.Projection.BuildFrame
import GeoWorld.Projection.CachedScan
import GeoWorld.Projection.Connection
import GeoWorld.Projection.ConnectionInvariant
import GeoWorld.Projection.ConnectionSet
import GeoWorld.Projection.DeltaActions
import GeoWorld.Projection.DeltaLoop
import GeoWorld.Projection.DeltaOutcome
import GeoWorld.Projection.DirtyScan
import GeoWorld.Projection.Engine
import GeoWorld.Projection.EngineInvariant
import GeoWorld.Projection.Entity
import GeoWorld.Projection.FeatureIds
import GeoWorld.Projection.FidCap
import GeoWorld.Projection.Frame
import GeoWorld.Projection.FrameLog
import GeoWorld.Projection.FullProjection
import GeoWorld.Projection.GlobalView
import GeoWorld.Projection.IncrementalView
import GeoWorld.Projection.KeyframeOutcome
import GeoWorld.Projection.KeyframeSchedule
import GeoWorld.Projection.ParallelProjection
import GeoWorld.Projection.RecordBooks
import GeoWorld.Projection.RelationOrder
import GeoWorld.Projection.Replica
import GeoWorld.Projection.ReplicaAgreement
import GeoWorld.Projection.SentFrames
import GeoWorld.Projection.SlotInvariant
import GeoWorld.Projection.SlotSteps
import GeoWorld.Projection.SpatialIndex
import GeoWorld.Projection.UpdateFairness
import GeoWorld.Projection.UpdateRate
import GeoWorld.Projection.ViewConvergence
import GeoWorld.Projection.WellFormedDelta
import GeoWorld.Protocol.ClientControl
import GeoWorld.Protocol.EntityHash
import GeoWorld.Protocol.Interpolation
import GeoWorld.Protocol.RoundTrip
import GeoWorld.Protocol.ServerDecoder
import GeoWorld.Protocol.ServerEncoder
import GeoWorld.Protocol.ServerFrame
import GeoWorld.Protocol.StreamBuilder
import GeoWorld.Protocol.Wire
import GeoWorld.Rules.EventBus
import GeoWorld.Rules.Expression
import GeoWorld.Rules.RuleEngine
import GeoWorld.Simulation.CommandBuffer
import GeoWorld.Simulation.OneOutcome
import GeoWorld.Spatial.CellGrid
import GeoWorld.Spatial.Streaming
import GeoWorld.Tooling.ArtifactCode
import GeoWorld.Tooling.ArtifactFields
import GeoWorld.Tooling.BehaviorArtifact
import GeoWorld.Tooling.BehaviorTree
import GeoWorld.Tooling.BehaviorXml
import GeoWorld.Tooling.Diagnostic
import GeoWorld.Tooling.DocumentTree
import GeoWorld.Tooling.HfsmDocument
import GeoWorld.Tooling.HfsmValidation
import GeoWorld.Tooling.JsonText
import GeoWorld.Tooling.TreeArtifact
import GeoWorld.Tooling.TreeValidation
import GeoWorld.Tooling.XmlMeaning
import GeoWorld.WorldModel.CopyOnWrite
import GeoWorld.WorldModel.Object
import GeoWorld.WorldModel.World
import GeoWorld.WorldModel.WorldInvariant
