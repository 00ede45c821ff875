import FabPcb.OrderedMap
import FabPcb.Writes
import FabPcb.Runs
import FabPcb.Grouping
import FabPcb.Items
import FabPcb.Errors
import FabPcb.Document
import FabPcb.ItemStore
import FabPcb.StoreContent
import FabPcb.StoreIndex
import FabPcb.StoreDiff
import FabPcb.Undo
import FabPcb.Sync
import FabPcb.DocumentHistory
import FabPcb.Rollback
import FabPcb.CommitOps
import FabPcb.Flush
import FabPcb.CallRows
import FabPcb.Alignment
import FabPcb.Execution
import FabPcb.DroppedCommit
import FabPcb.PartialReject
import FabPcb.ItemsSince
import FabPcb.Reads
import FabPcb.ReadContent
import FabPcb.Revision
import FabPcb.CommitRun
import FabPcb.ItemRequests
import FabPcb.Finalization
import FabPcb.EditHistory
import FabPcb.PatchHistory
import FabPcb.Correlation
import FabPcb.NngFraming
import FabPcb.NngTransport
import FabPcb.NngIpc
import FabPcb.NngWs
import FabPcb.SessionLock
import FabPcb.CommandRun
import FabPcb.CommitOwnership
import FabPcb.ReplayFailure
import FabPcb.CommandHistory
import FabPcb.AppItemStore
import FabPcb.StoreMutator
import FabPcb.StoreTransaction
import FabPcb.CommandUndo
import FabPcb.DocumentMirror
import FabPcb.MirrorSound
import FabPcb.DirtyFlag
import FabPcb.SessionState
import FabPcb.SessionRegistry
import FabPcb.RegistrySafety
import FabPcb.NngOutbound
import FabPcb.WasmTransport
import FabPcb.WsBridgeProtocol
import FabPcb.WebSocketTransport
import FabPcb.WsBridge
import FabPcb.BridgeCorrelation
import FabPcb.BridgeReplies
import FabPcb.StdioTransport
import FabPcb.StreamDecoder
import FabPcb.FrameParsers
import FabPcb.FrameRoundTrip
import FabPcb.Worklist
import FabPcb.Outline
import FabPcb.OutlineContour
import FabPcb.OutlineChain
import FabPcb.ChainJoints
import FabPcb.ChainLoops
import FabPcb.CycleSearch
import FabPcb.ContourCycles
import FabPcb.ContourAreas
import FabPcb.ContourSplit
import FabPcb.BoardJob
import FabPcb.ApplyNetlist
import FabPcb.OutlineRebuild
import FabPcb.OutlineRecompile
import FabPcb.SExprText
import FabPcb.NetlistChecks
import FabPcb.NetlistExact
import FabPcb.Compile
import FabPcb.FailedCompile
import FabPcb.SExprRoundTrip
import FabPcb.SpecctraData
import FabPcb.KicadSExpr
import FabPcb.KicadNetlist
import FabPcb.NetlistRoundTrip
import FabPcb.FreshNames
import FabPcb.VirtualReferences
import FabPcb.SchematicLayout
import FabPcb.SchematicStubs
import FabPcb.SExprLoop
import FabPcb.SExprEmitters
import FabPcb.EmitterRoundTrip
import FabPcb.Dialogue
import FabPcb.RouteJob
import FabPcb.RouteWorld
import FabPcb.JobRules
import FabPcb.JobStates
import FabPcb.JobUndo
import FabPcb.JobFailure
import FabPcb.CleanupConvergence
import FabPcb.FileTree
import FabPcb.ServedFiles
import FabPcb.DsnWriter
import FabPcb.DsnPins
import FabPcb.RequestRules
import FabPcb.DsnClasses
import FabPcb.DsnPadstacks
import FabPcb.DsnClosure
import FabPcb.SExprForms
import FabPcb.SExprSpelling
import FabPcb.DsnForms
import FabPcb.DrillClearance
import FabPcb.DrillSufficiency
import FabPcb.ServerRestart
import FabPcb.MirrorTrees
import FabPcb.DirMirror
import FabPcb.FootprintItems
import FabPcb.FootprintZones
import FabPcb.RenderShapes
import FabPcb.RenderScene
import FabPcb.SceneDrawings
import FabPcb.SceneContexts
import FabPcb.SceneCache
import FabPcb.SceneItems
import FabPcb.CanvasHost
import FabPcb.CanvasRuns
import FabPcb.BoardRuns
import FabPcb.WebGeometry
import FabPcb.FootprintMovers
import FabPcb.ClonePaste
import FabPcb.ChildWalk
import FabPcb.PasteCopies
import FabPcb.AutorouteEvents
import FabPcb.AutorouteService
import FabPcb.AutorouteRuns
import FabPcb.AutorouteIsolation
import FabPcb.StagedFiles
import FabPcb.StagedWrites
import FabPcb.RuleRequests
import FabPcb.RequestEffects
import FabPcb.FlushWakeup
import FabPcb.WireFormat
import FabPcb.TextDecoding
import FabPcb.EnvelopeScan
import FabPcb.EnvelopeNames
import FabPcb.SignedNumbers
import FabPcb.UnitArithmetic
import FabPcb.ArithmeticGrammar
import FabPcb.ArithmeticReading
import FabPcb.FootprintCalls
import FabPcb.FootprintMotions
import FabPcb.WalkLaws
import FabPcb.Crc32
import FabPcb.ZipFormat
import FabPcb.ZipStore
import FabPcb.ZipRoundTrip
import FabPcb.ZipArchive
import FabPcb.TextShapes
import FabPcb.TextConvergence
import FabPcb.WasmWorker
import FabPcb.WasmCalls
import FabPcb.PointDistances
import FabPcb.EventStream
import FabPcb.FontNames
import FabPcb.FootprintPlacement
import FabPcb.NetlistJson
import FabPcb.PadPolygons
import FabPcb.LibraryLookups
import FabPcb.ToolSessions
import FabPcb.SchematicTexts
import FabPcb.TextRequests
import FabPcb.JsonText
import FabPcb.TextHashes
import FabPcb.RoundedShapes
import FabPcb.EndpointCollisions
import FabPcb.BoxUnions
import FabPcb.StructuralPatch
import FabPcb.FieldEdits
import FabPcb.AlignItems
import FabPcb.EventSubscribers
import FabPcb.CameraFrames
import FabPcb.EventGaps
