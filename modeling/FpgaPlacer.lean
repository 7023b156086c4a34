import FpgaPlacer.Config.Load
import FpgaPlacer.Design.Amend
import FpgaPlacer.Design.Construct
import FpgaPlacer.Fabric.GridView
import FpgaPlacer.Flow
import FpgaPlacer.Json.Records
import FpgaPlacer.Json.Text
import FpgaPlacer.Layout.RouteDelay
import FpgaPlacer.Proofs.EarlyStopping
import FpgaPlacer.Proofs.ChecksumSensitivity
import FpgaPlacer.Proofs.ReaddedPorts
import FpgaPlacer.Proofs.PlacementErrors
import FpgaPlacer.Proofs.ForcedFlow
import FpgaPlacer.Proofs.Capacity
import FpgaPlacer.Proofs.FirstFitCapacity
import FpgaPlacer.Proofs.GreedyCapacity
import FpgaPlacer.Proofs.RepeatedPlacement
import FpgaPlacer.Proofs.ImprovementPasses
import FpgaPlacer.Proofs.MaintainedRules
import FpgaPlacer.Proofs.StrandedPips
import FpgaPlacer.Proofs.PassingLayouts
import FpgaPlacer.Proofs.UnorderedContent
import FpgaPlacer.Proofs.PlacementFrame
import FpgaPlacer.Proofs.OverusedTypes
import FpgaPlacer.Proofs.ReportedFlow
import FpgaPlacer.Proofs.FaultlessGrid
import FpgaPlacer.Proofs.RenamedPlacement
import FpgaPlacer.Proofs.JsonRecords
import FpgaPlacer.Proofs.RoutedDelays
import FpgaPlacer.Proofs.FailedMoves
import FpgaPlacer.Proofs.ShorterWiring
import FpgaPlacer.Proofs.UnknownTypes
import FpgaPlacer.Proofs.SatisfiableLocations
import FpgaPlacer.Proofs.DealtBels
import FpgaPlacer.Proofs.RepeatedMoves
import FpgaPlacer.Proofs.IndependentBindings
import FpgaPlacer.Proofs.DocumentedConfig
import FpgaPlacer.Proofs.GridSelfCheck
import FpgaPlacer.Proofs.UniformGrids
import FpgaPlacer.Proofs.RenderedDiagnostics
import FpgaPlacer.Proofs.InternerRuns
