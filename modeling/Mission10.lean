import Mission10.Dataset.CleanNegatives
import Mission10.Dataset.ComponentAgreement
import Mission10.Dataset.CompositionIdentity
import Mission10.Dataset.EpochAllocation
import Mission10.Dataset.FoldLocks
import Mission10.Dataset.HeldOut
import Mission10.Dataset.JitteredGrids
import Mission10.Dataset.LeakFilter
import Mission10.Dataset.RealPositives
import Mission10.Dataset.TileLabels
import Mission10.Dataset.TrainingTiles
import Mission10.Drones.BestPath
import Mission10.Drones.ExplorerRegistry
import Mission10.Drones.Georeference
import Mission10.Drones.PathCommands
import Mission10.Engine.AbortOrder
import Mission10.Engine.AnchorBreach
import Mission10.Engine.AnchorDatum
import Mission10.Engine.BackProjection
import Mission10.Engine.CellVisits
import Mission10.Engine.CorrectionBounds
import Mission10.Engine.DumpFrame
import Mission10.Engine.FieldInset
import Mission10.Engine.FieldSurvey
import Mission10.Engine.LandingGate
import Mission10.Engine.PassFixes
import Mission10.Engine.PoseTimeline
import Mission10.Engine.RigidFits
import Mission10.Engine.RosetteRuns
import Mission10.Engine.StatusLadder
import Mission10.Engine.SurveyCoverage
import Mission10.Engine.TagEvPriors
import Mission10.Engine.TrackAssociation
import Mission10.Engine.Tracklets
import Mission10.Flight.ArmingGate
import Mission10.Flight.DisarmedFinish
import Mission10.Flight.FailsafeYield
import Mission10.Flight.FusedTracker
import Mission10.Flight.OrbitRuns
import Mission10.Flight.OrbitSeparation
import Mission10.Flight.OrcaProgram
import Mission10.Flight.OrcaSafety
import Mission10.Flight.PhaseDeconfliction
import Mission10.Flight.SurveyHome
import Mission10.Flight.SurveyLanes
import Mission10.Flight.SurveyTour
import Mission10.Flight.VoronoiSeparation
import Mission10.Jarvis.Utterance
import Mission10.Library.AxisRotation
import Mission10.Sensing.ClockMapper
import Mission10.Sensing.DetectedFrames
import Mission10.Sensing.DetectionFaults
import Mission10.Sensing.FlowDerotation
import Mission10.Sensing.FlowFrontend
import Mission10.Sensing.FrameLeases
import Mission10.Sensing.FrameSinks
import Mission10.Sensing.ImageScoring
import Mission10.Sensing.SvoFlow
import Mission10.Sensing.TileGrids
import Mission10.Uwb.AirCodec
import Mission10.Uwb.AttemptSpacing
import Mission10.Uwb.ClockCorrelator
import Mission10.Uwb.ClockRefresh
import Mission10.Uwb.DecoderInput
import Mission10.Uwb.FleetModeRepeats
import Mission10.Uwb.FrameTotality
import Mission10.Uwb.HostRoundTrip
import Mission10.Uwb.HostStream
import Mission10.Uwb.MeasurementDelivery
import Mission10.Uwb.OldestFirst
import Mission10.Uwb.OwnState
import Mission10.Uwb.PairSelection
import Mission10.Uwb.PollAdmission
import Mission10.Uwb.QueueBounds
import Mission10.Uwb.RadioDecoding
import Mission10.Uwb.RateLaw
import Mission10.Uwb.Reconfiguration
import Mission10.Uwb.TwoWayRanging
