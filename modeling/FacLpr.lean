import FacLpr.Foundations.Text
import FacLpr.Foundations.Binary
import FacLpr.Foundations.StableSort
import FacLpr.Foundations.WeightedPaths
import FacLpr.Foundations.Scalar
import FacLpr.Application.PipelineResult
import FacLpr.CApi.TwoPass
import FacLpr.CApi.StaleHandle
import FacLpr.Application.TurkishPlateGrammar
import FacLpr.Application.SessionAtomicity
import FacLpr.Application.ConsensusVote
import FacLpr.Application.FusionConflict
import FacLpr.Application.DetectionIsolation
import FacLpr.Infrastructure.Lprnet.BeamExactness
import FacLpr.Application.OperationContext
import FacLpr.Application.LprPipeline
import FacLpr.Infrastructure.Lprnet.PublishedPlates
import FacLpr.Application.ConfidenceCalibration
import FacLpr.Infrastructure.Crop.CropHypothesisGenerator
import FacLpr.Infrastructure.Crop.UnratedCrops
import FacLpr.Infrastructure.Concurrency.PoolWakeups
import FacLpr.Infrastructure.Concurrency.ShutdownBarrier
import FacLpr.Application.ReportedScores
import FacLpr.Foundations.BinaryScalar
import FacLpr.Application.SteadyClock
import FacLpr.Application.ProbableScores
import FacLpr.Application.ComposedPipeline
import FacLpr.CApi.SerializableResults
import FacLpr.Application.PlateLanguage
import FacLpr.Infrastructure.Model.AtomicModelSlot
import FacLpr.Infrastructure.Crypto.Sha256
import FacLpr.Infrastructure.Paddle.CacheTransparency
import FacLpr.CApi.LastError
import FacLpr.Foundations.Stores
import FacLpr.Infrastructure.PixelSampling
import FacLpr.Infrastructure.CropQuality
import FacLpr.Infrastructure.NativeImageWorkspace
import FacLpr.Infrastructure.Yolo.YoloPosePreprocessor
import FacLpr.Infrastructure.Lprnet.LprNetPreprocessor
import FacLpr.Infrastructure.WorkspaceReuse
import FacLpr.Infrastructure.Crop.PaddingNoninterference
import FacLpr.Application.MultiDetectorFusion
import FacLpr.Application.GroupOrder
import FacLpr.Application.GroupComponents
import FacLpr.Application.GroupBounds
import FacLpr.Application.GroupConservation
import FacLpr.Application.ProviderTrace
import FacLpr.Application.CancellationIdentity
import FacLpr.Application.EngineBuilder
import FacLpr.Application.StartupSelfTest
import FacLpr.Application.ReadinessAgreement
import FacLpr.Application.AcceptanceSoundness
import FacLpr.Application.FusionClosedForm
import FacLpr.Application.FusionMonotonicity
import FacLpr.Infrastructure.Lprnet.BeamScores
import FacLpr.Application.ConsensusConvergence
import FacLpr.Infrastructure.Lprnet.GreedyDecoding
import FacLpr.Application.SizedImage
import FacLpr.CApi.ImageBoundary
import FacLpr.Infrastructure.CropViews
import FacLpr.Foundations.RowCopies
import FacLpr.Infrastructure.CopyCrop
import FacLpr.Foundations.GreedySuppression
import FacLpr.Foundations.ReadLogs
import FacLpr.Foundations.ExactFloat
import FacLpr.Infrastructure.BoxIntersection
import FacLpr.Infrastructure.Yolo.YoloPoseOutputParser
import FacLpr.Infrastructure.Yolo.DecodedCandidates
import FacLpr.Infrastructure.Yolo.SelectedCandidates
import FacLpr.Infrastructure.Yolo.ParsedDetections
import FacLpr.Infrastructure.Yolo.LayoutEquivariance
import FacLpr.Foundations.AxisTilings
import FacLpr.Infrastructure.Adaptive.AdaptiveTileDetector
import FacLpr.Infrastructure.Adaptive.ScannedTiles
import FacLpr.Infrastructure.Adaptive.MergedDetections
import FacLpr.Application.DisjointSetVectors
import FacLpr.Foundations.SecureHash
import FacLpr.Infrastructure.Crypto.Compression
import FacLpr.Infrastructure.Crypto.Conformance
import FacLpr.Infrastructure.Crop.CropRegions
import FacLpr.Infrastructure.Crop.WellFormedCrops
import FacLpr.Foundations.Quadrilaterals
import FacLpr.Foundations.RealScalar
import FacLpr.Infrastructure.Geometry.PlateGeometryValidator
import FacLpr.Infrastructure.Geometry.CornerOrder
import FacLpr.Infrastructure.Yolo.LetterboxInversion
import FacLpr.Infrastructure.PixelReads
import FacLpr.Infrastructure.Lprnet.FilledTensors
import FacLpr.Application.DecisionMonotonicity
import FacLpr.Foundations.DefinedReal
import FacLpr.Application.LogisticMonotonicity
import FacLpr.Infrastructure.Opencv.DoubleRowNormalizer
import FacLpr.Foundations.Replacement
import FacLpr.Infrastructure.Onnx.PathRedaction
import FacLpr.Foundations.Json
import FacLpr.Foundations.PrintedJson
import FacLpr.Foundations.PrintedNumbers
import FacLpr.Tools.JsonOutput
import FacLpr.Foundations.TaggedFields
import FacLpr.Tools.ModelInspector
import FacLpr.Tools.InspectedModels
import FacLpr.Tools.WrittenModels
import FacLpr.Application.EngineDiagnostics
import FacLpr.Application.DiagnosticsCounts
import FacLpr.Application.DiagnosticsSnapshots
import FacLpr.Foundations.TextLines
import FacLpr.Foundations.LexicalPaths
import FacLpr.Tools.ContractFile
import FacLpr.Infrastructure.Model.ModelLifecycle
import FacLpr.Infrastructure.Model.VerifiedModels
import FacLpr.Tools.ProductionActivationGate
import FacLpr.Infrastructure.Config.LoadedConfigs
import FacLpr.Infrastructure.Yolo.YoloPoseOnnxDetector
import FacLpr.Infrastructure.Lprnet.SessionRecognitions
import FacLpr.Infrastructure.Opencv.CoveredPlates
import FacLpr.Foundations.UnicodeText
import FacLpr.Infrastructure.Config.CalibrationJsonAdapter
import FacLpr.Infrastructure.Config.LoadedCalibrations
import FacLpr.Tools.CalibrationFit
import FacLpr.Tools.FittedCalibrations
import FacLpr.Tools.ExactFits
import FacLpr.Tools.ExactMetrics
