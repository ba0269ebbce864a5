import FacePipeline.Align.FaceAligner
import FacePipeline.Align.SimilarityTransform
import FacePipeline.Indexing.AddChecks
import FacePipeline.Indexing.Atomicity
import FacePipeline.Indexing.Identities
import FacePipeline.Indexing.Ranking
import FacePipeline.Indexing.SearchBatch
import FacePipeline.Indexing.SimilarityRange
import FacePipeline.Indexing.TrainingParameters
import FacePipeline.Lib.Binary64
import FacePipeline.Lib.Descending
import FacePipeline.Lib.Greedy
import FacePipeline.Lib.Hoare
import FacePipeline.Lib.Nearest
import FacePipeline.Lib.OrderedMap
import FacePipeline.Lib.Runs
import FacePipeline.Lib.Scratch
import FacePipeline.Lib.Similarity
import FacePipeline.Lib.TopK
import FacePipeline.Lib.Traverse
import FacePipeline.Basic
import FacePipeline.Config.SystemConfig
import FacePipeline.Pipeline.Competitors
import FacePipeline.Pipeline.DeepStreamPipeline
import FacePipeline.Pipeline.Lifecycle
import FacePipeline.Pipeline.MatchDecision
import FacePipeline.Pipeline.ProbeChain
import FacePipeline.Pipeline.ProcessSpec
import FacePipeline.Pipeline.Resilience
import FacePipeline.Pipeline.SecondPhoto
import FacePipeline.Pipeline.Shutdown
import FacePipeline.Pipeline.SourceCleanup
import FacePipeline.Pipeline.SourceRegistry
import FacePipeline.Pipeline.StaleFields
import FacePipeline.Pipeline.TopKChoice
import FacePipeline.Trt.Allocation
import FacePipeline.Trt.ArcFaceEncoder
import FacePipeline.Trt.BatchedEncoding
import FacePipeline.Trt.CopyBounds
import FacePipeline.Trt.DecodeBounds
import FacePipeline.Trt.DecodeRows
import FacePipeline.Trt.DetectorCopies
import FacePipeline.Trt.Embeddings
import FacePipeline.Trt.EncodeOneByOne
import FacePipeline.Trt.EncoderCopies
import FacePipeline.Trt.FailedShape
import FacePipeline.Trt.InputTensor
import FacePipeline.Trt.Device
import FacePipeline.Trt.Letterbox
import FacePipeline.Trt.LetterboxGeometry
import FacePipeline.Trt.LetterboxInvariance
import FacePipeline.Trt.Nms
import FacePipeline.Trt.OneByOne
import FacePipeline.Trt.Overlap
import FacePipeline.Trt.Preprocess
import FacePipeline.Trt.StrideResolution
import FacePipeline.Trt.ThresholdFilter
import FacePipeline.Lib.FirstWins
import FacePipeline.Lib.Fnv
import FacePipeline.Lib.Locked
import FacePipeline.Lib.Ownership
import FacePipeline.Lib.Yaml
import FacePipeline.Config.Load
import FacePipeline.Indexing.Forgotten
import FacePipeline.Pipeline.Clients
import FacePipeline.Tools.FaceEnroll
import FacePipeline.Tools.FaceServer
import FacePipeline.Tools.Names
import FacePipeline.Tools.ServerExit
import FacePipeline.Utils.CudaHelpers
import FacePipeline.Indexing.Restart
import FacePipeline.Lib.Computes
import FacePipeline.Trt.DetectOneByOne
