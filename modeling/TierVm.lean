import TierVm.Code.Assembler
import TierVm.Exec.Describe
import TierVm.Session
import TierVm.Support.Routine
import TierVm.Proofs.ModeIndependence
import TierVm.Proofs.VerifierSoundness
import TierVm.Proofs.VerifierExactness
import TierVm.Proofs.LoweringTotal
import TierVm.Proofs.StoredResults
import TierVm.Proofs.Isolation
import TierVm.Proofs.Attribution
import TierVm.Proofs.Callbacks
import TierVm.Proofs.Termination
import TierVm.Proofs.Associations
import TierVm.Proofs.CacheHistory
import TierVm.Proofs.EngineProcess
import TierVm.Proofs.CodeLifetime
import TierVm.Proofs.HotFunctions
import TierVm.Proofs.Traces
import TierVm.Proofs.CompilationEpochs
import TierVm.Proofs.HotTrigger
import TierVm.Proofs.FailedCompilation
import TierVm.Proofs.ReturnProtocol
import TierVm.Proofs.AbortEffects
import TierVm.Proofs.FrameHistory
import TierVm.Proofs.FrameRegions
import TierVm.Proofs.LabelResolution
import TierVm.Proofs.HeapHistory
import TierVm.Proofs.MemoryAccess
import TierVm.Proofs.IntegerText
