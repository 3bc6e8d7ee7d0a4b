import Inference.JobQueue
import Inference.Main
import Inference.Operand.Text
import Inference.Options.Json
import Inference.Proofs.Kernel.Window
import Inference.Proofs.Layer.Broadcast
import Inference.Proofs.Layer.Contract
import Inference.Proofs.Layer.Convolution
import Inference.Proofs.Layer.Pointwise
import Inference.Proofs.Layer.Pooling
import Inference.Proofs.Layer.Refusal
import Inference.Proofs.ModelFile.Truncation
import Inference.Proofs.Session.Commuting
import Inference.Proofs.Session.Consistency
import Inference.Proofs.Session.Copying
import Inference.Proofs.Session.Faultless
import Inference.Proofs.Session.Synchronous
import Inference.Proofs.Layer.Coherence
import Inference.Proofs.Session.Coherence
import Inference.Proofs.Operand.Length
import Inference.Proofs.Text.Damage
import Inference.Proofs.ModelFile.Name
import Inference.Proofs.Session.Oversize
import Inference.Proofs.Dims.ByteLength
import Inference.Proofs.JobQueue.History
import Inference.Proofs.JobQueue.Once
