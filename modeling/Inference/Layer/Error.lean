import Inference.Checked
import Inference.Dims
import Inference.Layer.Code
/-! Why a tensor or a layer is refused. -/
namespace Inference

inductive KernelError where
  | operandOutOfRange (index count : Nat)
  | noInput
  | noData (operand : String)
  | unusableDims (operand : String) (dims : Dims)
  | wrongValueCount (operand : String) (held : Nat) (dims : Dims) (needed : Nat)
  | oversizedAxis (size : Nat)
  | oversizedOutput (shape : Shape)
  | lengthOverflow (operand : String)
  | wrongLength (operand : String) (expected found : Nat)
  | wrongChannels (kind : LayerKind) (expected found : Nat)
  | tooSmallForPadding (width height pad : Nat)
  | tooSmallForWindow (width height window : Nat)
  | unevenBlocks (channels area : Nat)
  | paddedBatch
  | oversizedPadding (mode : PadMode) (before after axis size : Nat)
  | paddedAxisOverflow (axis : Nat)
  | unequalLengths (left right : Nat)
  | noTensor
  | missingTensor
  | fault (fault : Fault)
  deriving DecidableEq

namespace KernelError

def message : KernelError → String
  | .operandOutOfRange index count => s!"operand index {index} out of range ({count} operands)"
  | .noInput => "layer has no input operand"
  | .noData operand => s!"operand \"{operand}\" has no data"
  | .unusableDims operand dims => s!"operand \"{operand}\" has unusable dims {dims}"
  | .wrongValueCount operand held dims needed =>
    s!"operand \"{operand}\" holds {held} values, dims {dims} need {needed}"
  | .oversizedAxis size => s!"output dim {size} too large"
  | .oversizedOutput shape => s!"output dims {shape} overflow the tensor length"
  | .lengthOverflow operand => s!"data length of operand \"{operand}\" overflows"
  | .wrongLength operand expected found =>
    s!"operand \"{operand}\" expects {expected} bytes, got {found}"
  | .wrongChannels kind expected found =>
    s!"{kind.label} expects {expected} input channels, operand has {found}"
  | .tooSmallForPadding width height pad =>
    s!"conv2d input {width}x{height} too small for valid padding {pad}"
  | .tooSmallForWindow width height window =>
    s!"avg_pool input {width}x{height} smaller than kernel {window}"
  | .unevenBlocks channels area =>
    s!"depth_to_space: {channels} channels not divisible by block area {area}"
  | .paddedBatch => "padding along the batch axis is not supported"
  | .oversizedPadding mode before after axis size =>
    s!"{mode.name} padding ({before}, {after}) too large for axis {axis} of size {size}"
  | .paddedAxisOverflow axis => s!"padded axis {axis} overflows"
  | .unequalLengths left right => s!"math_binary operands differ in length: {left} vs {right}"
  | .noTensor => "math_binary needs at least one tensor operand"
  | .missingTensor => "math_binary is missing a tensor operand"
  | .fault _ => "arithmetic fault"

instance : MonadLift (Except Fault) (Except KernelError) := ⟨Except.mapError .fault⟩

end KernelError
end Inference
