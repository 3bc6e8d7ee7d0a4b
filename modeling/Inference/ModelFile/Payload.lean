import Inference.Layer
import Inference.ModelFile.Reader
/-! The layer records of a model file: the kind, the parameters, and the operands read and
written. -/
namespace Inference.Reader

variable (operands : Nat)

def biases (present : Bool) (count : Nat) : Reader (Option (Array Single)) := do
  if present then return some (← singles count) else return none

def kernel (kind : LayerKind) (count : Nat) : Reader (Array Single) := do
  if Checked.sizeLimit ≤ count then fail (.oversizedKernel kind)
  singles count

/-- The one input and the output that end the records of most layers. -/
def ends (params : LayerParams) : Reader Layer := do
  let input ← operandIndex operands
  let output ← operandIndex operands
  return ⟨params, [input], output⟩

def conv2d : Reader Layer := do
  let dilation ← positive "conv2d dilation"
  let padding ← code Padding.ofCode? (.unknownCode "conv2d padding method")
  let activation ← code Activation.ofCode? (.unknownCode "conv2d activation")
  let inputNum ← positive "conv2d input_num"
  let outputNum ← positive "conv2d output_num"
  let kernelSize ← positive "conv2d kernel_size"
  let biased ← flag
  let weights ← kernel .conv2d (kernelSize * kernelSize * outputNum * inputNum)
  let biases ← biases biased outputNum
  ends operands (.conv2d
    ⟨inputNum, outputNum, kernelSize, dilation, padding, activation, weights, biases⟩)

def depthToSpace : Reader Layer := do
  ends operands (.depthToSpace (← positive "depth_to_space block_size"))

def margin : Reader Margin := do
  let before ← count "padding"
  let after ← count "padding"
  return ⟨before, after⟩

def mirrorPad : Reader Layer := do
  let mode ← code PadMode.ofCode? (.unknownCode "pad mode")
  let batch ← margin
  let height ← margin
  let width ← margin
  let channels ← margin
  ends operands (.mirrorPad ⟨mode, batch, height, width, channels, .zero⟩)

def maximum : Reader Layer := do
  ends operands (.maximum (← single))

/-- A side that is a value, or a tensor together with its operand. -/
def binarySide : Reader (BinarySide × List Nat) := do
  if ← flag then return (.scalar (← single), [])
  else return (.tensor, [← operandIndex operands])

def mathBinary : Reader Layer := do
  let op ← code BinaryOp.ofCode? (.unknownCode "math_binary op")
  let (left, leftInputs) ← binarySide operands
  let (right, rightInputs) ← binarySide operands
  let inputs := leftInputs ++ rightInputs
  if inputs.isEmpty then fail .noTensorSide
  let output ← operandIndex operands
  return ⟨.mathBinary ⟨op, left, right⟩, inputs, output⟩

def mathUnary : Reader Layer := do
  ends operands (.mathUnary (← code UnaryOp.ofCode? (.unknownCode "math_unary op")))

/-- The paddings that a pooling layer has. -/
def poolPadding? (code : Int32) : Option Padding :=
  (Padding.ofCode? code).filter (· ≠ .sameClampToEdge)

def avgPool : Reader Layer := do
  let strides ← positive "avg_pool strides"
  let padding ← code poolPadding? (.unknownCode "avg_pool padding method")
  let kernelSize ← positive "avg_pool kernel_size"
  ends operands (.avgPool ⟨strides, padding, kernelSize⟩)

def dense : Reader Layer := do
  let activation ← code Activation.ofCode? (.unknownCode "dense activation")
  let inputNum ← positive "dense input_num"
  let outputNum ← positive "dense output_num"
  let biased ← flag
  let weights ← kernel .dense (inputNum * outputNum)
  let biases ← biases biased outputNum
  ends operands (.dense ⟨inputNum, outputNum, activation, weights, biases⟩)

def payload : LayerKind → Reader Layer
  | .identity => ends operands .identity
  | .conv2d => conv2d operands
  | .depthToSpace => depthToSpace operands
  | .mirrorPad => mirrorPad operands
  | .maximum => maximum operands
  | .mathBinary => mathBinary operands
  | .mathUnary => mathUnary operands
  | .avgPool => avgPool operands
  | .dense => dense operands

def layer : Reader Layer := do
  payload operands (← code LayerKind.ofCode? .unknownLayer)

end Inference.Reader
