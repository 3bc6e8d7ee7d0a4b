import Mathlib.Data.List.TakeWhile
import Inference.ModelFile.Writer
import Inference.Proofs.Dims
/-! The graphs that model files are for, and the ways to spell one. -/
namespace Inference

/-- A size that is there and that a signed word can hold. -/
def IsSize (n : Nat) : Prop := 0 < n ∧ n < 2 ^ 31

instance (n : Nat) : Decidable (IsSize n) := inferInstanceAs (Decidable (_ ∧ _))

structure Conv2d.WellFormed (p : Conv2d) : Prop where
  inputNum : IsSize p.inputNum
  outputNum : IsSize p.outputNum
  kernelSize : IsSize p.kernelSize
  dilation : IsSize p.dilation
  kernel : p.kernel.size = p.kernelSize * p.kernelSize * p.outputNum * p.inputNum
  biases : ∀ xs ∈ p.biases, xs.size = p.outputNum

structure Dense.WellFormed (p : Dense) : Prop where
  inputNum : IsSize p.inputNum
  outputNum : IsSize p.outputNum
  kernel : p.kernel.size = p.inputNum * p.outputNum
  biases : ∀ xs ∈ p.biases, xs.size = p.outputNum

def Margin.WellFormed (m : Margin) : Prop := m.before < 2 ^ 31 ∧ m.after < 2 ^ 31

structure MirrorPad.WellFormed (p : MirrorPad) : Prop where
  batch : p.batch.WellFormed
  height : p.height.WellFormed
  width : p.width.WellFormed
  channels : p.channels.WellFormed
  constant : p.constant = .zero

structure AvgPool.WellFormed (p : AvgPool) : Prop where
  strides : IsSize p.strides
  kernelSize : IsSize p.kernelSize
  padding : p.padding ≠ .sameClampToEdge

/-- How many operands a side takes. -/
def BinarySide.arity : BinarySide → Nat
  | .scalar _ => 0
  | .tensor => 1

namespace LayerParams

/-- How many operands a layer takes. -/
def arity : LayerParams → Nat
  | .mathBinary p => p.left.arity + p.right.arity
  | _ => 1

def WellFormed : LayerParams → Prop
  | .conv2d p => p.WellFormed
  | .depthToSpace block => IsSize block
  | .mirrorPad p => p.WellFormed
  | .avgPool p => p.WellFormed
  | .dense p => p.WellFormed
  | _ => True

/-- The positions of the weights can be counted. -/
def Addressable : LayerParams → Prop
  | .conv2d p => p.kernel.size < Checked.sizeLimit
  | _ => True

end LayerParams

structure Layer.WellFormed (operands : Nat) (l : Layer) : Prop where
  arity : l.inputs.length = l.params.arity
  someInput : l.inputs ≠ []
  inputs : ∀ i ∈ l.inputs, i < operands
  output : l.output < operands
  params : l.params.WellFormed

structure Operand.WellFormed (o : Operand) : Prop where
  name : ∀ b ∈ o.name.toUTF8.toList, b ≠ 0
  nameLength : o.name.toUTF8.toList.length ≤ ModelFile.maxNameLength
  batch : o.kind = .input → o.dims.batch = 1
  fits : o.dims.Positive → 4 * o.dims.volume ≤ 2147483647
  length : o.length = if o.dims.Positive then 4 * o.dims.volume else 0
  nhwc : o.nhwc = true
  data : o.data = none

structure Graph.WellFormed (g : Graph) : Prop where
  layerCount : g.layers.length < 2 ^ 31
  operandCount : g.operands.size < 2 ^ 31
  layers : ∀ l ∈ g.layers, l.WellFormed g.operands.size
  operands : ∀ o ∈ g.operands, o.WellFormed

/-- What an operand record can stand for. Its name may be longer than the longest name field, as
damaged characters are replaced. -/
structure Operand.Loaded (o : Operand) : Prop where
  batch : o.kind = .input → o.dims.batch = 1
  fits : o.dims.Positive → 4 * o.dims.volume ≤ 2147483647
  length : o.length = if o.dims.Positive then 4 * o.dims.volume else 0
  nhwc : o.nhwc = true
  data : o.data = none

structure Graph.Loaded (g : Graph) : Prop where
  layerCount : g.layers.length < 2 ^ 31
  operandCount : g.operands.size < 2 ^ 31
  layers : ∀ l ∈ g.layers, l.WellFormed g.operands.size
  operands : ∀ o ∈ g.operands, o.Loaded

namespace ModelFile

/-- The records come in any order, a name field may go on behind a zero, and a yes is no zero. -/
structure Spelling.Fits (s : Spelling) (g : Graph) : Prop where
  order : s.order.Perm (List.range g.operands.size)
  name : ∀ i o, g.operands[i]? = some o → (s.field i).takeWhile (· ≠ 0) = o.name.toUTF8.toList
  fieldLength : ∀ i < g.operands.size, (s.field i).length < 2 ^ 31
  yes : ∀ i j, s.yes i j ≠ 0

/-- Each operand has one record, of which the field stands for the operand's name. -/
structure Spelling.Names (s : Spelling) (g : Graph) : Prop where
  order : s.order.Perm (List.range g.operands.size)
  name : ∀ i o, g.operands[i]? = some o → decodeName (s.field i) = o.name
  fieldLength : ∀ i < g.operands.size, (s.field i).length < 2 ^ 31
  yes : ∀ i j, s.yes i j ≠ 0

end ModelFile
end Inference
