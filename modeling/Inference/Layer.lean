import Inference.Kernel.AvgPool
import Inference.Kernel.Dense
import Inference.Kernel.DepthToSpace
import Inference.Kernel.Elementwise
import Inference.Kernel.MirrorPad
/-! Layers: each reads operands by index and writes one. What it writes depends on the operands
alone and is settled before anything is written. -/
namespace Inference

inductive LayerParams where
  | identity
  | conv2d (params : Conv2d)
  | depthToSpace (blockSize : Nat)
  | mirrorPad (params : MirrorPad)
  | maximum (value : Single)
  | mathBinary (params : MathBinary)
  | mathUnary (op : UnaryOp)
  | avgPool (params : AvgPool)
  | dense (params : Dense)
  deriving DecidableEq

def LayerParams.kind : LayerParams → LayerKind
  | .identity => .identity
  | .conv2d _ => .conv2d
  | .depthToSpace _ => .depthToSpace
  | .mirrorPad _ => .mirrorPad
  | .maximum _ => .maximum
  | .mathBinary _ => .mathBinary
  | .mathUnary _ => .mathUnary
  | .avgPool _ => .avgPool
  | .dense _ => .dense

structure Layer where
  params : LayerParams
  inputs : List Nat
  output : Nat
  deriving DecidableEq

/-- The operands of one inference, and the count of the buffers they took. -/
structure Store where
  operands : Array Operand
  ledger : Ledger := {}
  deriving DecidableEq

namespace Store

def set (s : Store) (index : Nat) (operand : Operand) : Store :=
  { s with operands := s.operands.setIfInBounds index operand }

/-- Makes an operand hold a tensor. Where the dims have no byte length or the values do not fill it,
the operand keeps its old values beside the new data type and dims. -/
def write (s : Store) (index : Nat) (t : Tensor) : Except KernelError Unit × Store :=
  match t.shape.oversized?, s.operands[index]? with
  | some size, _ => (.error (.oversizedAxis size), s)
  | none, none => (.error (.fault .outOfBounds), s)
  | none, some operand =>
    match { operand with dataType := t.dataType }.resize t.shape.toDims with
    | (.error e, operand) => (.error e, s.set index operand)
    | (.ok _, operand) =>
      match operand.install t.values s.ledger with
      | .error e => (.error e, s.set index operand)
      | .ok (operand, ledger) => (.ok (), { s.set index operand with ledger })

end Store

namespace Layer

def kind (l : Layer) : LayerKind := l.params.kind

/-- The first index of the layer, inputs first, that no operand has. -/
def strayIndex? (l : Layer) (count : Nat) : Option Nat :=
  (l.inputs ++ [l.output]).find? (count ≤ ·)

def operand (l : Layer) (operands : Array Operand) : Except KernelError Operand :=
  match l.inputs with
  | [] => .error .noInput
  | index :: _ => Checked.read operands index |>.mapError .fault

def image (l : Layer) (operands : Array Operand) : Except KernelError Image := do
  (← l.operand operands).image

/-- The tensor that the layer makes of its input operands. -/
def compute (l : Layer) (operands : Array Operand) : Except KernelError Tensor := do
  if let some index := l.strayIndex? operands.size then
    throw (.operandOutOfRange index operands.size)
  match l.params with
  | .identity => (← l.operand operands).mapValues id
  | .conv2d params => params.apply (← l.image operands)
  | .depthToSpace block => DepthToSpace.apply block (← l.image operands)
  | .mirrorPad params => do
    params.checkBatch
    params.apply (← l.image operands)
  | .maximum value => (← l.operand operands).mapValues (·.max value)
  | .mathBinary params => params.apply (← l.inputs.mapM (Checked.read operands ·))
  | .mathUnary op => (← l.operand operands).mapValues op.apply
  | .avgPool params => params.apply (← l.image operands)
  | .dense params => params.apply (← l.image operands)

/-- The tensor without its values, where that is a convolution that no operand can hold. -/
def overlong? (l : Layer) (operands : Array Operand) : Option Tensor :=
  match l.params, l.strayIndex? operands.size with
  | .conv2d params, none => (l.image operands).toOption.bind params.overlong?
  | _, _ => none

/-- Writes what the layer computes. Values that no operand can hold are not worth computing. -/
def exec (l : Layer) (s : Store) : Except KernelError Unit × Store :=
  match l.overlong? s.operands with
  | some outline => s.write l.output outline
  | none =>
    match l.compute s.operands with
    | .ok tensor => s.write l.output tensor
    | .error e => (.error e, s)

end Layer
end Inference
