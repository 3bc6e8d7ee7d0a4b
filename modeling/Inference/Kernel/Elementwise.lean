import Inference.Kernel.Tensor
/-! Layers that work value by value and keep the shape of what they read. -/
namespace Inference

/-- One side of a binary layer: a single value for all positions, or the next input operand. -/
inductive BinarySide where
  | scalar (value : Single)
  | tensor
  deriving DecidableEq

structure MathBinary where
  op : BinaryOp
  left : BinarySide
  right : BinarySide
  deriving DecidableEq

/-- The operand's values under a function, with the operand's shape and data type. -/
def Operand.mapValues (o : Operand) (f : Single → Single) : Except KernelError Tensor := do
  return ⟨.ofDims o.dims, o.dataType, (← o.values).map f⟩

namespace MathBinary

/-- A side together with the operand that it names. -/
inductive Source where
  | scalar (value : Single)
  | tensor (operand : Operand)

/-- A tensor side takes the first of the remaining operands. -/
def resolve (side : BinarySide) (operands : List Operand) :
    Except KernelError (Source × List Operand) :=
  match side, operands with
  | .scalar value, operands => .ok (.scalar value, operands)
  | .tensor, operand :: rest => .ok (.tensor operand, rest)
  | .tensor, [] => .error .missingTensor

/-- Two tensors need the same number of values; the shape is that of the left one. -/
def combine (op : BinaryOp) : Source → Source → Except KernelError Tensor
  | .tensor left, .tensor right => do
    let xs ← left.values
    let ys ← right.values
    if xs.size ≠ ys.size then throw (.unequalLengths xs.size ys.size)
    return ⟨.ofDims left.dims, left.dataType, xs.zipWith op.apply ys⟩
  | .scalar x, .tensor right => right.mapValues (op.apply x)
  | .tensor left, .scalar y => left.mapValues (op.apply · y)
  | .scalar _, .scalar _ => .error .noTensor

def apply (p : MathBinary) (operands : List Operand) : Except KernelError Tensor := do
  let (left, rest) ← resolve p.left operands
  let (right, _) ← resolve p.right rest
  combine p.op left right

end MathBinary
end Inference
