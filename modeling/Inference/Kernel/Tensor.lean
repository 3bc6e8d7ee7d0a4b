import Inference.Frame.Conversion
/-! What a kernel reads and what it makes: an image's values by coordinates, and a new tensor. -/
namespace Inference

/-- What a layer writes into its output operand. -/
structure Tensor where
  shape : Shape
  dataType : DataType
  values : Array Single
  deriving DecidableEq

/-- The operand's values with the geometry of its dims, if they fit each other. -/
def Operand.image (o : Operand) : Except KernelError Image := do
  if o.dims.batch ≠ 1 ∨ ¬o.dims.Positive then throw (.unusableDims o.name o.dims)
  let values ← o.values
  let shape := Shape.ofDims o.dims
  let needed ← Checked.product [shape.height, shape.width, shape.channels]
  if values.size ≠ needed then throw (.wrongValueCount o.name values.size o.dims needed)
  return ⟨shape.height, shape.width, shape.channels, o.dataType, values⟩

namespace Image

/-- The place of a coordinate in row-major order, channels innermost. -/
def position (i : Image) (row column channel : Nat) : Nat :=
  (row * i.width + column) * i.channels + channel

/-- A position beyond 64 bits is out of bounds like any other. -/
def read (i : Image) (row column channel : Nat) : Except Fault Single :=
  Checked.read i.values (i.position row column channel)

end Image

/-- All values of a `height` by `width` by `channels` image in row-major order. -/
def tabulate (height width channels : Nat) (value : Nat → Nat → Nat → Except Fault Single) :
    Except Fault (Array Single) := do
  let count ← Checked.product [height, width, channels]
  Checked.reserve count
  (Array.range count).mapM fun i =>
    value (i / channels / width) (i / channels % width) (i % channels)

/-- Refuses a shape that no dims or no byte length can express. -/
def Shape.check (s : Shape) : Except KernelError Unit :=
  match s.oversized? with
  | some size => .error (.oversizedAxis size)
  | none => if s.toDims.byteLength?.isSome then .ok () else .error (.oversizedOutput s)

end Inference
