import Inference.Kernel.Tensor
/-! Square convolution over rows and columns: each output value is a sum over taps and input
channels. -/
namespace Inference

structure Conv2d where
  inputNum : Nat
  outputNum : Nat
  kernelSize : Nat
  /-- The distance from tap to tap; with the first of its 64 bits set the taps run backwards. -/
  dilation : Nat
  padding : Padding
  activation : Activation
  /-- The weights by filter, tap row, tap column and input channel. -/
  kernel : Array Single
  biases : Option (Array Single)
  deriving DecidableEq

/-- The start of a filter's sum. -/
def biasOf (biases : Option (Array Single)) (filter : Nat) : Except Fault Single :=
  match biases with
  | some biases => Checked.read biases filter
  | none => .ok .zero

namespace Conv2d

/-- The rows and columns without an output of their own along each edge. -/
def margin (p : Conv2d) : Except Fault Nat :=
  match p.padding with
  | .valid => do Checked.mul ((← Checked.sub p.kernelSize 1) / 2) p.dilation
  | .same | .sameClampToEdge => .ok 0

/-- The position that tap `k` of the window around `center` reads on an axis, if it reads one. -/
def tap (p : Conv2d) (size center k : Nat) : Except Fault (Option Nat) := do
  let step := Checked.signed p.dilation
  let shift ← Checked.offset (((k : Int) - (p.kernelSize / 2 : Nat)) * step)
  let place ← Checked.offset (center + shift)
  match p.padding with
  | .sameClampToEdge => return some (max 0 (min place (size - 1))).toNat
  | .valid | .same => return if 0 ≤ place ∧ place < size then some place.toNat else none

/-- Adds the products of one tap over all input channels. -/
def addTap (p : Conv2d) (image : Image) (filter ky kx row column : Nat) (sum : Single) :
    Except Fault Single :=
  (List.range p.inputNum).foldlM (fun sum channel => do
    let value ← image.read row column channel
    let weight ← Checked.read p.kernel
      (((filter * p.kernelSize + ky) * p.kernelSize + kx) * p.inputNum + channel)
    return sum + value * weight) sum

/-- The output value of a filter around a row and a column of the input. -/
def value (p : Conv2d) (image : Image) (y x filter : Nat) : Except Fault Single := do
  let bias ← biasOf p.biases filter
  let sum ← (List.range p.kernelSize).foldlM (fun sum ky => do
    let row ← p.tap image.height y ky
    (List.range p.kernelSize).foldlM (fun sum kx => do
      let column ← p.tap image.width x kx
      match row, column with
      | some row, some column => p.addTap image filter ky kx row column sum
      | _, _ => return sum) sum) bias
  return p.activation.apply sum

/-- In the image, in the kernel and in one of its filters a row is some 64-bit size away from the
next. -/
def checkLines (p : Conv2d) (image : Image) : Except Fault Unit := do
  let line ← Checked.mul p.kernelSize p.inputNum
  let _ ← Checked.mul p.kernelSize line
  let _ ← Checked.mul image.width image.channels

/-- Computes the values of an output row into the part of the output that is theirs. -/
def placeRow (p : Conv2d) (image : Image) (margin width row : Nat) (out : Array Single) :
    Except Fault (Array Single) :=
  (List.range width).foldlM (fun out x =>
    (List.range p.outputNum).foldlM (fun out filter => do
      let value ← p.value image (row + margin) (x + margin) filter
      Checked.write out ((row * width + x) * p.outputNum + filter) value) out) out

/-- The output, its rows computed one after the other in some order. -/
def placeRows (p : Conv2d) (image : Image) (margin height width : Nat) (order : List Nat) :
    Except Fault (Array Single) := do
  let count ← Checked.product [height, width, p.outputNum]
  Checked.reserve count
  order.foldlM (fun out row => p.placeRow image margin width row out) (.replicate count .zero)

/-- The rows of the output may be computed in any order of their indexes. -/
def apply (p : Conv2d) (image : Image) (order : Nat → List Nat := List.range) :
    Except KernelError Tensor := do
  if image.channels ≠ p.inputNum then
    throw (.wrongChannels .conv2d p.inputNum image.channels)
  let margin ← p.margin
  let border ← Checked.mul margin 2
  if image.height ≤ border ∨ image.width ≤ border then
    throw (.tooSmallForPadding image.width image.height margin)
  let height := image.height - border
  let width := image.width - border
  let rowLength ← Checked.mul width p.outputNum
  if rowLength = 0 then throw (.fault .zeroDivisor)
  p.checkLines image
  let values ← p.placeRows image margin height width (order height)
  return ⟨⟨1, height, width, p.outputNum⟩, image.dataType, values⟩

/-- Kernel, biases and image have as many values as their sizes ask for, and none of the sizes is
beyond a signed 32-bit number. -/
def Regular (p : Conv2d) (image : Image) : Prop :=
  (∀ n ∈ [p.inputNum, p.outputNum, p.kernelSize, p.dilation, image.height, image.width],
    0 < n ∧ n ≤ 2147483647) ∧
  image.channels = p.inputNum ∧
  p.kernel.size = p.kernelSize * p.kernelSize * p.outputNum * p.inputNum ∧
  p.kernel.size < Checked.sizeLimit ∧
  p.biases.all (·.size = p.outputNum) ∧
  image.values.size = image.height * image.width * image.channels ∧
  image.values.size < Checked.sizeLimit

instance (p : Conv2d) (image : Image) : Decidable (p.Regular image) :=
  inferInstanceAs (Decidable (_ ∧ _))

/-- The output without its values, where no operand can hold it and nothing could go wrong in
computing them. -/
def overlong? (p : Conv2d) (image : Image) : Option Tensor := do
  let margin ← p.margin.toOption
  let height := image.height - margin * 2
  let width := image.width - margin * 2
  let bytes := 4 * (height * width * p.outputNum)
  if p.Regular image ∧ 0 < height ∧ 0 < width ∧ 2147483647 < bytes ∧ bytes < Checked.offsetLimit then
    some ⟨⟨1, height, width, p.outputNum⟩, image.dataType, #[]⟩
  else none

end Conv2d
end Inference
