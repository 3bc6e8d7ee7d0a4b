import Inference.Kernel.Conv2d
/-! A weighted sum over the channels of each pixel. -/
namespace Inference

structure Dense where
  inputNum : Nat
  outputNum : Nat
  activation : Activation
  /-- The weights by filter and input channel. -/
  kernel : Array Single
  biases : Option (Array Single)
  deriving DecidableEq

namespace Dense

def value (p : Dense) (image : Image) (y x filter : Nat) : Except Fault Single := do
  let bias ← biasOf p.biases filter
  let sum ← (List.range p.inputNum).foldlM (fun sum channel => do
    let value ← image.read y x channel
    let weight ← Checked.read p.kernel (filter * p.inputNum + channel)
    return sum + value * weight) bias
  return p.activation.apply sum

/-- As many values for each pixel as the kernel has whole rows of weights. -/
def apply (p : Dense) (image : Image) : Except KernelError Tensor := do
  if image.channels ≠ p.inputNum then
    throw (.wrongChannels .dense p.inputNum image.channels)
  let shape : Shape := ⟨1, image.height, image.width, p.outputNum⟩
  shape.check
  let filters ← Checked.div p.kernel.size p.inputNum
  let values ← tabulate image.height image.width filters (p.value image)
  return ⟨shape, image.dataType, values⟩

end Dense
end Inference
