import Inference.Kernel.Tensor
/-! Channel blocks laid out as square tiles of pixels. -/
namespace Inference.DepthToSpace

/-- Where a channel of the pixel at `ty`, `tx` of a tile goes, when the input has `width` pixels by
row. -/
def target (block depth width y x ty tx channel : Nat) : Nat :=
  ((y * block + ty) * (width * block) + (x * block + tx)) * depth + channel

/-- Lays the channels of one pixel out as a tile of the output. -/
def placeTile (block depth : Nat) (image : Image) (y x : Nat) (out : Array Single) :
    Except Fault (Array Single) :=
  (List.range block).foldlM (fun out ty =>
    (List.range block).foldlM (fun out tx =>
      (List.range depth).foldlM (fun out channel => do
        let value ← image.read y x ((ty * block + tx) * depth + channel)
        Checked.write out (target block depth image.width y x ty tx channel) value) out) out) out

/-- The tiles of all pixels, one pixel after the other. -/
def placeTiles (block depth : Nat) (image : Image) : Except Fault (Array Single) :=
  (List.range image.height).foldlM (fun out y =>
    (List.range image.width).foldlM (fun out x => placeTile block depth image y x out) out)
    (.replicate image.values.size .zero)

def apply (block : Nat) (image : Image) : Except KernelError Tensor := do
  let area ← Checked.mul block block
  let excess ← Checked.mod image.channels area
  if excess ≠ 0 then throw (.unevenBlocks image.channels area)
  let depth := image.channels / area
  let height ← Checked.mul image.height block
  let width ← Checked.mul image.width block
  let values ← placeTiles block depth image
  return ⟨⟨1, height, width, depth⟩, image.dataType, values⟩

end Inference.DepthToSpace
