import Inference.Kernel.Tensor
/-! The mean over square windows, of which only the part inside the image counts. -/
namespace Inference

structure AvgPool where
  strides : Nat
  padding : Padding
  kernelSize : Nat
  deriving DecidableEq

namespace AvgPool

/-- How far the first window of an axis starts before the image. -/
def overhang (p : AvgPool) (size : Nat) : Except Fault Nat :=
  match p.padding with
  | .same => do
    let last ← Checked.mod (← Checked.sub size 1) p.strides
    return (p.kernelSize - (last + 1)) / 2
  | .valid | .sameClampToEdge => .ok 0

/-- How many positions of an axis can be the first of a window. -/
def reach (p : AvgPool) (size : Nat) : Nat :=
  match p.padding with
  | .same => size
  | .valid | .sameClampToEdge => size - p.kernelSize + 1

/-- The number of windows on an axis. -/
def windows (p : AvgPool) (size : Nat) : Except Fault Nat := do
  let whole ← Checked.div (p.reach size) p.strides
  return if p.reach size % p.strides = 0 then whole else whole + 1

/-- The positions of an axis that windows are put at, a stride apart. -/
def anchors (p : AvgPool) (size : Nat) : List Nat :=
  (List.range (p.reach size)).filter (· % p.strides = 0)

/-- The positions of an axis inside the image that the window at an anchor covers. -/
def window (p : AvgPool) (size overhang anchor : Nat) : Except Fault (List Nat) := do
  let stop ← Checked.offset (anchor + p.kernelSize)
  let start := anchor - overhang
  return List.range' start (min size (stop.toNat - overhang) - start)

def mean (image : Image) (rows columns : List Nat) (channel : Nat) : Except Fault Single := do
  let area := rows.length * columns.length
  if area = 0 then return .zero
  let sum ← rows.foldlM (fun sum row =>
    columns.foldlM (fun sum column => return sum + (← image.read row column channel)) sum)
    Single.zero
  return sum / .ofNat area

/-- The means of all windows, one anchor after the other. -/
def means (p : AvgPool) (image : Image) (above before : Nat) : Except Fault (Array Single) :=
  (p.anchors image.height).foldlM (fun out y =>
    (p.anchors image.width).foldlM (fun out x =>
      (List.range image.channels).foldlM (fun out channel => do
        let rows ← p.window image.height above y
        let columns ← p.window image.width before x
        return out.push (← mean image rows columns channel)) out) out) #[]

def apply (p : AvgPool) (image : Image) : Except KernelError Tensor := do
  if p.padding ≠ .same ∧ (image.height < p.kernelSize ∨ image.width < p.kernelSize) then
    throw (.tooSmallForWindow image.width image.height p.kernelSize)
  let above ← p.overhang image.height
  let before ← p.overhang image.width
  let height ← p.windows image.height
  let width ← p.windows image.width
  Checked.reserve (← Checked.product [height, width, image.channels])
  let values ← p.means image above before
  return ⟨⟨1, height, width, image.channels⟩, image.dataType, values⟩

end AvgPool
end Inference
