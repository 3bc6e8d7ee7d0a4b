import Inference.Kernel.Tensor
/-! Padding of each axis by its mirror image or by a constant. -/
namespace Inference

/-- How far an axis grows at its start and at its end. -/
structure Margin where
  before : Nat
  after : Nat
  deriving DecidableEq

structure MirrorPad where
  mode : PadMode
  batch : Margin
  height : Margin
  width : Margin
  channels : Margin
  constant : Single
  deriving DecidableEq

namespace PadMode

/-- The most that can be added to one end of an axis, where there is a limit. -/
def limit? (mode : PadMode) (size : Nat) : Option Nat :=
  match mode with
  | .reflect => some (size - 1)
  | .symmetric => some size
  | .constant => none

/-- The input position that an output position of a padded axis shows; none is for the constant. -/
def source (mode : PadMode) (before size position : Nat) : Except Fault (Option Nat) := do
  let offset ← Checked.offset (position - before)
  if 0 ≤ offset ∧ offset < size then return some offset.toNat
  match mode with
  | .constant => return none
  | .reflect =>
    if offset < 0 then some <$> Checked.place (-offset)
    else some <$> Checked.place ((← Checked.offset (2 * size)) - 2 - offset)
  | .symmetric =>
    if offset < 0 then some <$> Checked.place (-offset - 1)
    else some <$> Checked.place ((← Checked.offset (2 * size)) - 1 - offset)

end PadMode

namespace MirrorPad

def checkAxis (mode : PadMode) (axis size : Nat) (m : Margin) : Except KernelError Unit :=
  match mode.limit? size with
  | some limit =>
    if m.before > limit ∨ m.after > limit then
      .error (.oversizedPadding mode m.before m.after axis size)
    else .ok ()
  | none => .ok ()

def paddedSize (axis size : Nat) (m : Margin) : Except KernelError Nat :=
  if size + m.before + m.after < Checked.sizeLimit then .ok (size + m.before + m.after)
  else .error (.paddedAxisOverflow axis)

def checkBatch (p : MirrorPad) : Except KernelError Unit :=
  if p.batch = ⟨0, 0⟩ then .ok () else .error .paddedBatch

def value (p : MirrorPad) (image : Image) (y x channel : Nat) : Except Fault Single := do
  let row ← p.mode.source p.height.before image.height y
  let column ← p.mode.source p.width.before image.width x
  let channel ← p.mode.source p.channels.before image.channels channel
  match row, column, channel with
  | some row, some column, some channel => image.read row column channel
  | _, _, _ => return p.constant

def apply (p : MirrorPad) (image : Image) : Except KernelError Tensor := do
  checkAxis p.mode 1 image.height p.height
  checkAxis p.mode 2 image.width p.width
  checkAxis p.mode 3 image.channels p.channels
  let height ← paddedSize 1 image.height p.height
  let width ← paddedSize 2 image.width p.width
  let channels ← paddedSize 3 image.channels p.channels
  let shape : Shape := ⟨1, height, width, channels⟩
  shape.check
  let values ← tabulate height width channels (p.value image)
  return ⟨shape, image.dataType, values⟩

end MirrorPad
end Inference
