import Inference.Proofs.Frame
import Inference.Proofs.Kernel.Tensor
import Inference.Proofs.Layer.Unchanged
/-! Layers that read the image of one operand and draw another one. -/
namespace Inference

open Operand

/-- The operand holds an image. -/
structure Operand.Shows (o : Operand) (i : Image) : Prop where
  dims : o.dims = (Shape.mk 1 i.height i.width i.channels).toDims
  dataType : o.dataType = i.dataType
  data : o.data = some i.values

namespace Operand.Shows

variable {o : Operand} {i : Image}

theorem image_eq (h : o.Shows i) (hi : i.Whole) (hcount : i.values.size < Checked.sizeLimit) :
    o.image = .ok i := by
  have hpositive := Shape.toDims_positive hi.height hi.width hi.channels
  have hproduct : Checked.product [i.height, i.width, i.channels] = .ok i.values.size := by
    rw [hi.count] at hcount ⊢
    exact Checked.product_three hi.height.1 hi.width.1 hi.channels.1 hcount
  have hvalues := Operand.values_of_data h.data
  have hdims : ¬(o.dims.batch ≠ 1 ∨ ¬o.dims.Positive) := by
    rw [h.dims, not_or, not_not, not_not]
    exact ⟨rfl, hpositive⟩
  unfold image
  rw [if_neg hdims, hvalues, h.dims, h.dataType,
    Shape.ofDims_toDims hi.height hi.width hi.channels]
  exact (lift_bind_eq hproduct _).trans (if_neg (not_not.2 rfl))

theorem picture_eq (h : o.Shows i) (hi : i.Whole) : o.picture i.values = i := by
  unfold picture
  rw [h.dims, h.dataType]
  simp only [Shape.toDims, Shape.axis_eq hi.height, Shape.axis_eq hi.width,
    Shape.axis_eq hi.channels]

end Operand.Shows

/-- Values that fill dims with batch 1 are an image. -/
theorem Operand.Fits.shows {o : Operand} {values : Array Single} (h : o.Fits)
    (hdata : o.data = some values) (hbatch : o.dims.batch = 1) :
    ∃ i : Image, i.WellFormed ∧ o.Shows i := by
  have hi := h.image_wellFormed hdata hbatch
  refine ⟨_, hi, ?_, rfl, hdata⟩
  have hdims := Shape.toDims_ofDims (h.volume hdata).1
  rw [Shape.ofDims, hbatch] at hdims
  exact hdims.symm

theorem Operand.holding_shows (o : Operand) (i : Image) : (o.holding i.tensor).Shows i :=
  ⟨rfl, rfl, rfl⟩

namespace Layer

variable {l : Layer} {i : Image} {o : Operand} {s : Store} {input output : Nat}
  (params : LayerParams)

theorem strayIndex?_single (ho : s.operands[input]? = some o) (hout : output < s.operands.size) :
    (Layer.mk params [input] output).strayIndex? s.operands.size = none := by
  have hin : input < s.operands.size := (Array.getElem?_eq_some_iff.1 ho).1
  exact strayIndex?_eq_none_iff.2 ⟨by simpa using hin, hout⟩

theorem operand_single (ho : s.operands[input]? = some o) :
    (Layer.mk params [input] output).operand s.operands = .ok o := by
  simp only [operand, Checked.read_eq_ok.2 ho]
  rfl

theorem image_single (ho : s.operands[input]? = some o) (hshows : o.Shows i) (hi : i.Whole)
    (hcount : i.values.size < Checked.sizeLimit) :
    (Layer.mk params [input] output).image s.operands = .ok i := by
  rw [image, operand_single _ ho]
  exact hshows.image_eq hi hcount

/-- A layer that makes an image shows it. -/
theorem exec_image (hcompute : l.compute s.operands = .ok i.tensor)
    (hout : l.output < s.operands.size) (hi : i.WellFormed) :
    (l.exec s).1 = .ok () ∧ ∃ o, (l.exec s).2.operands[l.output]? = some o ∧ o.Shows i := by
  obtain ⟨o, -, hexec⟩ := exec_of_writable hcompute hi.writable
  rw [hexec]
  exact ⟨rfl, _, Array.getElem?_setIfInBounds_self_of_lt hout, Operand.holding_shows o i⟩

/-- A layer that makes nothing leaves everything as it is. -/
theorem exec_refused {e : KernelError} (hcompute : l.compute s.operands = .error e) :
    l.exec s = (.error e, s) := by
  rw [exec_eq, hcompute]

/-- Three rows of four pixels. -/
def strip : Image := ⟨3, 4, 1, .float, .replicate 12 ⟨0x3f800000⟩⟩

def stripStore : Store where
  operands := #[
    { name := "x", kind := .input, dataType := .float, dims := ⟨1, 3, 4, 1⟩, length := 48,
      data := some strip.values },
    { name := "y", kind := .output, dataType := .float, dims := ⟨-1, -1, -1, -1⟩ }]

end Layer

end Inference
