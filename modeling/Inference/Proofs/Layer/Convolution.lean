import Inference.Proofs.Layer.Faultless
import Inference.Proofs.Layer.Image
/-! What a convolution layer does to the operands: either it is refused, or its output operand holds
the convolution of the image that its input operand holds. -/
namespace Inference

namespace Conv2d

/-- The sizes of the output are what the border leaves of an image, and each value is the output
value at its coordinates. -/
structure Convolves (p : Conv2d) (i j : Image) : Prop where
  height : j.height = i.height - p.border * 2
  width : j.width = i.width - p.border * 2
  channels : j.channels = p.outputNum
  dataType : j.dataType = i.dataType
  pixel : ∀ y < j.height, ∀ x < j.width, ∀ filter < j.channels,
    j.pixel y x filter = p.output i y x filter

variable {p : Conv2d} {i : Image}

theorem convolves_picture (p : Conv2d) (i : Image) : p.Convolves i (p.picture i) := by
  refine ⟨rfl, rfl, rfl, rfl, fun y hy x hx filter hfilter => ?_⟩
  have hvalue : (p.picture i).values[(p.picture i).position y x filter]? =
      some (p.output i y x filter) := result_value hx hfilter hy
  rw [Image.pixel, Array.getD_eq_getD_getElem?, hvalue, Option.getD_some]

end Conv2d

namespace Layer

variable {p : Conv2d} {i : Image} {o : Operand} {s : Store} {input output : Nat}

theorem compute_conv2d (ho : s.operands[input]? = some o) (hshows : o.Shows i) (hi : i.Whole)
    (hcount : i.values.size < Checked.sizeLimit) (hout : output < s.operands.size) :
    (Layer.mk (.conv2d p) [input] output).compute s.operands = p.apply i := by
  unfold compute
  rw [strayIndex?_single _ ho hout, image_single _ ho hshows hi hcount]
  rfl

theorem accepts_of_exec_conv2d (hp : p.WellFormed) (ho : s.operands[input]? = some o)
    (hshows : o.Shows i) (hi : i.Whole) (hcount : i.values.size < Checked.sizeLimit)
    (hout : output < s.operands.size)
    (h : ((Layer.mk (.conv2d p) [input] output).exec s).1 = .ok ()) : p.Accepts i := by
  obtain ⟨t, -, hcompute, -, hwritable, -⟩ := exec_eq_ok h
  rw [compute_conv2d ho hshows hi hcount hout] at hcompute
  obtain ⟨-, hlarge, hshape, -⟩ := Conv2d.apply_eq_ok hcompute
  obtain ⟨hheight, hwidth⟩ := not_or.1 hlarge
  have hheight := Nat.lt_of_not_le hheight
  have hwidth := Nat.lt_of_not_le hwidth
  have hlength := hwritable.length
  rw [hshape, Shape.byteLength?_eq (Conv2d.isSize_rows hi hheight)
    (Conv2d.isSize_columns hi hwidth) hp.outputNum] at hlength
  split at hlength
  next hbytes => exact ⟨hheight, hwidth, hbytes⟩
  next => cases hlength

section

variable (hp : p.WellFormed) (hsize : p.kernel.size < Checked.sizeLimit)
  (ho : s.operands[input]? = some o) (hshows : o.Shows i) (hi : i.Whole)
  (hcount : i.values.size < Checked.sizeLimit) (hout : output < s.operands.size)

include hp hsize ho hshows hi hcount hout

theorem exec_conv2d_faultless (hbytes : 4 * i.values.size ≤ 2147483647) :
    Faultless ((Layer.mk (.conv2d p) [input] output).exec s).1 := by
  have happly := Conv2d.apply_faultless hp hsize (.of_whole hi hbytes)
  rw [exec_eq, compute_conv2d ho hshows hi hcount hout]
  cases hresult : p.apply i with
  | error e => exact .error (happly e hresult)
  | ok t => exact write_faultless hout t

variable (hchannels : i.channels = p.inputNum)

include hchannels

theorem exec_conv2d_of_accepts (h : p.Accepts i) :
    ((Layer.mk (.conv2d p) [input] output).exec s).1 = .ok () ∧
      ∃ q j, ((Layer.mk (.conv2d p) [input] output).exec s).2.operands[output]? = some q ∧
        q.Shows j ∧ j.Whole ∧ p.Convolves i j := by
  have hlarge : ¬(i.height ≤ p.border * 2 ∨ i.width ≤ p.border * 2) :=
    not_or.2 ⟨Nat.not_le.2 h.height, Nat.not_le.2 h.width⟩
  have hroom : 4 * (p.rows i * p.columns i * p.outputNum) < Checked.offsetLimit :=
    Nat.lt_of_le_of_lt h.bytes (by decide)
  have happly := Conv2d.apply_eq hp List.range hsize hi hcount hchannels hlarge (.refl _) hroom
  have hwhole := h.picture_whole hp hi
  have hbytes : 4 * (p.picture i).values.size ≤ 2147483647 := by
    rw [hwhole.count]
    exact h.bytes
  have hcompute := (compute_conv2d ho hshows hi hcount hout).trans happly
  obtain ⟨hok, q, hq, hshown⟩ := exec_image hcompute hout (.of_whole hwhole hbytes)
  exact ⟨hok, q, _, hq, hshown, hwhole, p.convolves_picture i⟩

end

/-- A convolution layer whose input operand holds an image with the channels of its kernel: an image
that is accepted makes the output operand hold its convolution, any other is refused, and the order
in which the rows are computed makes no difference. -/
theorem exec_conv2d (hp : p.WellFormed) (hsize : p.kernel.size < Checked.sizeLimit)
    (ho : s.operands[input]? = some o) (hshows : o.Shows i) (hi : i.Whole)
    (hcount : i.values.size < Checked.sizeLimit) (hchannels : i.channels = p.inputNum)
    (hout : output < s.operands.size) :
    (p.Accepts i → ((Layer.mk (.conv2d p) [input] output).exec s).1 = .ok () ∧
      ∃ q j, ((Layer.mk (.conv2d p) [input] output).exec s).2.operands[output]? = some q ∧
        q.Shows j ∧ j.Whole ∧ p.Convolves i j) ∧
    (¬p.Accepts i → ∃ e, ((Layer.mk (.conv2d p) [input] output).exec s).1 = .error e ∧
      (4 * i.values.size ≤ 2147483647 → ¬MayFault.IsFault e)) ∧
    OthersUnchanged (· = output) s.operands
      ((Layer.mk (.conv2d p) [input] output).exec s).2.operands ∧
    ∀ order : Nat → List Nat, (∀ n, (order n).Perm (List.range n)) →
      p.apply i order = p.apply i := by
  refine ⟨exec_conv2d_of_accepts hp hsize ho hshows hi hcount hout hchannels, fun hrefused => ?_,
    (Layer.mk (.conv2d p) [input] output).exec_frame s,
    fun order horder => Conv2d.apply_order hp hsize hi hcount horder⟩
  have haccepts := accepts_of_exec_conv2d hp ho hshows hi hcount hout
  have hfaultless := exec_conv2d_faultless hp hsize ho hshows hi hcount hout
  cases hresult : ((Layer.mk (.conv2d p) [input] output).exec s).1 with
  | ok => exact absurd (haccepts hresult) hrefused
  | error e => exact ⟨e, rfl, fun hbytes => hfaultless hbytes e hresult⟩

/-- Sums over three by three pixels. -/
def boxSum : Conv2d where
  inputNum := 1
  outputNum := 1
  kernelSize := 3
  dilation := 1
  padding := .valid
  activation := .linear
  kernel := .replicate 9 ⟨0x3f800000⟩
  biases := none

theorem exec_boxSum : ((Layer.mk (.conv2d boxSum) [0] 1).exec stripStore).1 = .ok () ∧
    (∃ q j, ((Layer.mk (.conv2d boxSum) [0] 1).exec stripStore).2.operands[1]? = some q ∧
      q.Shows j ∧ j.Whole ∧ boxSum.Convolves strip j) ∧
    boxSum.apply strip (fun n => (List.range n).reverse) = boxSum.apply strip := by
  have hone : IsSize 1 := by unfold IsSize; decide
  have hthree : IsSize 3 := by unfold IsSize; decide
  have hfour : IsSize 4 := by unfold IsSize; decide
  obtain ⟨haccepted, -, -, horder⟩ := exec_conv2d (p := boxSum) (i := strip) (s := stripStore)
    ⟨hone, hone, hthree, hone, rfl, nofun⟩ (by decide) (rfl : stripStore.operands[0]? = some _)
    ⟨rfl, rfl, rfl⟩ ⟨hthree, hfour, hone, rfl⟩ (by decide) rfl
    (by decide : 1 < stripStore.operands.size)
  obtain ⟨hok, hshown⟩ := haccepted ⟨by decide, by decide, by decide⟩
  exact ⟨hok, hshown, horder _ fun n => List.reverse_perm _⟩

end Layer

end Inference
