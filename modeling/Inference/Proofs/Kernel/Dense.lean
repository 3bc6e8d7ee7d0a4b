import Inference.Proofs.Kernel.Conv2d
/-! Each pixel is the whole window of a convolution whose kernel has one tap, so that such a convolution
makes the values of a dense layer. Dense layers stay inside their images, weights and biases. -/
namespace Inference

namespace Dense

/-- The convolution of single pixels that has the same weights. -/
def pointwise (p : Dense) (padding : Padding) (dilation : Nat) : Conv2d where
  inputNum := p.inputNum
  outputNum := p.outputNum
  kernelSize := 1
  dilation := dilation
  padding := padding
  activation := p.activation
  kernel := p.kernel
  biases := p.biases

/-- The kernel has its weights, each filter has a bias if there are any, and neither axis of the kernel
is empty. -/
structure Shaped (p : Dense) : Prop where
  inputNum : 0 < p.inputNum
  outputNum : 0 < p.outputNum
  kernel : p.kernel.size = p.outputNum * p.inputNum
  biases : ∀ xs ∈ p.biases, xs.size = p.outputNum

/-- The image has the channels of the kernel, and an operand can hold a value for each pixel and
filter. -/
structure Accepts (p : Dense) (i : Image) : Prop where
  channels : i.channels = p.inputNum
  check : Shape.check ⟨1, i.height, i.width, p.outputNum⟩ = .ok ()

variable {p : Dense} {i : Image} {padding : Padding} {dilation : Nat}

/-- The one tap is in the center, whatever the distance to the next one would be. -/
theorem pointwise_tap {size n : Nat} (hsize : size < 2 ^ 31) (hn : n < size) :
    (p.pointwise padding dilation).tap size n 0 = .ok (some n) := by
  have hcenter : Checked.offset ((n : Int) + 0) = .ok n := by
    rw [Int.add_zero]
    exact Checked.offset_of_bounds (by unfold Checked.offsetLimit; omega)
  have hshift : Checked.offset (((0 : Nat) - ((1 / 2 : Nat) : Int)) * Checked.signed dilation) =
      .ok 0 := by
    simp [Checked.offset_of_bounds, Checked.offsetLimit]
  unfold Conv2d.tap
  refine bind_eq_ok.2 ⟨_, hshift, bind_eq_ok.2 ⟨_, hcenter, ?_⟩⟩
  cases padding with
  | sameClampToEdge =>
    refine congrArg (fun k => Except.ok (some k)) ?_
    omega
  | valid => exact congrArg Except.ok (if_pos (by omega))
  | same => exact congrArg Except.ok (if_pos (by omega))

/-- The loops over the only tap are the loop over its channels. -/
theorem pointwise_value (hi : i.Whole) {y x : Nat} (hy : y < i.height) (hx : x < i.width)
    (filter : Nat) : (p.pointwise padding dilation).value i y x filter = p.value i y x filter := by
  have htap : ∀ sum, (p.pointwise padding dilation).addTap i filter 0 0 y x sum =
      (List.range p.inputNum).foldlM (fun sum channel => do
        let value ← i.read y x channel
        let weight ← Checked.read p.kernel (filter * p.inputNum + channel)
        return sum + value * weight) sum := fun sum => by
    simp [Conv2d.addTap, pointwise]
  have hrow : (p.pointwise padding dilation).tap i.height y 0 = _ := pointwise_tap hi.height.2 hy
  have hcolumn : (p.pointwise padding dilation).tap i.width x 0 = _ := pointwise_tap hi.width.2 hx
  unfold Conv2d.value value
  refine bind_congr fun bias => congrArg (· >>= _) ?_
  have honly : List.range (p.pointwise padding dilation).kernelSize = [0] := rfl
  simp only [honly, List.foldlM_cons, List.foldlM_nil, bind_pure, hrow, hcolumn]
  exact htap bias

theorem pointwise_border : (p.pointwise padding dilation).border = 0 := by
  simp [Conv2d.border, pointwise]

theorem pointwise_rows : (p.pointwise padding dilation).rows i = i.height := by
  simp [Conv2d.rows, pointwise_border]

theorem pointwise_columns : (p.pointwise padding dilation).columns i = i.width := by
  simp [Conv2d.columns, pointwise_border]

theorem pointwise_result : (p.pointwise padding dilation).result i =
    ⟨⟨1, i.height, i.width, p.outputNum⟩, i.dataType, rowMajor i.height i.width p.outputNum
      ((p.pointwise padding dilation).output i)⟩ := by
  unfold Conv2d.result Conv2d.outputAt
  rw [pointwise_rows, pointwise_columns]
  rfl

theorem pointwise_sees {size n : Nat} (hsize : size < 2 ^ 31) (hn : n < size) :
    (p.pointwise padding dilation).Sees size n := by
  intro k hk
  obtain rfl := Nat.lt_one_iff.1 hk
  have hplace : (p.pointwise padding dilation).place n 0 = n := by
    rw [Conv2d.place, pointwise_border]
    simp [pointwise]
  rw [pointwise_border, hplace, Conv2d.seen?, if_pos (by omega), Int.toNat_natCast]
  exact pointwise_tap hsize hn

theorem Shaped.pointwise (h : p.Shaped) : (p.pointwise padding dilation).Shaped :=
  ⟨Nat.one_pos, h.kernel.trans (by simp [Dense.pointwise]), h.biases⟩

/-- The rows of a kernel with one tap are its channels. -/
theorem pointwise_checkLines (hi : i.Whole) (hchannels : i.channels = p.inputNum)
    (hcount : i.values.size < Checked.sizeLimit) :
    (p.pointwise padding dilation).checkLines i = .ok () := by
  have hinput : 1 * p.inputNum < Checked.sizeLimit := by
    rw [Nat.one_mul, ← hchannels]
    exact Nat.lt_trans hi.channels.2 (by decide)
  have hline : Checked.mul 1 p.inputNum = .ok p.inputNum :=
    (Checked.mul_of_lt hinput).trans (by rw [Nat.one_mul])
  have hrow : i.width * i.channels < Checked.sizeLimit := Nat.lt_of_le_of_lt hi.row_le hcount
  refine bind_eq_ok.2 ⟨_, hline, bind_eq_ok.2 ⟨_, hline, ?_⟩⟩
  exact bind_eq_ok.2 ⟨_, Checked.mul_of_lt hrow, rfl⟩

theorem accepts_of_apply {t : Tensor} (h : p.apply i = .ok t) : p.Accepts i := by
  obtain ⟨hchannels, h⟩ := ite_throw_bind_eq_ok.1 h
  obtain ⟨_, hcheck, -⟩ := bind_eq_ok.1 h
  exact ⟨not_not.1 hchannels, hcheck⟩

/-- A convolution does not check its output, but what can be written would have passed the check. -/
theorem accepts_of_pointwise {t : Tensor} (h : (p.pointwise padding dilation).apply i = .ok t)
    (ht : t.Writable) : p.Accepts i := by
  obtain ⟨hchannels, -, hshape, -⟩ := Conv2d.apply_eq_ok h
  rw [pointwise_rows, pointwise_columns] at hshape
  exact ⟨hchannels, hshape ▸ ht.check⟩

section

variable (hp : p.Shaped) (hi : i.Whole) (h : p.Accepts i)

include hp hi h

theorem value_eq_output {y x filter : Nat} (hy : y < i.height) (hx : x < i.width)
    (hfilter : filter < p.outputNum) :
    p.value i y x filter = .ok ((p.pointwise padding dilation).output i y x filter) := by
  have hvalue := Conv2d.value_eq (p := p.pointwise padding dilation) hp.pointwise hi h.channels
    (pointwise_sees hi.height.2 hy) (pointwise_sees hi.width.2 hx) hfilter
  rw [pointwise_border] at hvalue
  rw [← hvalue]
  exact (pointwise_value hi hy hx filter).symm

/-- Each pixel's values come out as those of the convolution. -/
theorem apply_eq : p.apply i = .ok ((p.pointwise padding dilation).result i) := by
  obtain ⟨-, hbytes⟩ := Shape.check_eq_ok_iff.1 h.check
  have hfilters : Checked.div p.kernel.size p.inputNum = .ok p.outputNum := by
    rw [Checked.div_of_pos hp.inputNum, hp.kernel, Nat.mul_div_cancel _ hp.inputNum]
  have hvalues : tabulate i.height i.width p.outputNum (p.value i) =
      .ok (rowMajor i.height i.width p.outputNum ((p.pointwise padding dilation).output i)) :=
    tabulate_eq hi.height.1 hi.width.1 hp.outputNum (Nat.lt_of_le_of_lt hbytes (by decide))
      fun y hy x hx filter hfilter => value_eq_output hp hi h hy hx hfilter
  rw [pointwise_result]
  refine (if_neg (not_not.2 h.channels)).trans (bind_eq_ok.2 ⟨_, h.check, ?_⟩)
  exact (lift_bind_eq hfilters _).trans (lift_bind_eq hvalues _)

theorem pointwise_placeRows : (p.pointwise padding dilation).placeRows i
    (p.pointwise padding dilation).border ((p.pointwise padding dilation).rows i)
    ((p.pointwise padding dilation).columns i)
    (List.range ((p.pointwise padding dilation).rows i)) =
      .ok ((p.pointwise padding dilation).result i).values := by
  obtain ⟨-, hbytes⟩ := Shape.check_eq_ok_iff.1 h.check
  refine Conv2d.placeRows_eq hp.pointwise hi h.channels hp.outputNum ?_ ⟨?_, ?_⟩ (.refl _) ?_ ?_
  · exact pointwise_columns ▸ hi.width.1
  · exact fun y hy => pointwise_sees hi.height.2 (pointwise_rows ▸ hy)
  · exact fun x hx => pointwise_sees hi.width.2 (pointwise_columns ▸ hx)
  · exact pointwise_rows ▸ hi.height.1
  · rw [pointwise_rows, pointwise_columns]
    exact Nat.lt_of_le_of_lt hbytes (by decide)

theorem pointwise_apply_eq (hcount : i.values.size < Checked.sizeLimit) :
    (p.pointwise padding dilation).apply i = .ok ((p.pointwise padding dilation).result i) := by
  obtain ⟨⟨-, -, hout⟩, -⟩ := Shape.check_eq_ok_iff.1 h.check
  have hmargin : (p.pointwise padding dilation).margin = .ok _ :=
    Conv2d.margin_eq Nat.one_pos (pointwise_border ▸ by decide)
  have hborder : Checked.mul (p.pointwise padding dilation).border 2 =
      .ok ((p.pointwise padding dilation).border * 2) := by
    rw [pointwise_border]
    rfl
  have hlarge : ¬(i.height ≤ (p.pointwise padding dilation).border * 2 ∨
      i.width ≤ (p.pointwise padding dilation).border * 2) := by
    rw [pointwise_border]
    exact not_or.2 ⟨Nat.not_le.2 hi.height.1, Nat.not_le.2 hi.width.1⟩
  rw [Conv2d.apply_of_checks List.range hmargin hborder hout (pointwise_checkLines hi h.channels hcount)
    hi h.channels hlarge]
  exact lift_bind_eq (pointwise_placeRows hp hi h) _

end

/-- The two make the same tensors, as far as an operand can hold them. -/
theorem apply_eq_ok_iff_pointwise (hp : p.Shaped) (hi : i.Whole)
    (hcount : i.values.size < Checked.sizeLimit) {t : Tensor} (ht : t.Writable) :
    p.apply i = .ok t ↔ (p.pointwise padding dilation).apply i = .ok t := by
  constructor
  · intro h
    have haccepts := accepts_of_apply h
    rw [← h, pointwise_apply_eq hp hi haccepts hcount, apply_eq hp hi haccepts]
  · intro h
    have haccepts := accepts_of_pointwise h ht
    rw [← h, pointwise_apply_eq hp hi haccepts hcount, apply_eq hp hi haccepts]

theorem WellFormed.shaped (h : p.WellFormed) : p.Shaped :=
  ⟨h.inputNum.1, h.outputNum.1, h.kernel.trans (Nat.mul_comm _ _), h.biases⟩

theorem apply_faultless (hp : p.Shaped) (hi : i.Whole) : Faultless (p.apply i) := by
  by_cases h : p.Accepts i
  · have happly : p.apply i = .ok ((p.pointwise .same 1).result i) := apply_eq hp hi h
    rw [happly]
    exact .ok _
  · refine .check not_false fun hchannels => (Shape.check_faultless _).bind fun _ hcheck => ?_
    exact absurd ⟨not_not.1 hchannels, hcheck⟩ h

theorem apply_oneImage (p : Dense) (i : Image) : Ensures (·.OneImage i) (p.apply i) :=
  .check fun _ => .bind fun _ _ => .bind fun _ _ => .bind fun _ _ => .ok ⟨rfl, rfl⟩

theorem apply_matched (p : Dense) (i : Image) : Avoids KernelError.IsMismatch (p.apply i) := by
  have hlift : ∀ fault, ¬(KernelError.fault fault).IsMismatch := fun _ => not_false
  have hcheck : ∀ s : Shape, Avoids KernelError.IsMismatch s.check :=
    Shape.check_avoids (fun _ => not_false) fun _ => not_false
  refine .check not_false fun _ => .bind (hcheck _) fun _ _ => ?_
  exact .bind (.lift hlift) fun _ _ => .bind (.lift hlift) fun _ _ => .ok _

/-- Each pixel has a value for each filter. -/
theorem result_writable (hi : i.Whole) (h : p.Accepts i) :
    ((p.pointwise padding dilation).result i).Writable := by
  obtain ⟨⟨-, -, hout⟩, hbytes⟩ := Shape.check_eq_ok_iff.1 h.check
  have hpicture : Image.WellFormed ⟨i.height, i.width, p.outputNum, i.dataType,
      rowMajor i.height i.width p.outputNum ((p.pointwise padding dilation).output i)⟩ :=
    ⟨hi.height.1, hi.width.1, hout.1, rowMajor_size, rowMajor_size ▸ hbytes⟩
  rw [pointwise_result]
  exact hpicture.writable

theorem apply_writable (hp : p.Shaped) (hi : i.Whole) : Ensures Tensor.Writable (p.apply i) := by
  intro t ht
  have h := accepts_of_apply ht
  have happly : p.apply i = .ok ((p.pointwise .same 1).result i) := apply_eq hp hi h
  cases happly.symm.trans ht
  exact result_writable hi h

end Dense
end Inference
