import Inference.Proofs.Kernel.Convolution
/-! Convolutions from a model file stay inside their images, weights and biases. -/
namespace Inference

namespace Conv2d

variable {p : Conv2d} {i : Image}

theorem signed_dilation (h : p.WellFormed) : Checked.signed p.dilation = p.dilation :=
  Checked.signed_of_lt (Nat.lt_trans h.dilation.2 (by decide))

theorem border_lt (h : p.WellFormed) : p.border < 2 ^ 62 := by
  unfold border
  split
  next =>
    have hhalf : (p.kernelSize - 1) / 2 < 2 ^ 31 :=
      Nat.lt_of_le_of_lt (Nat.le_trans (Nat.div_le_self _ _) (Nat.sub_le _ _)) h.kernelSize.2
    calc (p.kernelSize - 1) / 2 * p.dilation < 2 ^ 31 * 2 ^ 31 :=
          Nat.mul_lt_mul'' hhalf h.dilation.2
      _ = 2 ^ 62 := by decide
  next => decide

/-- The distance of a tap from the center of its window. -/
theorem shift_bounds (h : p.WellFormed) {k : Nat} (hk : k < p.kernelSize) :
    -(2 ^ 62 : Int) ≤ ((k : Int) - (p.kernelSize / 2 : Nat)) * p.dilation ∧
      ((k : Int) - (p.kernelSize / 2 : Nat)) * p.dilation ≤ 2 ^ 62 := by
  have hsize := h.kernelSize.2
  have hdilation := h.dilation.2
  have hcenter : ((k : Int) - (p.kernelSize / 2 : Nat)).natAbs ≤ 2 ^ 31 := by omega
  have hstep : (p.dilation : Int).natAbs ≤ 2 ^ 31 := by omega
  have hproduct := Nat.mul_le_mul hcenter hstep
  rw [← Int.natAbs_mul] at hproduct
  omega

/-- Windows around positions of an axis have places that can be computed. -/
theorem WellFormed.sees (h : p.WellFormed) {size n : Nat} (hsize : IsSize size)
    (hn : n < size - p.border * 2) : p.Sees size n := by
  intro k hk
  have hlt := hsize.2
  obtain ⟨hlow, hhigh⟩ := shift_bounds h hk
  refine tap_eq hsize.1 (by rw [signed_dilation h]) ?_ ?_
  · unfold Checked.offsetLimit
    omega
  · unfold place Checked.offsetLimit
    omega

theorem WellFormed.sees_image (h : p.WellFormed) (hi : i.Whole) :
    (∀ y < p.rows i, p.Sees i.height y) ∧ ∀ x < p.columns i, p.Sees i.width x :=
  ⟨fun _ hy => h.sees hi.height hy, fun _ hx => h.sees hi.width hx⟩

/-- The rows of the kernel and of its filters are no longer than the kernel itself. -/
theorem checkLines_eq (h : p.WellFormed) (hsize : p.kernel.size < Checked.sizeLimit)
    (hrow : i.width * i.channels < Checked.sizeLimit) : p.checkLines i = .ok () := by
  have hfilter : p.kernelSize * (p.kernelSize * p.inputNum) ≤ p.kernel.size := by
    calc p.kernelSize * (p.kernelSize * p.inputNum)
        ≤ p.kernelSize * (p.kernelSize * p.inputNum) * p.outputNum :=
          Nat.le_mul_of_pos_right _ h.outputNum.1
      _ = p.kernel.size := by rw [h.kernel]; ac_rfl
  have hline : p.kernelSize * p.inputNum ≤ p.kernel.size :=
    Nat.le_trans (Nat.le_mul_of_pos_left _ h.kernelSize.1) hfilter
  refine bind_eq_ok.2 ⟨_, Checked.mul_of_lt (Nat.lt_of_le_of_lt hline hsize), ?_⟩
  refine bind_eq_ok.2 ⟨_, Checked.mul_of_lt (Nat.lt_of_le_of_lt hfilter hsize), ?_⟩
  exact bind_eq_ok.2 ⟨_, Checked.mul_of_lt hrow, rfl⟩

theorem margin_eq_ok {n : Nat} (h : p.margin = .ok n) : n = p.border := by
  unfold margin at h
  unfold border
  cases hpadding : p.padding with
  | valid =>
    simp only [hpadding] at h
    obtain ⟨reach, hreach, hmul⟩ := bind_eq_ok.1 h
    unfold Checked.sub at hreach
    split at hreach
    · cases hreach
      rw [if_pos rfl, Checked.mul_eq_ok hmul]
    · cases hreach
  | same | sameClampToEdge =>
    simp only [hpadding] at h
    cases h
    rfl

/-- A tensor is made of a large enough image alone: its shape is what the border leaves, and its
values are those of the rows. -/
theorem apply_eq_ok {order : Nat → List Nat} {t : Tensor} (h : p.apply i order = .ok t) :
    i.channels = p.inputNum ∧ ¬(i.height ≤ p.border * 2 ∨ i.width ≤ p.border * 2) ∧
      t.shape = ⟨1, p.rows i, p.columns i, p.outputNum⟩ ∧ 0 < p.outputNum ∧
      p.placeRows i p.border (p.rows i) (p.columns i) (order (p.rows i)) = .ok t.values := by
  obtain ⟨hchannels, h⟩ := ite_throw_bind_eq_ok.1 h
  obtain ⟨margin, hmargin, h⟩ := bind_eq_ok.1 h
  obtain ⟨double, hdouble, h⟩ := bind_eq_ok.1 h
  obtain rfl := margin_eq_ok (lift_eq_ok.1 hmargin)
  obtain rfl := Checked.mul_eq_ok (lift_eq_ok.1 hdouble)
  obtain ⟨hlarge, h⟩ := ite_throw_bind_eq_ok.1 h
  obtain ⟨length, hlength, h⟩ := bind_eq_ok.1 h
  obtain ⟨hsome, h⟩ := ite_throw_bind_eq_ok.1 h
  obtain ⟨-, -, h⟩ := bind_eq_ok.1 h
  obtain ⟨values, hvalues, h⟩ := bind_eq_ok.1 h
  rw [Checked.mul_eq_ok (lift_eq_ok.1 hlength)] at hsome
  cases h
  exact ⟨not_not.1 hchannels, hlarge, rfl, Nat.pos_of_ne_zero (Nat.mul_ne_zero_iff.1 hsome).2,
    lift_eq_ok.1 hvalues⟩

/-- Whatever the parameters are, the order of the rows decides at most on which of them fails
first. -/
theorem apply_concordant (p : Conv2d) (i : Image) {order order' : Nat → List Nat}
    (horder : ∀ n, (order n).Perm (order' n)) :
    Concordant (p.apply i order) (p.apply i order') := by
  refine Concordant.check fun _ => .fork fun margin _ => .fork fun border _ => ?_
  refine Concordant.check fun hlarge => .fork fun length hlength => ?_
  refine Concordant.check fun hsome => .fork fun _ _ => ?_
  have hwidth : 0 < i.width - border := Nat.sub_pos_of_lt (Nat.lt_of_not_le (not_or.1 hlarge).2)
  have hout : 0 < p.outputNum := by
    rw [Checked.mul_eq_ok (lift_eq_ok.1 hlength)] at hsome
    exact Nat.pos_of_ne_zero (Nat.mul_ne_zero_iff.1 hsome).2
  have hrows : Concordant
      (p.placeRows i margin (i.height - border) (i.width - border) (order (i.height - border)))
      (p.placeRows i margin (i.height - border) (i.width - border) (order' (i.height - border))) :=
    placeRows_concordant hwidth hout _ (horder _)
  exact Concordant.bind_same (hrows.mapError fun _ _ _ => trivial) _

theorem apply_oneImage (p : Conv2d) (i : Image) : Ensures (·.OneImage i) (p.apply i) := by
  refine .check fun _ => .bind fun _ _ => .bind fun _ _ => .check fun _ => ?_
  exact .bind fun _ _ => .check fun _ => .bind fun _ _ => .bind fun _ _ => .ok ⟨rfl, rfl⟩

theorem apply_matched (p : Conv2d) (i : Image) : Avoids KernelError.IsMismatch (p.apply i) := by
  have hlift : ∀ fault, ¬(KernelError.fault fault).IsMismatch := fun _ => not_false
  refine .check not_false fun _ => .bind (.lift hlift) fun _ _ => .bind (.lift hlift) fun _ _ => ?_
  refine .check not_false fun _ => .bind (.lift hlift) fun _ _ => .check not_false fun _ => ?_
  exact .bind (.lift hlift) fun _ _ => .bind (.lift hlift) fun _ _ => .ok _

theorem apply_of_channels (hchannels : i.channels ≠ p.inputNum) (order : Nat → List Nat) :
    p.apply i order = .error (.wrongChannels .conv2d p.inputNum i.channels) := by
  unfold apply
  rw [if_pos hchannels]
  rfl

/-- Where no check fails, the rows are left to be computed. -/
theorem apply_of_checks (order : Nat → List Nat) (hmargin : p.margin = .ok p.border)
    (hborder : Checked.mul p.border 2 = .ok (p.border * 2)) (hout : IsSize p.outputNum)
    (hlines : p.checkLines i = .ok ()) (hi : i.Whole) (hchannels : i.channels = p.inputNum)
    (hlarge : ¬(i.height ≤ p.border * 2 ∨ i.width ≤ p.border * 2)) : p.apply i order = do
      let values ← p.placeRows i p.border (p.rows i) (p.columns i) (order (p.rows i))
      return ⟨⟨1, p.rows i, p.columns i, p.outputNum⟩, i.dataType, values⟩ := by
  have hcolumns := isSize_columns hi (Nat.lt_of_not_le (not_or.1 hlarge).2)
  have hrow : Checked.mul (p.columns i) p.outputNum = .ok (p.columns i * p.outputNum) := by
    apply Checked.mul_of_lt
    calc p.columns i * p.outputNum ≤ 2147483648 * 2147483648 :=
          Nat.mul_le_mul (Nat.le_of_lt hcolumns.2) (Nat.le_of_lt hout.2)
      _ < Checked.sizeLimit := by decide
  have hsome : p.columns i * p.outputNum ≠ 0 := Nat.ne_of_gt (Nat.mul_pos hcolumns.1 hout.1)
  unfold apply
  rw [if_neg (not_not.2 hchannels), lift_bind_eq hmargin, lift_bind_eq hborder, if_neg hlarge]
  exact (lift_bind_eq hrow _).trans ((if_neg hsome).trans (lift_bind_eq hlines _))

section

variable (hp : p.WellFormed) (order : Nat → List Nat)

include hp

theorem margin_eq_border : p.margin = .ok p.border :=
  margin_eq hp.kernelSize.1 (Nat.lt_trans (border_lt hp) (by decide))

theorem border_mul_two : Checked.mul p.border 2 = .ok (p.border * 2) := by
  have hborder := border_lt hp
  apply Checked.mul_of_lt
  unfold Checked.sizeLimit
  omega

theorem apply_of_small (hchannels : i.channels = p.inputNum)
    (hsmall : i.height ≤ p.border * 2 ∨ i.width ≤ p.border * 2) :
    p.apply i order = .error (.tooSmallForPadding i.width i.height p.border) := by
  unfold apply
  rw [if_neg (not_not.2 hchannels), lift_bind_eq (margin_eq_border hp),
    lift_bind_eq (border_mul_two hp), if_pos hsmall]
  rfl

variable (hsize : p.kernel.size < Checked.sizeLimit) (hi : i.Whole)
  (hcount : i.values.size < Checked.sizeLimit) (hchannels : i.channels = p.inputNum)
  (hlarge : ¬(i.height ≤ p.border * 2 ∨ i.width ≤ p.border * 2))

include hsize hi hcount hchannels hlarge

/-- After the checks the rows are left to be computed. -/
theorem apply_of_large : p.apply i order = do
    let values ← p.placeRows i p.border (p.rows i) (p.columns i) (order (p.rows i))
    return ⟨⟨1, p.rows i, p.columns i, p.outputNum⟩, i.dataType, values⟩ := by
  have hlines := checkLines_eq hp hsize (Nat.lt_of_le_of_lt hi.row_le hcount)
  exact apply_of_checks order (margin_eq_border hp) (border_mul_two hp) hp.outputNum hlines hi
    hchannels hlarge

theorem apply_eq (horder : (order (p.rows i)).Perm (List.range (p.rows i)))
    (hroom : 4 * (p.rows i * p.columns i * p.outputNum) < Checked.offsetLimit) :
    p.apply i order = .ok (p.result i) := by
  have hrows := isSize_rows hi (Nat.lt_of_not_le (not_or.1 hlarge).1)
  have hcolumns := isSize_columns hi (Nat.lt_of_not_le (not_or.1 hlarge).2)
  rw [apply_of_large hp order hsize hi hcount hchannels hlarge]
  exact lift_bind_eq (placeRows_eq hp.shaped hi hchannels hp.outputNum.1 hcolumns.1
    (hp.sees_image hi) horder hrows.1 hroom) _

end

section

variable (hp : p.WellFormed) (hsize : p.kernel.size < Checked.sizeLimit) (hi : i.Whole)
  (hcount : i.values.size < Checked.sizeLimit)

include hp hsize hi hcount

/-- In whatever order the rows are computed, the result is the same. -/
theorem apply_order {order : Nat → List Nat} (horder : ∀ n, (order n).Perm (List.range n)) :
    p.apply i order = p.apply i := by
  by_cases hchannels : i.channels = p.inputNum
  · by_cases hsmall : i.height ≤ p.border * 2 ∨ i.width ≤ p.border * 2
    · rw [apply_of_small hp order hchannels hsmall, apply_of_small hp _ hchannels hsmall]
    · have hcolumns := isSize_columns hi (Nat.lt_of_not_le (not_or.1 hsmall).2)
      rw [apply_of_large hp order hsize hi hcount hchannels hsmall,
        apply_of_large hp _ hsize hi hcount hchannels hsmall,
        placeRows_order hp.shaped hi hchannels hp.outputNum.1 hcolumns.1 (hp.sees_image hi) (horder _)]
  · rw [apply_of_channels hchannels, apply_of_channels hchannels]

end

/-- The border leaves some of the image, and a signed 32-bit number counts the bytes of the output. -/
structure Accepts (p : Conv2d) (i : Image) : Prop where
  height : p.border * 2 < i.height
  width : p.border * 2 < i.width
  bytes : 4 * ((i.height - p.border * 2) * (i.width - p.border * 2) * p.outputNum) ≤ 2147483647

/-- The result as an image. -/
def picture (p : Conv2d) (i : Image) : Image :=
  ⟨p.rows i, p.columns i, p.outputNum, i.dataType, (p.result i).values⟩

theorem Accepts.picture_whole (h : p.Accepts i) (hp : p.WellFormed) (hi : i.Whole) :
    (p.picture i).Whole := by
  refine ⟨isSize_rows hi h.height, isSize_columns hi h.width, hp.outputNum, ?_⟩
  simp [picture, result]

/-- There is room for the output of an image that is no larger than a tensor. -/
theorem room_of_wellFormed (h : p.WellFormed) (hi : i.WellFormed) :
    4 * (p.rows i * p.columns i * p.outputNum) < Checked.offsetLimit := by
  have harea : p.rows i * p.columns i ≤ 536870911 :=
    Nat.le_trans (Nat.mul_le_mul (Nat.sub_le _ _) (Nat.sub_le _ _)) hi.area_le
  calc 4 * (p.rows i * p.columns i * p.outputNum) ≤ 4 * (536870911 * 2147483648) :=
        Nat.mul_le_mul_left 4 (Nat.mul_le_mul harea (Nat.le_of_lt h.outputNum.2))
    _ < Checked.offsetLimit := by decide

theorem apply_faultless (h : p.WellFormed) (hsize : p.kernel.size < Checked.sizeLimit)
    (hi : i.WellFormed) : Faultless (p.apply i) := by
  by_cases hchannels : i.channels = p.inputNum
  · by_cases hsmall : i.height ≤ p.border * 2 ∨ i.width ≤ p.border * 2
    · rw [apply_of_small h _ hchannels hsmall]
      exact .error not_false
    · rw [apply_eq h _ hsize hi.whole hi.size_lt hchannels hsmall (List.Perm.refl _)
        (room_of_wellFormed h hi)]
      exact .ok _
  · rw [apply_of_channels hchannels]
    exact .error not_false

/-- The convolution takes the image, but no operand can hold its output. -/
structure Overflows (p : Conv2d) (i : Image) : Prop where
  channels : i.channels = p.inputNum
  height : p.border * 2 < i.height
  width : p.border * 2 < i.width
  bytes : 2147483647 < 4 * (p.rows i * p.columns i * p.outputNum)

theorem Overflows.byteLength?_eq (h : p.Overflows i) (hp : p.WellFormed) (hi : i.Whole) :
    (p.result i).shape.toDims.byteLength? = none := by
  have hlong := h.bytes
  have hlength := Shape.byteLength?_eq (isSize_rows hi h.height) (isSize_columns hi h.width)
    hp.outputNum
  exact hlength.trans (if_neg (by omega))

/-- Where an image is taken and there is room for the output, the output is computed. -/
theorem Overflows.apply_eq (h : p.Overflows i) (hp : p.WellFormed)
    (hsize : p.kernel.size < Checked.sizeLimit) (hi : i.Whole)
    (hcount : i.values.size < Checked.sizeLimit)
    (hroom : 4 * (p.rows i * p.columns i * p.outputNum) < Checked.offsetLimit) :
    p.apply i = .ok (p.result i) := by
  have hlarge : ¬(i.height ≤ p.border * 2 ∨ i.width ≤ p.border * 2) :=
    not_or.2 ⟨Nat.not_le.2 h.height, Nat.not_le.2 h.width⟩
  exact Conv2d.apply_eq hp List.range hsize hi hcount h.channels hlarge (.refl _) hroom

/-- Where the output does not overflow, an operand can hold it. -/
theorem apply_writable (h : p.WellFormed) (hsize : p.kernel.size < Checked.sizeLimit)
    (hi : i.WellFormed) (hfits : ¬p.Overflows i) : Ensures Tensor.Writable (p.apply i) := by
  intro t ht
  obtain ⟨hchannels, hlarge, -⟩ := apply_eq_ok ht
  obtain ⟨hheight, hwidth⟩ := not_or.1 hlarge
  have haccepts : p.Accepts i := by
    refine ⟨Nat.lt_of_not_le hheight, Nat.lt_of_not_le hwidth, Nat.le_of_not_lt fun hlong => ?_⟩
    exact hfits ⟨hchannels, Nat.lt_of_not_le hheight, Nat.lt_of_not_le hwidth, hlong⟩
  rw [apply_eq h _ hsize hi.whole hi.size_lt hchannels hlarge (List.Perm.refl _)
    (room_of_wellFormed h hi)] at ht
  cases ht
  have hpicture : (p.picture i).WellFormed := by
    refine .of_whole (haccepts.picture_whole h hi.whole) ?_
    rw [(haccepts.picture_whole h hi.whole).count]
    exact haccepts.bytes
  exact hpicture.writable

theorem Regular.wellFormed (h : p.Regular i) : p.WellFormed := by
  obtain ⟨hsizes, -, hkernel, -, hbiases, -⟩ := h
  have hsize : ∀ n ∈ [p.inputNum, p.outputNum, p.kernelSize, p.dilation, i.height, i.width],
      IsSize n := fun n hn => ⟨(hsizes n hn).1, Nat.lt_succ_of_le (hsizes n hn).2⟩
  refine ⟨hsize _ (by simp), hsize _ (by simp), hsize _ (by simp), hsize _ (by simp), hkernel, ?_⟩
  intro xs hxs
  simpa [Option.mem_def.1 hxs] using hbiases

theorem Regular.whole (h : p.Regular i) : i.Whole := by
  have hp := h.wellFormed
  obtain ⟨hsizes, hchannels, -, -, -, hcount, -⟩ := h
  have hheight := hsizes i.height (by simp)
  have hwidth := hsizes i.width (by simp)
  exact ⟨⟨hheight.1, Nat.lt_succ_of_le hheight.2⟩, ⟨hwidth.1, Nat.lt_succ_of_le hwidth.2⟩,
    hchannels ▸ hp.inputNum, hcount⟩

/-- The output that is left out for its length could have been computed. -/
theorem overlong?_eq_some {t : Tensor} (h : p.overlong? i = some t) : ∃ values,
    p.apply i = .ok { t with values } ∧ t.shape.toDims.byteLength? = none := by
  unfold overlong? at h
  obtain ⟨margin, hmargin, h⟩ := Option.bind_eq_some_iff.1 h
  obtain rfl := margin_eq_ok (toOption_eq_some.1 hmargin)
  dsimp only at h
  split at h
  next hlong =>
    obtain ⟨hregular, hheight, hwidth, hbytes, hroom⟩ := hlong
    cases h
    have hp := hregular.wellFormed
    have hi := hregular.whole
    have hover : p.Overflows i := ⟨hregular.2.1, Nat.lt_of_sub_pos hheight,
      Nat.lt_of_sub_pos hwidth, hbytes⟩
    obtain ⟨-, -, -, hsize, -, -, hcount⟩ := hregular
    exact ⟨_, hover.apply_eq hp hsize hi hcount hroom, hover.byteLength?_eq hp hi⟩
  next => cases h

end Conv2d

end Inference
