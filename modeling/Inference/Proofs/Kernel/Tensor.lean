import Inference.Proofs.Operand.Fitting
import Inference.Proofs.Shape
/-! Images whose values fill their geometry: every coordinate inside can be read, and a tensor no
larger than the machine can count is made whole, value by value in row-major order. -/
namespace Inference

open Operand

/-- Row-major order keeps inside coordinates inside. -/
theorem mul_add_lt_mul {a b m n : Nat} (ha : a < m) (hb : b < n) : a * n + b < m * n := by
  calc a * n + b < a * n + n := Nat.add_lt_add_left hb _
    _ = (a + 1) * n := (Nat.succ_mul a n).symm
    _ ≤ m * n := Nat.mul_le_mul_right n ha

/-- A position is divided into the blocks before it and what is left. -/
theorem mul_add_div_mod {a b n : Nat} (h : b < n) : (a * n + b) / n = a ∧ (a * n + b) % n = b :=
  (Nat.div_mod_unique (Nat.zero_lt_of_lt h)).2 ⟨by ac_rfl, h⟩

/-- In row-major order a position determines its coordinates. -/
theorem eq_position_iff {n width channels row column channel : Nat} (hcolumn : column < width)
    (hchannel : channel < channels) : n = (row * width + column) * channels + channel ↔
      n / channels / width = row ∧ n / channels % width = column ∧ n % channels = channel := by
  have houter := Nat.div_mod_unique (a := n) (c := channel) (d := row * width + column)
    (Nat.zero_lt_of_lt hchannel)
  have hinner := Nat.div_mod_unique (a := n / channels) (c := column) (d := row)
    (Nat.zero_lt_of_lt hcolumn)
  constructor
  · rintro rfl
    obtain ⟨hpixel, hlast⟩ := houter.2 ⟨by ac_rfl, hchannel⟩
    obtain ⟨hrow, hlane⟩ := hinner.2 ⟨by rw [hpixel]; ac_rfl, hcolumn⟩
    exact ⟨hrow, hlane, hlast⟩
  · rintro ⟨rfl, rfl, rfl⟩
    rw [Nat.div_add_mod', Nat.div_add_mod']

/-- A position inside has its row inside. -/
theorem row_lt {n height width channels : Nat} (h : n < height * width * channels) :
    n / channels / width < height := by
  rw [Nat.div_div_eq_div_mul]
  apply Nat.div_lt_of_lt_mul
  calc n < height * width * channels := h
    _ = channels * width * height := by ac_rfl

namespace Image

/-- The value at a coordinate. -/
def pixel (i : Image) (row column channel : Nat) : Single :=
  i.values.getD (i.position row column channel) .zero

/-- Each axis has a size that a signed word can hold, and there are as many values as coordinates. -/
structure Whole (i : Image) : Prop where
  height : IsSize i.height
  width : IsSize i.width
  channels : IsSize i.channels
  count : i.values.size = i.height * i.width * i.channels

theorem Whole.read_eq {i : Image} (h : i.Whole) {row column channel : Nat} (hrow : row < i.height)
    (hcolumn : column < i.width) (hchannel : channel < i.channels) :
    i.read row column channel = .ok (i.pixel row column channel) := by
  have hlt : i.position row column channel < i.values.size := by
    rw [h.count]
    exact mul_add_lt_mul (mul_add_lt_mul hrow hcolumn) hchannel
  rw [read, Checked.read_of_lt hlt, pixel, Array.getD_eq_getD_getElem?,
    Array.getElem?_eq_getElem hlt, Option.getD_some]

theorem Whole.row_le {i : Image} (h : i.Whole) : i.width * i.channels ≤ i.values.size := by
  rw [h.count, Nat.mul_assoc]
  exact Nat.le_mul_of_pos_left _ h.height.1

end Image

/-- No axis is empty, there are as many values as coordinates, and their bytes are at most the
greatest signed 32-bit number. -/
structure Image.WellFormed (i : Image) : Prop where
  height : 0 < i.height
  width : 0 < i.width
  channels : 0 < i.channels
  count : i.values.size = i.height * i.width * i.channels
  bytes : 4 * i.values.size ≤ 2147483647

namespace Image.WellFormed

variable {i : Image}

theorem area_le (h : i.WellFormed) : i.height * i.width ≤ 536870911 := by
  have hle : i.height * i.width ≤ i.values.size := by
    rw [h.count]
    exact Nat.le_mul_of_pos_right _ h.channels
  have hbytes := h.bytes
  omega

theorem height_le (h : i.WellFormed) : i.height ≤ 536870911 :=
  Nat.le_trans (Nat.le_mul_of_pos_right _ h.width) h.area_le

theorem width_le (h : i.WellFormed) : i.width ≤ 536870911 :=
  Nat.le_trans (Nat.le_mul_of_pos_left _ h.height) h.area_le

theorem row_le (h : i.WellFormed) : i.width * i.channels ≤ 536870911 := by
  have hle : i.width * i.channels ≤ i.values.size := by
    rw [h.count, Nat.mul_assoc]
    exact Nat.le_mul_of_pos_left _ h.height
  have hbytes := h.bytes
  omega

theorem channels_le (h : i.WellFormed) : i.channels ≤ 536870911 :=
  Nat.le_trans (Nat.le_mul_of_pos_left _ h.width) h.row_le

theorem whole (h : i.WellFormed) : i.Whole := by
  have hheight := h.height_le
  have hwidth := h.width_le
  have hchannels := h.channels_le
  exact ⟨⟨h.height, by omega⟩, ⟨h.width, by omega⟩, ⟨h.channels, by omega⟩, h.count⟩

theorem size_lt (h : i.WellFormed) : i.values.size < Checked.sizeLimit := by
  have hbytes := h.bytes
  unfold Checked.sizeLimit
  omega

theorem of_whole (h : i.Whole) (hbytes : 4 * i.values.size ≤ 2147483647) : i.WellFormed :=
  ⟨h.height.1, h.width.1, h.channels.1, h.count, hbytes⟩

end Image.WellFormed

/-- The values of a function of coordinates in row-major order. -/
def rowMajor (height width channels : Nat) (f : Nat → Nat → Nat → Single) : Array Single :=
  (Array.range (height * width * channels)).map fun n =>
    f (n / channels / width) (n / channels % width) (n % channels)

section

variable {height width channels : Nat} {f : Nat → Nat → Nat → Single}

theorem rowMajor_size : (rowMajor height width channels f).size = height * width * channels := by
  simp [rowMajor]

theorem rowMajor_getElem? {y x channel : Nat} (hy : y < height) (hx : x < width)
    (hchannel : channel < channels) :
    (rowMajor height width channels f)[(y * width + x) * channels + channel]? =
      some (f y x channel) := by
  have hlt : (y * width + x) * channels + channel < height * width * channels :=
    mul_add_lt_mul (mul_add_lt_mul hy hx) hchannel
  obtain ⟨hrow, hcolumn, hlast⟩ := (eq_position_iff hx hchannel).1
    (rfl : (y * width + x) * channels + channel = _)
  rw [rowMajor, Array.getElem?_map, Array.getElem?_range, if_pos hlt, Option.map_some, hrow, hcolumn,
    hlast]

/-- Blocks of positions in turn are all positions in their order. -/
theorem flatMap_range_mul {α : Type} (m n : Nat) (f : Nat → List α) :
    ((List.range m).flatMap fun a => (List.range n).flatMap fun b => f (a * n + b)) =
      (List.range (m * n)).flatMap f := by
  induction m with
  | zero => simp
  | succ m ih =>
    rw [List.range_succ, List.flatMap_append, ih, Nat.succ_mul, List.range_add, List.flatMap_append,
      List.flatMap_map]
    simp

/-- Pairs of positions in row-major order. -/
theorem flatMap_range_map {α : Type} (m n : Nat) (f : Nat → Nat → α) :
    ((List.range m).flatMap fun a => (List.range n).map (f a)) =
      (List.range (m * n)).map fun k => f (k / n) (k % n) := by
  have hpair : ∀ a, (List.range n).map (f a) =
      (List.range n).map fun b => f ((a * n + b) / n) ((a * n + b) % n) := by
    intro a
    refine List.map_congr_left fun b hb => ?_
    obtain ⟨hdiv, hmod⟩ := mul_add_div_mod (a := a) (List.mem_range.1 hb)
    rw [hdiv, hmod]
  have hall := flatMap_range_mul m n fun k => [f (k / n) (k % n)]
  simp only [← List.map_eq_flatMap] at hall
  simp only [hpair]
  exact hall

/-- Row-major order is the order of three nested loops. -/
theorem rowMajor_toList : (rowMajor height width channels f).toList =
    (List.range height).flatMap fun y => (List.range width).flatMap fun x =>
      (List.range channels).map (f y x) := by
  have hpixel : ∀ y, ((List.range width).flatMap fun x => (List.range channels).map (f y x)) =
      (List.range (width * channels)).map fun k => f y (k / channels) (k % channels) :=
    fun y => flatMap_range_map width channels (f y)
  simp only [hpixel]
  rw [flatMap_range_map height (width * channels) fun y k => f y (k / channels) (k % channels),
    ← Nat.mul_assoc]
  simp only [rowMajor, Array.toList_map, Array.toList_range]
  refine List.map_congr_left fun n _ => ?_
  rw [Nat.mod_mul_left_div_self, Nat.mod_mul_left_mod, Nat.div_div_eq_div_mul, Nat.mul_comm channels]

/-- Where every value can be computed and there is room for them, all of them are made. -/
theorem tabulate_eq {value : Nat → Nat → Nat → Except Fault Single} (hheight : 0 < height)
    (hwidth : 0 < width) (hchannels : 0 < channels)
    (hroom : 4 * (height * width * channels) < Checked.offsetLimit)
    (hvalue : ∀ y < height, ∀ x < width, ∀ channel < channels,
      value y x channel = .ok (f y x channel)) :
    tabulate height width channels value = .ok (rowMajor height width channels f) := by
  have hlt : height * width * channels < Checked.sizeLimit := by
    unfold Checked.offsetLimit at hroom
    unfold Checked.sizeLimit
    omega
  have hall : ∀ n ∈ List.range (height * width * channels),
      value (n / channels / width) (n / channels % width) (n % channels) =
        .ok (f (n / channels / width) (n / channels % width) (n % channels)) := by
    intro n hn
    exact hvalue _ (row_lt (List.mem_range.1 hn)) _ (Nat.mod_lt _ hwidth) _ (Nat.mod_lt _ hchannels)
  refine bind_eq_ok.2 ⟨_, Checked.product_three hheight hwidth hchannels hlt, ?_⟩
  refine bind_eq_ok.2 ⟨_, Checked.reserve_of_lt hroom, ?_⟩
  rw [Array.mapM_eq_mapM_toList, Array.toList_range, mapM_eq_ok hall, rowMajor,
    ← List.toArray_range, List.map_toArray]
  rfl

end

/-- An operand can hold the tensor: its dims have a byte length, which the values fill. -/
structure Tensor.Writable (t : Tensor) : Prop where
  sizes : t.shape.oversized? = none
  length : t.shape.toDims.byteLength? = some (4 * t.values.size)

theorem Tensor.Writable.check {t : Tensor} (h : t.Writable) : t.shape.check = .ok () := by
  unfold Shape.check
  simp [h.sizes, h.length]

/-- What every kernel makes of an image: another image, in the same data type. -/
structure Tensor.OneImage (t : Tensor) (i : Image) : Prop where
  batch : t.shape.batch = 1
  dataType : t.dataType = i.dataType

/-- What every layer makes of the operand that it reads first: a tensor of as many batches, in the
same data type. -/
structure Tensor.MadeFrom (t : Tensor) (o : Operand) : Prop where
  held : o.data.isSome
  batch : t.shape.batch = o.dims.batch.toNatClampNeg
  dataType : t.dataType = o.dataType

namespace KernelError

/-- The values of an operand are found not to be as many as its dims say. -/
def IsMismatch : KernelError → Prop
  | .wrongValueCount .. | .wrongLength .. => True
  | _ => False

/-- An operand is found not to fit the values that it holds or is to hold. -/
def IsMisfit : KernelError → Prop
  | .oversizedAxis _ | .oversizedOutput _ | .lengthOverflow _ => True
  | e => e.IsMismatch

theorem IsMismatch.misfit {e : KernelError} (h : e.IsMismatch) : e.IsMisfit := by
  cases e <;> first | exact trivial | exact h

end KernelError

namespace Image

/-- The image with a value for every coordinate. -/
def drawn (height width channels : Nat) (dataType : DataType) (f : Nat → Nat → Nat → Single) :
    Image :=
  ⟨height, width, channels, dataType, rowMajor height width channels f⟩

theorem drawn_pixel {height width channels : Nat} {dataType : DataType}
    {f : Nat → Nat → Nat → Single} {y x channel : Nat} (hy : y < height) (hx : x < width)
    (hchannel : channel < channels) :
    (drawn height width channels dataType f).pixel y x channel = f y x channel := by
  rw [pixel, Array.getD_eq_getD_getElem?]
  exact congrArg (Option.getD · _) (rowMajor_getElem? hy hx hchannel)

/-- An image is what its sizes, its data type and the values at its coordinates say. -/
theorem Whole.drawn_eq {i : Image} (h : i.Whole) {f : Nat → Nat → Nat → Single}
    (hf : ∀ y < i.height, ∀ x < i.width, ∀ channel < i.channels, f y x channel = i.pixel y x channel) :
    drawn i.height i.width i.channels i.dataType f = i := by
  have hvalues : rowMajor i.height i.width i.channels f = i.values := by
    refine Array.ext (rowMajor_size.trans h.count.symm) fun n hn hlt => ?_
    have hn : n < i.height * i.width * i.channels := h.count ▸ hlt
    have hcolumn := Nat.mod_lt (n / i.channels) h.width.1
    have hchannel := Nat.mod_lt n h.channels.1
    simp only [rowMajor, Array.getElem_map, Array.getElem_range]
    rw [hf _ (row_lt hn) _ hcolumn _ hchannel, pixel, position,
      ← (eq_position_iff hcolumn hchannel).2 ⟨rfl, rfl, rfl⟩, Array.getD_eq_getD_getElem?,
      Array.getElem?_eq_getElem hlt, Option.getD_some]
  rw [drawn, hvalues]

/-- The tensor that holds an image. -/
def tensor (i : Image) : Tensor := ⟨⟨1, i.height, i.width, i.channels⟩, i.dataType, i.values⟩

theorem WellFormed.writable {i : Image} (h : i.WellFormed) : i.tensor.Writable := by
  have hi := h.whole
  have hlength := Shape.byteLength?_eq hi.height hi.width hi.channels
  rw [← h.count, if_pos h.bytes] at hlength
  exact ⟨Shape.oversized?_eq_none hi.height hi.width hi.channels, hlength⟩

end Image

namespace Operand

variable {o : Operand}

theorem values_faultless (o : Operand) : Faultless o.values := by
  unfold values
  split
  · exact .ok _
  · exact .error not_false

theorem values_eq_ok {values : Array Single} (h : o.values = .ok values) :
    o.data = some values := by
  unfold Operand.values at h
  split at h
  next hdata => rw [hdata, Except.ok.inj h]
  next => cases h

theorem values_of_data {values : Array Single} (h : o.data = some values) : o.values = .ok values := by
  unfold Operand.values
  rw [h]

theorem values_failure {e : KernelError} (h : o.values = .error e) : e = .noData o.name := by
  unfold Operand.values at h
  split at h
  · cases h
  · exact (Except.error.inj h).symm

/-- An operand without values has no image. -/
theorem image_of_empty (h : o.data = none) : ∃ e, o.image = .error e := by
  by_cases hdims : o.dims.batch ≠ 1 ∨ ¬o.dims.Positive
  · exact ⟨.unusableDims o.name o.dims, by simp only [image, if_pos hdims]; rfl⟩
  · exact ⟨.noData o.name, by simp only [image, if_neg hdims, values, h]; rfl⟩

/-- The image of an operand has the sizes of the dims and a value for each coordinate. -/
theorem image_whole (o : Operand) :
    Ensures (fun i => i.Whole ∧ i.values.size < Checked.sizeLimit) o.image := by
  refine .check fun hdims => .bind fun values _ => .bind fun needed hneeded => .check fun hcount => ?_
  obtain ⟨-, hpositive⟩ := not_or.1 hdims
  have hneeded := lift_eq_ok.1 hneeded
  have hsize : ∀ a : Int32, 0 < a → IsSize a.toNatClampNeg :=
    fun a ha => ⟨toNatClampNeg_pos ha, a.toNatClampNeg_lt⟩
  simp only [not_not, Dims.Positive, Dims.axes, List.forall_mem_cons] at hpositive
  obtain ⟨-, hheight, hwidth, hchannels, -⟩ := hpositive
  refine .ok ⟨⟨hsize _ hheight, hsize _ hwidth, hsize _ hchannels, ?_⟩, ?_⟩
  · exact (not_not.1 hcount).trans (Checked.product_three_eq_ok hneeded)
  · exact (not_not.1 hcount).symm ▸ Checked.product_three_lt hneeded

/-- An image is made of one batch of values. -/
theorem image_source (o : Operand) :
    Ensures (fun i => o.data.isSome ∧ i.dataType = o.dataType ∧ o.dims.batch = 1) o.image := by
  refine .check fun hdims => .bind fun values hvalues => .bind fun _ _ => .check fun _ => .ok ?_
  rw [values_eq_ok hvalues]
  exact ⟨rfl, rfl, not_not.1 (not_or.1 hdims).1⟩

/-- As the values fill the dims, their geometry is that of an image. -/
theorem Fits.image_wellFormed {values : Array Single} (h : o.Fits) (hdata : o.data = some values)
    (hbatch : o.dims.batch = 1) : Image.WellFormed ⟨o.dims.height.toNatClampNeg,
      o.dims.width.toNatClampNeg, o.dims.channels.toNatClampNeg, o.dataType, values⟩ := by
  obtain ⟨hpos, hvolume, hbytes⟩ := h.volume hdata
  rw [Dims.volume_of_batch hbatch] at hvolume
  simp only [Dims.Positive, Dims.axes, List.forall_mem_cons] at hpos
  obtain ⟨-, hheight, hwidth, hchannels, -⟩ := hpos
  exact ⟨toNatClampNeg_pos hheight, toNatClampNeg_pos hwidth, toNatClampNeg_pos hchannels, hvolume,
    hbytes⟩

theorem Fits.image_faultless (h : o.Fits) : Faultless o.image := by
  refine .check not_false fun hdims => o.values_faultless.bind fun values hvalues => ?_
  obtain ⟨hbatch, -⟩ := not_or.1 hdims
  have hi := h.image_wellFormed (values_eq_ok hvalues) (not_not.1 hbatch)
  have hproduct := Checked.product_three hi.height hi.width hi.channels (hi.count ▸ hi.size_lt)
  exact .lift_eq hproduct (.check not_false fun _ => .ok _)

/-- As many values as the dims say are what an image needs. -/
theorem Fits.image_matched (h : o.Fits) : Avoids KernelError.IsMismatch o.image := by
  refine .check not_false fun hdims => ?_
  refine .bind (fun e he => values_failure he ▸ not_false) fun values hvalues => ?_
  refine .bind (.lift fun _ => not_false) fun needed hneeded => ?_
  have hi := h.image_wellFormed (values_eq_ok hvalues) (not_not.1 (not_or.1 hdims).1)
  have hcount : values.size = needed :=
    hi.count.trans (Checked.product_three_eq_ok (lift_eq_ok.1 hneeded)).symm
  simp only [if_neg (not_not.2 hcount)]
  exact .ok _

theorem Fits.image_eq_ok (h : o.Fits) {i : Image} (hi : o.image = .ok i) : i.WellFormed := by
  obtain ⟨hdims, hi⟩ := ite_throw_bind_eq_ok.1 hi
  obtain ⟨values, hvalues, hi⟩ := bind_eq_ok.1 hi
  obtain ⟨needed, -, hi⟩ := bind_eq_ok.1 hi
  obtain ⟨-, hi⟩ := ite_throw_bind_eq_ok.1 hi
  cases hi
  exact h.image_wellFormed (values_eq_ok hvalues) (not_not.1 (not_or.1 hdims).1)

end Operand
end Inference
