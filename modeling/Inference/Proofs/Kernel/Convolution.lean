import Inference.Proofs.Kernel.Filling
import Inference.Proofs.Kernel.Tensor
import Inference.Proofs.ModelFile.WellFormed
/-! Convolution by its definition: an output value is the activation of a sum over the taps of its
window and the input channels, which starts from the filter's bias. -/
namespace Inference

theorem biasOf_eq {biases : Option (Array Single)} {count filter : Nat}
    (h : ∀ xs ∈ biases, xs.size = count) (hfilter : filter < count) :
    biasOf biases filter = .ok (biases.elim .zero (·.getD filter .zero)) := by
  cases biases with
  | none => rfl
  | some xs =>
    have hlt : filter < xs.size := by
      rw [h xs rfl]
      exact hfilter
    simp [biasOf, Checked.read_of_lt hlt, Array.getElem?_eq_getElem hlt]

namespace Conv2d

section

variable (p : Conv2d)

/-- The weight of a filter for an input channel at the tap in row `ky` and column `kx`. -/
def weight (filter ky kx channel : Nat) : Single :=
  p.kernel.getD (((filter * p.kernelSize + ky) * p.kernelSize + kx) * p.inputNum + channel) .zero

/-- What the sum of a filter starts from. -/
def bias (filter : Nat) : Single := p.biases.elim .zero (·.getD filter .zero)

/-- How many rows and columns along each edge have no output of their own. -/
def border : Nat := if p.padding = .valid then (p.kernelSize - 1) / 2 * p.dilation else 0

/-- The place on an axis where tap `k` of output position `n` looks. -/
def place (n k : Nat) : Int :=
  (n + p.border : Nat) + ((k : Int) - (p.kernelSize / 2 : Nat)) * p.dilation

/-- The position that is seen at a place: inside the axis it is the place itself, beyond the axis
there is none, or the nearest one if the edge is clamped to. -/
def seen? (size : Nat) (place : Int) : Option Nat :=
  if 0 ≤ place ∧ place < size then some place.toNat
  else if p.padding = .sameClampToEdge then some (if place < 0 then 0 else size - 1)
  else none

/-- What a tap adds, channel by channel, if it sees a row and a column. -/
def tapProducts (i : Image) (filter ky kx : Nat) : Option Nat → Option Nat → List Single
  | some row, some column => (List.range p.inputNum).map fun channel =>
      i.pixel row column channel * p.weight filter ky kx channel
  | _, _ => []

/-- What the taps of an output value add, row by row and column by column. -/
def products (i : Image) (y x filter : Nat) : List Single :=
  (List.range p.kernelSize).flatMap fun ky => (List.range p.kernelSize).flatMap fun kx =>
    p.tapProducts i filter ky kx (p.seen? i.height (p.place y ky)) (p.seen? i.width (p.place x kx))

def output (i : Image) (y x filter : Nat) : Single :=
  p.activation.apply ((p.products i y x filter).foldl (· + ·) (p.bias filter))

/-- How many rows the output has. -/
def rows (i : Image) : Nat := i.height - p.border * 2

def columns (i : Image) : Nat := i.width - p.border * 2

/-- The value for a place in row-major order, out of one for each row, column and filter. -/
def placed (width : Nat) (value : Nat → Nat → Nat → Single) (n : Nat) : Single :=
  value (n / p.outputNum / width) (n / p.outputNum % width) (n % p.outputNum)

/-- The values of a row can be computed. -/
def Computes (i : Image) (margin width : Nat) (value : Nat → Nat → Nat → Single) (y : Nat) : Prop :=
  ∀ x < width, ∀ filter < p.outputNum,
    p.value i (y + margin) (x + margin) filter = .ok (value y x filter)

/-- The places of a row are there. -/
def HasRoom (width size y : Nat) : Prop :=
  ∀ x < width, ∀ filter < p.outputNum, (y * width + x) * p.outputNum + filter < size

/-- The value of a row, a column and a filter, if there is one. -/
def valueOrZero (i : Image) (margin y x filter : Nat) : Single :=
  (p.value i (y + margin) (x + margin) filter).toOption.getD .zero

/-- The value at a place of the output, which is in row-major order. -/
def outputAt (i : Image) (n : Nat) : Single :=
  p.output i (n / p.outputNum / p.columns i) (n / p.outputNum % p.columns i) (n % p.outputNum)

def result (i : Image) : Tensor where
  shape := ⟨1, p.rows i, p.columns i, p.outputNum⟩
  dataType := i.dataType
  values := (Array.range (p.rows i * p.columns i * p.outputNum)).map (p.outputAt i)

/-- The kernel has its weights, and each filter a bias if there are any. -/
structure Shaped : Prop where
  kernelSize : 0 < p.kernelSize
  kernel : p.kernel.size = p.kernelSize * p.kernelSize * p.outputNum * p.inputNum
  biases : ∀ xs ∈ p.biases, xs.size = p.outputNum

end

variable {p : Conv2d} {i : Image}

theorem WellFormed.shaped (h : p.WellFormed) : p.Shaped := ⟨h.kernelSize.1, h.kernel, h.biases⟩

theorem read_weight (h : p.Shaped) {filter ky kx channel : Nat} (hfilter : filter < p.outputNum)
    (hky : ky < p.kernelSize) (hkx : kx < p.kernelSize) (hchannel : channel < p.inputNum) :
    Checked.read p.kernel
      (((filter * p.kernelSize + ky) * p.kernelSize + kx) * p.inputNum + channel) =
        .ok (p.weight filter ky kx channel) := by
  have hlt : ((filter * p.kernelSize + ky) * p.kernelSize + kx) * p.inputNum + channel <
      p.kernel.size := by
    calc ((filter * p.kernelSize + ky) * p.kernelSize + kx) * p.inputNum + channel
        < p.outputNum * p.kernelSize * p.kernelSize * p.inputNum :=
          mul_add_lt_mul (mul_add_lt_mul (mul_add_lt_mul hfilter hky) hkx) hchannel
      _ = p.kernel.size := by rw [h.kernel]; ac_rfl
  rw [Checked.read_of_lt hlt, weight, Array.getD_eq_getD_getElem?, Array.getElem?_eq_getElem hlt,
    Option.getD_some]

theorem addTap_eq (h : p.Shaped) (hi : i.Whole) (hchannels : i.channels = p.inputNum)
    {filter ky kx row column : Nat} (hfilter : filter < p.outputNum) (hky : ky < p.kernelSize)
    (hkx : kx < p.kernelSize) (hrow : row < i.height) (hcolumn : column < i.width) (sum : Single) :
    p.addTap i filter ky kx row column sum =
      .ok ((p.tapProducts i filter ky kx (some row) (some column)).foldl (· + ·) sum) := by
  rw [tapProducts, List.foldl_map]
  refine foldlM_eq_ok fun sum channel hchannel => ?_
  have hchannel : channel < p.inputNum := List.mem_range.1 hchannel
  rw [hi.read_eq hrow hcolumn (hchannels ▸ hchannel), read_weight h hfilter hky hkx hchannel]
  rfl

/-- Where the place can be computed, the tap reads what is seen there. -/
theorem tap_eq {size n k : Nat} (hsize : 0 < size)
    (hstep : ((k : Int) - (p.kernelSize / 2 : Nat)) * Checked.signed p.dilation =
      ((k : Int) - (p.kernelSize / 2 : Nat)) * p.dilation)
    (hshift : -(Checked.offsetLimit : Int) ≤ ((k : Int) - (p.kernelSize / 2 : Nat)) * p.dilation ∧
      ((k : Int) - (p.kernelSize / 2 : Nat)) * p.dilation < Checked.offsetLimit)
    (hplace : -(Checked.offsetLimit : Int) ≤ p.place n k ∧ p.place n k < Checked.offsetLimit) :
    p.tap size (n + p.border) k = .ok (p.seen? size (p.place n k)) := by
  have hoffset := Checked.offset_of_bounds hplace
  unfold tap seen?
  unfold place at hoffset ⊢
  simp only [hstep, Checked.offset_of_bounds hshift]
  refine bind_eq_ok.2 ⟨_, rfl, bind_eq_ok.2 ⟨_, hoffset, ?_⟩⟩
  generalize ((n + p.border : Nat) : Int) + ((k : Int) - (p.kernelSize / 2 : Nat)) * p.dilation = i
  cases p.padding with
  | sameClampToEdge =>
    refine congrArg Except.ok ?_
    simp only [if_true]
    split_ifs <;> exact congrArg some (by omega)
  | valid => rfl
  | same => rfl

theorem seen?_lt {size n : Nat} {place : Int} (hsize : 0 < size) (h : p.seen? size place = some n) :
    n < size := by
  unfold seen? at h
  split at h
  next hinside =>
    cases h
    omega
  next =>
    split at h
    · cases h
      split <;> omega
    · cases h

/-- Every tap of a window reads what is seen at its place on an axis. -/
def Sees (p : Conv2d) (size n : Nat) : Prop :=
  ∀ k < p.kernelSize, p.tap size (n + p.border) k = .ok (p.seen? size (p.place n k))

theorem value_eq (h : p.Shaped) (hi : i.Whole) (hchannels : i.channels = p.inputNum)
    {y x filter : Nat} (hy : p.Sees i.height y) (hx : p.Sees i.width x)
    (hfilter : filter < p.outputNum) :
    p.value i (y + p.border) (x + p.border) filter = .ok (p.output i y x filter) := by
  unfold value output products
  rw [biasOf_eq h.biases hfilter, List.foldl_flatMap]
  refine bind_eq_ok.2 ⟨_, rfl, bind_eq_ok.2 ⟨_, foldlM_eq_ok fun sum ky hky => ?_, rfl⟩⟩
  have hky := List.mem_range.1 hky
  rw [hy ky hky, List.foldl_flatMap]
  refine bind_eq_ok.2 ⟨_, rfl, foldlM_eq_ok fun sum kx hkx => ?_⟩
  have hkx := List.mem_range.1 hkx
  rw [hx kx hkx]
  refine bind_eq_ok.2 ⟨_, rfl, ?_⟩
  cases hrow : p.seen? i.height (p.place y ky) with
  | none => rfl
  | some row => cases hcolumn : p.seen? i.width (p.place x kx) with
    | none => rfl
    | some column =>
      exact addTap_eq h hi hchannels hfilter hky hkx (seen?_lt hi.height.1 hrow)
        (seen?_lt hi.width.1 hcolumn) sum

theorem isSize_rows (hi : i.Whole) (h : p.border * 2 < i.height) : IsSize (p.rows i) :=
  ⟨Nat.sub_pos_of_lt h, Nat.lt_of_le_of_lt (Nat.sub_le _ _) hi.height.2⟩

theorem isSize_columns (hi : i.Whole) (h : p.border * 2 < i.width) : IsSize (p.columns i) :=
  ⟨Nat.sub_pos_of_lt h, Nat.lt_of_le_of_lt (Nat.sub_le _ _) hi.width.2⟩

theorem margin_eq (hsize : 0 < p.kernelSize) (hborder : p.border < Checked.sizeLimit) :
    p.margin = .ok p.border := by
  unfold margin border at *
  cases hpadding : p.padding with
  | valid =>
    simp only [hpadding, if_true] at hborder ⊢
    exact bind_eq_ok.2 ⟨_, Checked.sub_of_le hsize, Checked.mul_of_lt hborder⟩
  | same => rfl
  | sameClampToEdge => rfl

theorem placed_position {width x filter : Nat} (hx : x < width) (hfilter : filter < p.outputNum)
    (value : Nat → Nat → Nat → Single) (y : Nat) :
    p.placed width value ((y * width + x) * p.outputNum + filter) = value y x filter := by
  obtain ⟨hrow, hcolumn, hchannel⟩ := (eq_position_iff hx hfilter).1
    (rfl : (y * width + x) * p.outputNum + filter = _)
  rw [placed, hrow, hcolumn, hchannel]

/-- The output has its values in row-major order. -/
theorem result_value {y x filter : Nat} (hx : x < p.columns i) (hfilter : filter < p.outputNum)
    (hy : y < p.rows i) :
    (p.result i).values[(y * p.columns i + x) * p.outputNum + filter]? =
      some (p.output i y x filter) := by
  have hlt : (y * p.columns i + x) * p.outputNum + filter < p.rows i * p.columns i * p.outputNum :=
    mul_add_lt_mul (mul_add_lt_mul hy hx) hfilter
  rw [result, Array.getElem?_map, Array.getElem?_range, if_pos hlt, Option.map_some]
  exact congrArg some (placed_position hx hfilter (p.output i) y)

/-! ### Rows in any order -/

section

variable {margin width y : Nat} {value : Nat → Nat → Nat → Single} {out : Array Single}

/-- A row that was computed had all its values and places. -/
theorem placeRow_ensures : Ensures (fun next : Array Single => next.size = out.size ∧
      p.Computes i margin width (p.valueOrZero i margin) y ∧ p.HasRoom width out.size y)
      (p.placeRow i margin width y out) := by
  have hloop : Ensures (fun next : Array Single => next.size = out.size ∧
      ∀ x ∈ List.range width, ∀ filter ∈ List.range p.outputNum,
        p.value i (y + margin) (x + margin) filter = .ok (p.valueOrZero i margin y x filter) ∧
          (y * width + x) * p.outputNum + filter < out.size) (p.placeRow i margin width y out) := by
    refine .foldlM rfl fun now hnow x _ => .foldlM hnow fun now' hnow' filter _ => ?_
    refine .bind fun value hvalue => ?_
    unfold Checked.write valueOrZero
    rw [hvalue]
    split
    next hlt => exact .ok ⟨by simpa using hnow', rfl, hnow' ▸ hlt⟩
    next => exact .error _
  intro next hnext
  obtain ⟨hsize, hall⟩ := hloop next hnext
  refine ⟨hsize, fun x hx filter hfilter => ?_, fun x hx filter hfilter => ?_⟩
  · exact (hall x (List.mem_range.2 hx) filter (List.mem_range.2 hfilter)).1
  · exact (hall x (List.mem_range.2 hx) filter (List.mem_range.2 hfilter)).2

variable (hwidth : 0 < width) (hout : 0 < p.outputNum)

include hwidth hout

/-- A row that has its values and places is put there, one place for each pixel and filter. -/
theorem placeRow_fills (hvalue : p.Computes i margin width value y)
    (hroom : p.HasRoom width out.size y) :
    Yields (Filled (p.placed width value) (fun n => n / p.outputNum / width = y) out)
      (p.placeRow i margin width y out) := by
  -- a pixel owns the places that lead back to its row and column, one for each filter
  have hpixel : ∀ x ∈ List.range width, ∀ now : Array Single, now.size = out.size →
      Yields (Filled (p.placed width value)
        (fun n => n / p.outputNum / width = y ∧ n / p.outputNum % width = x) now)
        ((List.range p.outputNum).foldlM (fun out filter => do
          let value ← p.value i (y + margin) (x + margin) filter
          Checked.write out ((y * width + x) * p.outputNum + filter) value) now) := by
    intro x hx now hnow
    have hx := List.mem_range.1 hx
    refine (Filled.foldlM (fun filter n => n = (y * width + x) * p.outputNum + filter)
      fun filter hfilter now' hnow' => ?_).mono fun next h => h.congr fun n => ?_
    · have hfilter := List.mem_range.1 hfilter
      refine .of_eq (hvalue x hx filter hfilter) ?_
      rw [← placed_position hx hfilter value y]
      apply Filled.write
      rw [hnow', hnow]
      exact hroom x hx filter hfilter
    · constructor
      · rintro ⟨filter, hfilter, hn⟩
        obtain ⟨hy', hx', -⟩ := (eq_position_iff hx (List.mem_range.1 hfilter)).1 hn
        exact ⟨hy', hx'⟩
      · rintro ⟨hy', hx'⟩
        have hlt := Nat.mod_lt n hout
        exact ⟨n % p.outputNum, List.mem_range.2 hlt, (eq_position_iff hx hlt).2 ⟨hy', hx', rfl⟩⟩
  refine (Filled.foldlM _ hpixel).mono fun next h => h.congr fun n => ?_
  constructor
  · rintro ⟨x, -, hy', -⟩
    exact hy'
  · intro hy'
    exact ⟨_, List.mem_range.2 (Nat.mod_lt _ hwidth), hy', rfl⟩

theorem foldlM_placeRow_fills {rows : List Nat} (hrows : ∀ y ∈ rows,
      p.Computes i margin width value y ∧ p.HasRoom width out.size y) :
    Yields (Filled (p.placed width value) (fun n => ∃ y ∈ rows, n / p.outputNum / width = y) out)
      (rows.foldlM (fun out row => p.placeRow i margin width row out) out) := by
  refine Filled.foldlM _ fun y hy now hnow => ?_
  obtain ⟨hvalue, hroom⟩ := hrows y hy
  exact placeRow_fills hwidth hout hvalue (hnow ▸ hroom)

/-- Rows that can be computed in one order can be computed in any other, with the same result. -/
theorem foldlM_placeRow_order {order order' : List Nat} (horder : order.Perm order')
    {values : Array Single}
    (h : order.foldlM (fun out row => p.placeRow i margin width row out) out = .ok values) :
    order'.foldlM (fun out row => p.placeRow i margin width row out) out = .ok values := by
  -- the one order says of each row that its values and places are there, whatever comes before it
  have hstep : ∀ now : Array Single, now.size = out.size → ∀ y ∈ order,
      Ensures (fun next : Array Single => next.size = out.size ∧
        p.Computes i margin width (p.valueOrZero i margin) y ∧ p.HasRoom width out.size y)
        (p.placeRow i margin width y now) :=
    fun now hnow y _ => hnow ▸ placeRow_ensures
  obtain ⟨-, hready⟩ :=
    Ensures.foldlM (P := fun now : Array Single => now.size = out.size) rfl hstep values h
  obtain ⟨next, hnext, hfilled⟩ := foldlM_placeRow_fills hwidth hout hready
  obtain ⟨last, hlast, hfilled'⟩ := foldlM_placeRow_fills hwidth hout
    fun y hy => hready y (horder.mem_iff.2 hy)
  obtain rfl : values = next := Except.ok.inj (h.symm.trans hnext)
  rw [hlast, (hfilled'.congr fun n => by simp [horder.mem_iff]).unique hfilled]

/-- The order of the rows makes no difference, apart from which row fails first. -/
theorem placeRows_concordant (height : Nat) {order order' : List Nat} (horder : order.Perm order') :
    Concordant (p.placeRows i margin height width order)
      (p.placeRows i margin height width order') := by
  refine Concordant.fork fun count _ => Concordant.fork fun _ _ => .of_ok ?_ ?_
  · intro values h
    exact ⟨values, foldlM_placeRow_order hwidth hout horder h, rfl⟩
  · intro values h
    exact ⟨values, foldlM_placeRow_order hwidth hout horder.symm h⟩

end

/-! ### The output -/

section

variable (hp : p.Shaped) (hi : i.Whole) (hchannels : i.channels = p.inputNum)
  (hout : 0 < p.outputNum) (hwidth : 0 < p.columns i)
  (hsee : (∀ y < p.rows i, p.Sees i.height y) ∧ ∀ x < p.columns i, p.Sees i.width x)

include hp hi hchannels hout hwidth hsee

variable {order : List Nat} (horder : order.Perm (List.range (p.rows i)))

include horder

/-- Whatever the order of the rows, all of them are there in the end. -/
theorem foldlM_placeRow_eq : order.foldlM (fun out row => p.placeRow i p.border (p.columns i) row out)
    (.replicate (p.rows i * p.columns i * p.outputNum) .zero) = .ok (p.result i).values := by
  have hsize : (Array.replicate (p.rows i * p.columns i * p.outputNum) Single.zero).size =
      p.rows i * p.columns i * p.outputNum := Array.size_replicate
  have hrows : ∀ y ∈ order, p.Computes i p.border (p.columns i) (p.output i) y ∧
      p.HasRoom (p.columns i) (Array.replicate (p.rows i * p.columns i * p.outputNum)
        Single.zero).size y := by
    intro y hy
    have hy := List.mem_range.1 (horder.mem_iff.1 hy)
    refine ⟨fun x hx filter hfilter => ?_, fun x hx filter hfilter => ?_⟩
    · exact value_eq hp hi hchannels (hsee.1 y hy) (hsee.2 x hx) hfilter
    · rw [hsize]
      exact mul_add_lt_mul (mul_add_lt_mul hy hx) hfilter
  obtain ⟨values, hvalues, hfilled⟩ := foldlM_placeRow_fills hwidth hout hrows
  rw [hvalues, hfilled.eq_map_range fun n hn => ?_, hsize]
  · rfl
  · rw [hsize] at hn
    exact ⟨_, horder.mem_iff.2 (List.mem_range.2 (row_lt hn)), rfl⟩

/-- Once there is room for them, the values are those of the definition. -/
theorem placeRows_eq_checks : p.placeRows i p.border (p.rows i) (p.columns i) order = do
    Checked.reserve (← Checked.product [p.rows i, p.columns i, p.outputNum])
    return (p.result i).values := by
  unfold placeRows
  cases hcount : Checked.product [p.rows i, p.columns i, p.outputNum] with
  | error => rfl
  | ok count =>
    obtain rfl := Checked.product_three_eq_ok hcount
    have hrows := foldlM_placeRow_eq hp hi hchannels hout hwidth hsee horder
    exact congrArg (fun rest => Checked.reserve _ >>= fun _ => rest) hrows

theorem placeRows_order : p.placeRows i p.border (p.rows i) (p.columns i) order =
    p.placeRows i p.border (p.rows i) (p.columns i) (List.range (p.rows i)) :=
  (placeRows_eq_checks hp hi hchannels hout hwidth hsee horder).trans
    (placeRows_eq_checks hp hi hchannels hout hwidth hsee (.refl _)).symm

theorem placeRows_eq_ok {values : Array Single}
    (h : p.placeRows i p.border (p.rows i) (p.columns i) order = .ok values) :
    values = (p.result i).values := by
  rw [placeRows_eq_checks hp hi hchannels hout hwidth hsee horder] at h
  obtain ⟨count, -, h⟩ := bind_eq_ok.1 h
  obtain ⟨-, -, h⟩ := bind_eq_ok.1 h
  cases h
  rfl

theorem placeRows_eq (hheight : 0 < p.rows i)
    (hroom : 4 * (p.rows i * p.columns i * p.outputNum) < Checked.offsetLimit) :
    p.placeRows i p.border (p.rows i) (p.columns i) order = .ok (p.result i).values := by
  have hlt : p.rows i * p.columns i * p.outputNum < Checked.sizeLimit := by
    unfold Checked.offsetLimit at hroom
    unfold Checked.sizeLimit
    omega
  have hproduct := Checked.product_three hheight hwidth hout hlt
  rw [placeRows_eq_checks hp hi hchannels hout hwidth hsee horder]
  exact bind_eq_ok.2 ⟨_, hproduct, bind_eq_ok.2 ⟨_, Checked.reserve_of_lt hroom, rfl⟩⟩

end

end Conv2d
end Inference
