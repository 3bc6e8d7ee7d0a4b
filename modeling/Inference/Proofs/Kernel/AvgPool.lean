import Inference.Kernel.AvgPool
import Inference.Proofs.Kernel.Tensor
/-! Pooling by its definition: the windows of an axis are a stride apart, each of them covers some of
the image, and an output value is the mean of the values that its window covers. -/
namespace Inference.AvgPool

section

variable (p : AvgPool)

/-- How many windows an axis has: one for each stride that begins inside the image, or, where windows
may not stick out, one for each that ends inside. -/
def count (size : Nat) : Nat :=
  if p.padding = .same then (size + p.strides - 1) / p.strides
  else (size - p.kernelSize) / p.strides + 1

/-- How far the first window of an axis begins before the image, which is half of what the windows
need beyond the image. -/
def lead (size : Nat) : Nat :=
  if p.padding = .same then ((p.count size - 1) * p.strides + p.kernelSize - size) / 2 else 0

/-- The positions inside the image that a window covers on an axis. -/
def covered (size n : Nat) : List Nat :=
  (List.range size).filter fun a =>
    n * p.strides ≤ a + p.lead size ∧ a + p.lead size < n * p.strides + p.kernelSize

/-- The values that a window covers, row by row. -/
def windowValues (i : Image) (y x channel : Nat) : List Single :=
  (p.covered i.height y).flatMap fun row =>
    (p.covered i.width x).map fun column => i.pixel row column channel

def average (i : Image) (y x channel : Nat) : Single :=
  (p.windowValues i y x channel).foldl (· + ·) .zero /
    .ofNat (p.windowValues i y x channel).length

/-- The averages as an image. -/
def picture (i : Image) : Image :=
  .drawn (p.count i.height) (p.count i.width) i.channels i.dataType (p.average i)

/-- The image is not smaller than its windows, unless they may stick out. -/
def Fits (size : Nat) : Prop := p.padding = .same ∨ p.kernelSize ≤ size

end

variable {p : AvgPool} {i : Image} {size n : Nat}

/-! ### Strides -/

theorem ceil_eq {stride : Nat} (hstride : 0 < stride) (n : Nat) :
    (n + stride - 1) / stride = if n % stride = 0 then n / stride else n / stride + 1 := by
  have hwhole := Nat.div_add_mod' n stride
  have hlt := Nat.mod_lt n hstride
  split
  next heven => exact Nat.div_eq_of_lt_le (by omega) (by rw [Nat.succ_mul]; omega)
  next hodd =>
    refine Nat.div_eq_of_lt_le ?_ ?_
    · rw [Nat.succ_mul]
      omega
    · rw [Nat.succ_mul, Nat.succ_mul]
      omega

/-- The multiples of a stride below a bound. -/
theorem filter_multiples {stride : Nat} (hstride : 0 < stride) (n : Nat) :
    (List.range n).filter (· % stride = 0) =
      (List.range ((n + stride - 1) / stride)).map (· * stride) := by
  induction n with
  | zero => simp [Nat.div_eq_of_lt (Nat.sub_lt hstride Nat.one_pos)]
  | succ n ih =>
    have hnext : (n + 1 + stride - 1) / stride = n / stride + 1 := by
      rw [Nat.add_right_comm, Nat.add_sub_cancel, Nat.add_div_right _ hstride]
    rw [List.range_succ, List.filter_append, ih, hnext, ceil_eq hstride]
    by_cases heven : n % stride = 0
    · have hmultiple : n / stride * stride = n := by
        have hwhole := Nat.div_add_mod' n stride
        omega
      simp [heven, List.range_succ, hmultiple]
    · simp [heven]

/-- The positions of an interval. -/
theorem filter_interval (first stop size : Nat) :
    (List.range size).filter (fun a => first ≤ a ∧ a < stop) =
      List.range' first (min stop size - first) := by
  induction size with
  | zero => simp
  | succ size ih =>
    rw [List.range_succ, List.filter_append, ih]
    by_cases hin : first ≤ size ∧ size < stop
    · have hlength : min stop (size + 1) - first = min stop size - first + 1 := by omega
      have hlast : first + (min stop size - first) = size := by omega
      rw [hlength, List.range'_concat, Nat.one_mul, hlast]
      simp [hin]
    · have hlength : min stop (size + 1) - first = min stop size - first := by omega
      rw [hlength]
      simp [hin]

section

variable (hstrides : 0 < p.strides)

include hstrides

theorem count_eq_reach (size : Nat) :
    p.count size = (p.reach size + p.strides - 1) / p.strides := by
  have hends : (size - p.kernelSize) / p.strides + 1 =
      (size - p.kernelSize + 1 + p.strides - 1) / p.strides := by
    rw [Nat.add_right_comm, Nat.add_sub_cancel, Nat.add_div_right _ hstrides]
  unfold count reach
  cases p.padding with
  | same => rfl
  | valid => exact hends
  | sameClampToEdge => exact hends

theorem windows_eq (size : Nat) : p.windows size = .ok (p.count size) := by
  rw [count_eq_reach hstrides, ceil_eq hstrides]
  unfold windows
  rw [Checked.div_of_pos hstrides]
  rfl

/-- As many anchors as windows. -/
theorem anchors_eq (size : Nat) :
    p.anchors size = (List.range (p.count size)).map (· * p.strides) := by
  rw [count_eq_reach hstrides]
  exact filter_multiples hstrides _

theorem lt_count_iff : n < p.count size ↔ n * p.strides < p.reach size := by
  rw [count_eq_reach hstrides, Nat.lt_iff_add_one_le, Nat.le_div_iff_mul_le hstrides, Nat.succ_mul]
  omega

end

theorem reach_bounds (hkernel : 0 < p.kernelSize) (hsize : 0 < size) (hfits : p.Fits size) :
    0 < p.reach size ∧ p.reach size ≤ size := by
  unfold reach
  split
  next => exact ⟨hsize, Nat.le_refl size⟩
  all_goals
    next hpadding =>
      have hle : p.kernelSize ≤ size := hfits.resolve_left (by simp [hpadding])
      omega

/-! ### Windows -/

/-- The last window begins in the last stride of the image. -/
theorem last_anchor (hstrides : 0 < p.strides) (hsize : 0 < size) (hsame : p.padding = .same) :
    (p.count size - 1) * p.strides + (size - 1) % p.strides = size - 1 := by
  have hcount : p.count size = (size - 1) / p.strides + 1 := by
    rw [count, if_pos hsame, ← Nat.add_div_right _ hstrides]
    congr 1
    omega
  rw [hcount, Nat.add_sub_cancel, Nat.div_add_mod']

theorem overhang_eq (hstrides : 0 < p.strides) (hsize : 0 < size) :
    p.overhang size = .ok (p.lead size) := by
  unfold overhang
  by_cases hsame : p.padding = .same
  · have hlast := last_anchor hstrides hsize hsame
    have hneed : p.kernelSize - ((size - 1) % p.strides + 1) =
        (p.count size - 1) * p.strides + p.kernelSize - size := by omega
    rw [lead, if_pos hsame, hsame, ← hneed]
    exact bind_eq_ok.2 ⟨_, Checked.sub_of_le hsize, bind_eq_ok.2 ⟨_, Checked.mod_of_pos hstrides, rfl⟩⟩
  · rw [lead, if_neg hsame]
    split
    · contradiction
    · rfl
    · rfl

section

variable (h : p.WellFormed) (hsize : 0 < size)

include h hsize

theorem lead_lt : p.lead size < p.kernelSize := by
  have hkernel := h.kernelSize.1
  unfold lead
  split
  next hsame =>
    have hlast := last_anchor h.strides.1 hsize hsame
    omega
  next => exact hkernel

variable (hfits : p.Fits size)

include hfits

theorem count_bounds : 0 < p.count size ∧ p.count size ≤ size := by
  obtain ⟨hreach, hle⟩ := reach_bounds h.kernelSize.1 hsize hfits
  have hstrides := h.strides.1
  refine ⟨(lt_count_iff hstrides).2 (by omega), Nat.le_of_not_lt fun hmany => ?_⟩
  have hlast := (lt_count_iff hstrides).1 hmany
  have hfar : size ≤ size * p.strides := Nat.le_mul_of_pos_right _ hstrides
  omega

variable (hn : n < p.count size)

include hn

/-- What a window covers is an interval, which begins inside the image and is not empty. -/
theorem covered_eq : p.covered size n = List.range' (n * p.strides - p.lead size)
      (min (n * p.strides + p.kernelSize - p.lead size) size - (n * p.strides - p.lead size)) ∧
    0 < min (n * p.strides + p.kernelSize - p.lead size) size - (n * p.strides - p.lead size) := by
  have hlead := lead_lt h hsize
  have hanchor := (lt_count_iff h.strides.1).1 hn
  have hreach := (reach_bounds h.kernelSize.1 hsize hfits).2
  refine ⟨?_, by omega⟩
  rw [← filter_interval]
  refine List.filter_congr fun a _ => decide_eq_decide.2 ?_
  omega

theorem covered_ne_nil : p.covered size n ≠ [] := by
  obtain ⟨heq, hsome⟩ := covered_eq h hsize hfits hn
  rw [heq, Ne, List.range'_eq_nil_iff]
  omega

/-- Where they may not stick out, windows are whole. -/
theorem covered_of_inside (hinside : p.padding ≠ .same) :
    p.covered size n = List.range' (n * p.strides) p.kernelSize := by
  have hlead : p.lead size = 0 := if_neg hinside
  have hle := hfits.resolve_left hinside
  have hanchor := (lt_count_iff h.strides.1).1 hn
  have hreach : p.reach size = size - p.kernelSize + 1 := by
    unfold reach
    split
    · contradiction
    · rfl
    · rfl
  rw [(covered_eq h hsize hfits hn).1, hlead]
  congr 1
  omega

theorem window_eq (hle : size ≤ 536870911) :
    p.window size (p.lead size) (n * p.strides) = .ok (p.covered size n) := by
  have hkernel := h.kernelSize.2
  have hanchor := (lt_count_iff h.strides.1).1 hn
  have hreach := (reach_bounds h.kernelSize.1 hsize hfits).2
  have hstop : Checked.offset ((n * p.strides : Nat) + p.kernelSize : Int) =
      .ok ((n * p.strides : Nat) + p.kernelSize) :=
    Checked.offset_of_bounds (by unfold Checked.offsetLimit; omega)
  have hend : min size (((n * p.strides : Nat) + p.kernelSize : Int).toNat - p.lead size) =
      min (n * p.strides + p.kernelSize - p.lead size) size := by omega
  refine bind_eq_ok.2 ⟨_, hstop, ?_⟩
  rw [(covered_eq h hsize hfits hn).1, ← hend]
  rfl

end

theorem lt_of_mem_covered {a : Nat} (ha : a ∈ p.covered size n) : a < size :=
  List.mem_range.1 (List.mem_of_mem_filter ha)

/-! ### Means -/

theorem mean_eq (hi : i.Whole) {rows columns : List Nat} {channel : Nat}
    (hrows : ∀ n ∈ rows, n < i.height) (hcolumns : ∀ n ∈ columns, n < i.width)
    (hchannel : channel < i.channels) (hsome : rows ≠ []) (hsome' : columns ≠ []) :
    mean i rows columns channel = .ok
      ((rows.flatMap fun row => columns.map fun column => i.pixel row column channel).foldl
        (· + ·) .zero / .ofNat (rows.length * columns.length)) := by
  have harea : rows.length * columns.length ≠ 0 :=
    Nat.mul_ne_zero (mt List.length_eq_zero_iff.1 hsome) (mt List.length_eq_zero_iff.1 hsome')
  have hsum : (rows.foldlM (fun sum row =>
      columns.foldlM (fun sum column => return sum + (← i.read row column channel)) sum)
        Single.zero : Except Fault Single) = .ok
      ((rows.flatMap fun row => columns.map fun column => i.pixel row column channel).foldl
        (· + ·) .zero) := by
    rw [List.foldl_flatMap]
    refine foldlM_eq_ok fun sum row hrow => ?_
    rw [List.foldl_map]
    refine foldlM_eq_ok fun sum column hcolumn => ?_
    rw [hi.read_eq (hrows row hrow) (hcolumns column hcolumn) hchannel]
    rfl
  unfold mean
  dsimp only
  rw [if_neg harea]
  exact bind_eq_ok.2 ⟨_, hsum, rfl⟩

theorem length_windowValues (p : AvgPool) (i : Image) (y x channel : Nat) :
    (p.windowValues i y x channel).length =
      (p.covered i.height y).length * (p.covered i.width x).length := by
  simp [windowValues, List.length_flatMap]

section

variable (h : p.WellFormed) (hi : i.WellFormed) (hfits : p.Fits i.height) (hfits' : p.Fits i.width)

include h hi hfits hfits'

theorem means_eq : p.means i (p.lead i.height) (p.lead i.width) = .ok (p.picture i).values := by
  -- one turn of the innermost loop adds one average, and a loop adds what its turns add
  have hvalue : ∀ y < p.count i.height, ∀ x < p.count i.width, ∀ channel < i.channels,
      ∀ out : Array Single, (do
        let rows ← p.window i.height (p.lead i.height) (y * p.strides)
        let columns ← p.window i.width (p.lead i.width) (x * p.strides)
        return out.push (← mean i rows columns channel)) =
        .ok (out ++ [p.average i y x channel].toArray) := by
    intro y hy x hx channel hchannel out
    have hmean := mean_eq hi.whole (fun _ => lt_of_mem_covered) (fun _ => lt_of_mem_covered) hchannel
      (covered_ne_nil h hi.height hfits hy) (covered_ne_nil h hi.width hfits' hx)
    rw [← length_windowValues p i y x channel] at hmean
    refine bind_eq_ok.2 ⟨_, window_eq h hi.height hfits hy hi.height_le, ?_⟩
    refine bind_eq_ok.2 ⟨_, window_eq h hi.width hfits' hx hi.width_le, ?_⟩
    refine bind_eq_ok.2 ⟨_, hmean, ?_⟩
    rfl
  unfold means
  simp only [anchors_eq h.strides.1, List.foldlM_map]
  have hloops := foldlM_append_eq_ok #[] fun y hy out =>
    foldlM_append_eq_ok out fun x hx out =>
      foldlM_append_eq_ok out fun channel hchannel out =>
        hvalue y (List.mem_range.1 hy) x (List.mem_range.1 hx) channel (List.mem_range.1 hchannel) out
  rw [hloops]
  refine congrArg Except.ok (Array.toList_inj.1 ?_)
  simp [picture, Image.drawn, rowMajor_toList, ← List.map_eq_flatMap]

theorem picture_wellFormed : (p.picture i).WellFormed := by
  obtain ⟨hrows, hrows'⟩ := count_bounds h hi.height hfits
  obtain ⟨hcolumns, hcolumns'⟩ := count_bounds h hi.width hfits'
  have hsize : p.count i.height * p.count i.width * i.channels ≤ i.values.size := by
    rw [hi.count]
    exact Nat.mul_le_mul_right _ (Nat.mul_le_mul hrows' hcolumns')
  refine ⟨hrows, hcolumns, hi.channels, rowMajor_size, ?_⟩
  have hbytes := hi.bytes
  have hvalues : (p.picture i).values.size = _ := rowMajor_size
  omega

theorem apply_eq : p.apply i = .ok (p.picture i).tensor := by
  have hpicture := picture_wellFormed h hi hfits hfits'
  have hlarge : ¬(p.padding ≠ .same ∧ (i.height < p.kernelSize ∨ i.width < p.kernelSize)) := by
    rintro ⟨hinside, hsmall⟩
    have hle := hfits.resolve_left hinside
    have hle' := hfits'.resolve_left hinside
    omega
  have hcount : (p.picture i).values.size =
      p.count i.height * p.count i.width * i.channels := rowMajor_size
  have hbytes := hpicture.bytes
  have hproduct := Checked.product_three hpicture.height hpicture.width hpicture.channels
    (hcount ▸ by unfold Checked.sizeLimit; omega)
  have hroom := Checked.reserve_of_lt (n := p.count i.height * p.count i.width * i.channels)
    (by unfold Checked.offsetLimit; omega)
  unfold apply
  rw [if_neg hlarge]
  refine (lift_bind_eq (overhang_eq h.strides.1 hi.height) _).trans ?_
  refine (lift_bind_eq (overhang_eq h.strides.1 hi.width) _).trans ?_
  refine (lift_bind_eq (windows_eq h.strides.1 _) _).trans ?_
  refine (lift_bind_eq (windows_eq h.strides.1 _) _).trans ?_
  refine (lift_bind_eq hproduct _).trans ?_
  refine (lift_bind_eq hroom _).trans ?_
  exact lift_bind_eq (means_eq h hi hfits hfits') _

end

theorem apply_of_not_fits (h : ¬(p.Fits i.height ∧ p.Fits i.width)) :
    p.apply i = .error (.tooSmallForWindow i.width i.height p.kernelSize) := by
  have hinside : p.padding ≠ .same := fun hsame => h ⟨.inl hsame, .inl hsame⟩
  have hsmall : i.height < p.kernelSize ∨ i.width < p.kernelSize := by
    by_contra hlarge
    exact h ⟨.inr (by omega), .inr (by omega)⟩
  unfold apply
  rw [if_pos ⟨hinside, hsmall⟩]
  rfl

theorem apply_faultless (h : p.WellFormed) (hi : i.WellFormed) : Faultless (p.apply i) := by
  by_cases hfits : p.Fits i.height ∧ p.Fits i.width
  · rw [apply_eq h hi hfits.1 hfits.2]
    exact .ok _
  · rw [apply_of_not_fits hfits]
    exact .error not_false

theorem apply_oneImage (p : AvgPool) (i : Image) : Ensures (·.OneImage i) (p.apply i) := by
  refine .check fun _ => .bind fun _ _ => .bind fun _ _ => .bind fun _ _ => .bind fun _ _ => ?_
  exact .bind fun _ _ => .bind fun _ _ => .bind fun _ _ => .ok ⟨rfl, rfl⟩

theorem apply_matched (p : AvgPool) (i : Image) : Avoids KernelError.IsMismatch (p.apply i) := by
  have hlift : ∀ fault, ¬(KernelError.fault fault).IsMismatch := fun _ => not_false
  refine .check not_false fun _ => .bind (.lift hlift) fun _ _ => .bind (.lift hlift) fun _ _ => ?_
  refine .bind (.lift hlift) fun _ _ => .bind (.lift hlift) fun _ _ => ?_
  refine .bind (.lift hlift) fun _ _ => .bind (.lift hlift) fun _ _ => ?_
  exact .bind (.lift hlift) fun _ _ => .ok _

theorem apply_writable (h : p.WellFormed) (hi : i.WellFormed) :
    Ensures Tensor.Writable (p.apply i) := by
  by_cases hfits : p.Fits i.height ∧ p.Fits i.width
  · rw [apply_eq h hi hfits.1 hfits.2]
    exact .ok (picture_wellFormed h hi hfits.1 hfits.2).writable
  · rw [apply_of_not_fits hfits]
    exact .error _

end Inference.AvgPool
