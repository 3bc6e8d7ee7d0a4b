import Inference.Proofs.Kernel.Conv2d
/-! Convolution without padding: its windows stay inside the image if the kernel size is odd. The
window of an even kernel size has one tap more before its center than the border is wide, which is
beyond the image near the first row and near the first column. -/
namespace Inference.Conv2d

/-- How many taps of a window are beyond the image. -/
def missing (p : Conv2d) (n : Nat) : Nat :=
  if p.kernelSize % 2 = 0 ∧ n < p.dilation then 1 else 0

/-- The taps that are inside the image. -/
def taps (p : Conv2d) (n : Nat) : List Nat :=
  List.range' (p.missing n) (p.kernelSize - p.missing n)

/-- The position that a tap inside the image reads. -/
def reach (p : Conv2d) (n k : Nat) : Nat :=
  if p.kernelSize % 2 = 0 then n + k * p.dilation - p.dilation else n + k * p.dilation

/-- One product for each tap inside the image and each channel. -/
def windowProducts (p : Conv2d) (i : Image) (y x filter : Nat) : List Single :=
  (p.taps y).flatMap fun ky => (p.taps x).flatMap fun kx =>
    (List.range p.inputNum).map fun channel =>
      i.pixel (p.reach y ky) (p.reach x kx) channel * p.weight filter ky kx channel

variable {p : Conv2d} {i : Image} {size n k : Nat}

theorem mem_taps : k ∈ p.taps n ↔ p.missing n ≤ k ∧ k < p.kernelSize := by
  unfold taps
  rw [List.mem_range'_1]
  omega

theorem missing_le (p : Conv2d) (n : Nat) : p.missing n ≤ 1 := by
  unfold missing
  split <;> decide

section

variable (hvalid : p.padding = .valid)

include hvalid

theorem border_of_valid : p.border = (p.kernelSize - 1) / 2 * p.dilation := if_pos hvalid

theorem place_of_odd (hodd : p.kernelSize % 2 = 1) (n k : Nat) :
    p.place n k = (n + k * p.dilation : Nat) := by
  have hhalf : (p.kernelSize - 1) / 2 = p.kernelSize / 2 := by omega
  rw [place, border_of_valid hvalid, hhalf, Int.sub_mul]
  push_cast
  omega

theorem place_of_even (heven : p.kernelSize % 2 = 0) (hpos : 0 < p.kernelSize) (n k : Nat) :
    p.place n k = (n + k * p.dilation : Nat) - p.dilation := by
  have hhalf : p.kernelSize / 2 = (p.kernelSize - 1) / 2 + 1 := by omega
  rw [place, border_of_valid hvalid, hhalf, Int.sub_mul]
  push_cast
  rw [Int.add_mul]
  omega

theorem span_of_odd (hodd : p.kernelSize % 2 = 1) (hk : k < p.kernelSize) :
    k * p.dilation ≤ p.border * 2 := by
  calc k * p.dilation ≤ (p.kernelSize - 1) / 2 * 2 * p.dilation :=
        Nat.mul_le_mul_right _ (by omega)
    _ = p.border * 2 := by rw [border_of_valid hvalid]; ac_rfl

theorem span_of_even (heven : p.kernelSize % 2 = 0) (hk : k < p.kernelSize) :
    k * p.dilation ≤ p.border * 2 + p.dilation := by
  calc k * p.dilation ≤ ((p.kernelSize - 1) / 2 * 2 + 1) * p.dilation :=
        Nat.mul_le_mul_right _ (by omega)
    _ = p.border * 2 + p.dilation := by rw [border_of_valid hvalid, Nat.succ_mul]; ac_rfl

/-- A tap that is not missing is at its position, which is inside the image. -/
theorem place_of_mem_taps (hn : n < size - p.border * 2) (hk : k ∈ p.taps n) :
    p.place n k = p.reach n k ∧ p.reach n k < size := by
  obtain ⟨hmissing, hk⟩ := mem_taps.1 hk
  unfold reach
  rcases Nat.mod_two_eq_zero_or_one p.kernelSize with heven | hodd
  · have hspan := span_of_even hvalid heven hk
    have hinside : p.dilation ≤ n + k * p.dilation := by
      by_cases hfar : p.dilation ≤ n
      · omega
      · -- so near the edge the first tap is the missing one
        have hfirst : 1 ≤ k := by
          unfold missing at hmissing
          rwa [if_pos ⟨heven, Nat.lt_of_not_le hfar⟩] at hmissing
        exact Nat.le_add_left_of_le (Nat.le_mul_of_pos_left _ hfirst)
    rw [place_of_even hvalid heven (Nat.zero_lt_of_lt hk), if_pos heven]
    omega
  · have hspan := span_of_odd hvalid hodd hk
    rw [place_of_odd hvalid hodd, if_neg (by omega)]
    omega

theorem seen?_of_mem_taps (hn : n < size - p.border * 2) (hk : k ∈ p.taps n) :
    p.seen? size (p.place n k) = some (p.reach n k) := by
  obtain ⟨hplace, hlt⟩ := place_of_mem_taps hvalid hn hk
  rw [seen?, hplace, if_pos (by omega), Int.toNat_natCast]

/-- A missing tap is before the image. -/
theorem seen?_of_missing (hpos : 0 < p.kernelSize) (hk : k < p.missing n) :
    p.seen? size (p.place n k) = none := by
  unfold missing at hk
  split at hk
  next hnear =>
    obtain ⟨heven, hn⟩ := hnear
    obtain rfl := Nat.lt_one_iff.1 hk
    rw [seen?, place_of_even hvalid heven hpos, if_neg (by omega), if_neg (by simp [hvalid])]
  next => exact absurd hk (Nat.not_lt_zero k)

/-- The places of a window can be computed, as a dilation beyond the border is that of a kernel with
one or two taps in a row. -/
theorem sees_of_valid (hdilation : 0 < p.dilation)
    (heven : p.kernelSize % 2 = 0 → p.dilation < Checked.offsetLimit) (hsize : IsSize size)
    (hn : n < size - p.border * 2) : p.Sees size n := by
  intro k hk
  have hlt := hsize.2
  have hplace : p.place n k = (n + p.border : Nat) +
      ((k : Int) - (p.kernelSize / 2 : Nat)) * p.dilation := rfl
  have hlimit : Checked.offsetLimit = 9223372036854775808 := rfl
  have hwide : (p.kernelSize ≤ 2 ∧ p.border = 0) ∨ p.dilation ≤ p.border := by
    rw [border_of_valid hvalid]
    rcases Nat.eq_zero_or_pos ((p.kernelSize - 1) / 2) with hzero | hpos
    · exact .inl ⟨by omega, by rw [hzero, Nat.zero_mul]⟩
    · exact .inr (Nat.le_mul_of_pos_left _ hpos)
  rcases Nat.mod_two_eq_zero_or_one p.kernelSize with h | hodd
  · have hspan := span_of_even hvalid h hk
    have hshort := heven h
    rw [place_of_even hvalid h (Nat.zero_lt_of_lt hk)] at hplace
    refine tap_eq hsize.1 (by rw [Checked.signed_of_lt hshort]) ?_ ?_
    · omega
    · rw [place_of_even hvalid h (Nat.zero_lt_of_lt hk)]
      omega
  · have hspan := span_of_odd hvalid hodd hk
    rw [place_of_odd hvalid hodd] at hplace
    refine tap_eq hsize.1 ?_ ?_ ?_
    · rcases hwide with ⟨hone, -⟩ | hlarge
      · obtain ⟨hone, rfl⟩ : p.kernelSize = 1 ∧ k = 0 := by omega
        simp [hone]
      · rw [Checked.signed_of_lt (by omega)]
    · omega
    · rw [place_of_odd hvalid hodd]
      omega

/-- Missing taps add nothing. -/
theorem flatMap_seen? {α : Type} {f : Nat → Option Nat → List α} (hf : ∀ k, f k none = [])
    (hpos : 0 < p.kernelSize) (hn : n < size - p.border * 2) :
    ((List.range p.kernelSize).flatMap fun k => f k (p.seen? size (p.place n k))) =
      (p.taps n).flatMap fun k => f k (some (p.reach n k)) := by
  have hmissing := p.missing_le n
  have hsplit : List.range p.kernelSize = List.range' 0 (p.missing n) ++ p.taps n := by
    have happend := List.range'_append_1 (s := 0) (m := p.missing n)
      (n := p.kernelSize - p.missing n)
    rw [Nat.zero_add, Nat.add_sub_cancel' (by omega)] at happend
    rw [taps, happend, List.range_eq_range']
  have hnone : ((List.range' 0 (p.missing n)).flatMap fun k =>
      f k (p.seen? size (p.place n k))) = [] := by
    refine List.flatMap_eq_nil_iff.2 fun k hk => ?_
    have hk := (List.mem_range'_1.1 hk).2
    rw [seen?_of_missing hvalid hpos (by omega), hf]
  rw [hsplit, List.flatMap_append, hnone, List.nil_append]
  exact List.flatMap_congr fun k hk => by rw [seen?_of_mem_taps hvalid hn hk]

theorem products_of_valid (hpos : 0 < p.kernelSize) {y x : Nat} (hy : y < p.rows i)
    (hx : x < p.columns i) (filter : Nat) :
    p.products i y x filter = p.windowProducts i y x filter := by
  have hnone : ∀ ky, ((List.range p.kernelSize).flatMap fun kx =>
      p.tapProducts i filter ky kx none (p.seen? i.width (p.place x kx))) = [] :=
    fun ky => List.flatMap_eq_nil_iff.2 fun _ _ => rfl
  have hrows := flatMap_seen? hvalid (f := fun ky row => (List.range p.kernelSize).flatMap fun kx =>
    p.tapProducts i filter ky kx row (p.seen? i.width (p.place x kx))) hnone hpos hy
  refine hrows.trans (List.flatMap_congr fun ky _ => ?_)
  exact flatMap_seen? hvalid (f := fun kx => p.tapProducts i filter ky kx (some (p.reach y ky)))
    (fun _ => rfl) hpos hx

end

theorem length_windowProducts (p : Conv2d) (i : Image) (y x filter : Nat) :
    (p.windowProducts i y x filter).length =
      (p.kernelSize - p.missing y) * (p.kernelSize - p.missing x) * p.inputNum := by
  simp [windowProducts, taps, List.length_flatMap, Nat.mul_assoc]

/-- The taps of an output position read inside the image, but for those that are missing. -/
structure Inside (p : Conv2d) (size n : Nat) : Prop where
  tap : ∀ k < p.kernelSize,
    p.tap size (n + p.border) k = .ok (if k ∈ p.taps n then some (p.reach n k) else none)
  reach : ∀ k ∈ p.taps n, p.reach n k < size

theorem inside_of_valid (hvalid : p.padding = .valid) (hdilation : 0 < p.dilation)
    (heven : p.kernelSize % 2 = 0 → p.dilation < Checked.offsetLimit) (hsize : IsSize size)
    (hn : n < size - p.border * 2) : p.Inside size n := by
  refine ⟨fun k hk => ?_, fun k hk => (place_of_mem_taps hvalid hn hk).2⟩
  rw [sees_of_valid hvalid hdilation heven hsize hn k hk]
  by_cases hmem : k ∈ p.taps n
  · rw [seen?_of_mem_taps hvalid hn hmem, if_pos hmem]
  · have hmissing : k < p.missing n := by
      rw [mem_taps] at hmem
      omega
    rw [seen?_of_missing hvalid (Nat.zero_lt_of_lt hk) hmissing, if_neg hmem]

/-- Without padding an output value is the sum over the taps that are inside the image. These are all
taps of a window if the kernel size is odd. -/
theorem valid_reads_inside (hp : p.Shaped) (hvalid : p.padding = .valid) (hdilation : 0 < p.dilation)
    (heven : p.kernelSize % 2 = 0 → p.dilation < Checked.offsetLimit) (hi : i.Whole) {t : Tensor}
    (h : p.apply i = .ok t) :
    t.shape = ⟨1, p.rows i, p.columns i, p.outputNum⟩ ∧
    ∀ y < p.rows i, ∀ x < p.columns i, ∀ filter < p.outputNum,
      p.Inside i.height y ∧ p.Inside i.width x ∧
      t.values[(y * p.columns i + x) * p.outputNum + filter]? = some (p.activation.apply
        ((p.windowProducts i y x filter).foldl (· + ·) (p.bias filter))) ∧
      (p.windowProducts i y x filter).length =
        (p.kernelSize - p.missing y) * (p.kernelSize - p.missing x) * p.inputNum ∧
      (p.kernelSize % 2 = 1 → (p.windowProducts i y x filter).length =
        p.kernelSize * p.kernelSize * p.inputNum) := by
  obtain ⟨hchannels, hlarge, hshape, hout, hrows⟩ := apply_eq_ok h
  refine ⟨hshape, fun y hy x hx filter hfilter => ?_⟩
  have hsee : (∀ y < p.rows i, p.Sees i.height y) ∧ ∀ x < p.columns i, p.Sees i.width x :=
    ⟨fun _ => sees_of_valid hvalid hdilation heven hi.height,
      fun _ => sees_of_valid hvalid hdilation heven hi.width⟩
  have hvalues := placeRows_eq_ok hp hi hchannels hout (Nat.zero_lt_of_lt hx) hsee (.refl _) hrows
  refine ⟨inside_of_valid hvalid hdilation heven hi.height hy,
    inside_of_valid hvalid hdilation heven hi.width hx, ?_, p.length_windowProducts i y x filter, ?_⟩
  · rw [hvalues, result_value hx hfilter hy, output, products_of_valid hvalid hp.kernelSize hy hx]
  · intro hodd
    have hmissing : ∀ n, p.missing n = 0 := fun n => if_neg (by omega)
    rw [length_windowProducts, hmissing, hmissing, Nat.sub_zero]

/-- Sums over two by two pixels. -/
def pairSum : Conv2d where
  inputNum := 1
  outputNum := 1
  kernelSize := 2
  dilation := 1
  padding := .valid
  activation := .linear
  kernel := .replicate 4 ⟨0x3f800000⟩
  biases := none

/-- Two rows of two pixels. -/
def quad : Image := ⟨2, 2, 1, .float, .replicate 4 ⟨0x3f800000⟩⟩

theorem quad_whole : quad.Whole :=
  ⟨⟨by decide, by decide⟩, ⟨by decide, by decide⟩, ⟨by decide, by decide⟩, rfl⟩

theorem pairSum_wellFormed : pairSum.WellFormed :=
  ⟨⟨by decide, by decide⟩, ⟨by decide, by decide⟩, ⟨by decide, by decide⟩, ⟨by decide, by decide⟩,
    rfl, nofun⟩

theorem pairSum_apply : pairSum.apply quad = .ok (pairSum.result quad) :=
  apply_eq pairSum_wellFormed List.range (by decide) quad_whole (by decide) rfl (by decide) (.refl _)
    (by decide)

theorem pairSum_reads : ∃ t, pairSum.apply quad = .ok t ∧ t.shape = ⟨1, 2, 2, 1⟩ ∧
    pairSum.Inside 2 0 ∧ pairSum.Inside 2 1 ∧
    (pairSum.windowProducts quad 0 0 0).length = 1 ∧
    (pairSum.windowProducts quad 1 1 0).length = 4 := by
  obtain ⟨hshape, hread⟩ := valid_reads_inside pairSum_wellFormed.shaped rfl (by decide)
    (fun _ => by decide) quad_whole pairSum_apply
  obtain ⟨hfirst, -, -, hone, -⟩ := hread 0 (by decide) 0 (by decide) 0 (by decide)
  obtain ⟨hsecond, -, -, hfour, -⟩ := hread 1 (by decide) 1 (by decide) 0 (by decide)
  exact ⟨_, pairSum_apply, hshape, hfirst, hsecond, hone, hfour⟩

/-- With an even kernel size an image is accepted of which a window sees one pixel alone. -/
theorem pairSum_skips_taps : (∃ t, pairSum.apply quad = .ok t) ∧
    pairSum.padding = .valid ∧ pairSum.tap quad.height (0 + pairSum.border) 0 = .ok none ∧
    (pairSum.products quad 0 0 0).length ≠
      pairSum.kernelSize * pairSum.kernelSize * pairSum.inputNum :=
  ⟨⟨_, pairSum_apply⟩, rfl, rfl, by decide⟩

end Inference.Conv2d
