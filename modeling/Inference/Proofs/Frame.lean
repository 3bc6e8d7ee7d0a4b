import Inference.Frame.Conversion
import Inference.Proofs.Dims
import Inference.Proofs.Yields
/-! Frames of the size of a tensor: their bytes can be counted, and neither conversion asks anything
impossible of the machine. -/
namespace Inference

theorem PixelFormat.bytesPerSample_bounds (f : PixelFormat) :
    0 < f.bytesPerSample ∧ f.bytesPerSample ≤ 4 := by
  cases f <;> decide

theorem PixelFormat.channels_pos (f : PixelFormat) : 0 < f.channels := by
  cases f <;> decide

instance : MayFault FrameError where
  IsFault
    | .fault _ => True
    | _ => False

/-- The operand's values as an image of the size that its dims give. -/
def Operand.picture (o : Operand) (values : Array Single) : Image :=
  ⟨o.dims.height.toNatClampNeg, o.dims.width.toNatClampNeg, o.dims.channels.toNatClampNeg,
    o.dataType, values⟩

namespace Frame

variable {f drawn : Frame} {image : Image} {format : PixelFormat} {dims : Dims}

/-- A frame of the size of a tensor and with no more channels is no longer than the tensor. -/
theorem byteCount_of_dims (hpos : dims.Positive) (hle : 4 * dims.volume ≤ 2147483647)
    (hchannels : format.channels ≤ dims.channels.toNatClampNeg) :
    ∃ n, n = dims.width.toNatClampNeg * dims.height.toNatClampNeg * format.channels *
        format.bytesPerSample ∧ n ≤ 2147483647 ∧
      byteCount dims.width.toNatClampNeg dims.height.toNatClampNeg format = .ok n := by
  obtain ⟨b, h, w, c⟩ := dims
  simp only [Dims.Positive, Dims.axes, List.forall_mem_cons] at hpos
  obtain ⟨hb, hh, hw, -⟩ := hpos
  have hsample := format.bytesPerSample_bounds
  have hvolume : (⟨b, h, w, c⟩ : Dims).volume =
      b.toNatClampNeg * (h.toNatClampNeg * (w.toNatClampNeg * c.toNatClampNeg)) := by
    simp [Dims.volume, Dims.axes]
  have hbytes : w.toNatClampNeg * h.toNatClampNeg * format.channels * format.bytesPerSample ≤
      2147483647 := by
    calc w.toNatClampNeg * h.toNatClampNeg * format.channels * format.bytesPerSample
        ≤ w.toNatClampNeg * h.toNatClampNeg * c.toNatClampNeg * 4 :=
          Nat.mul_le_mul (Nat.mul_le_mul_left _ hchannels) hsample.2
      _ ≤ b.toNatClampNeg * (w.toNatClampNeg * h.toNatClampNeg * c.toNatClampNeg * 4) :=
          Nat.le_mul_of_pos_left _ (toNatClampNeg_pos hb)
      _ = 4 * (⟨b, h, w, c⟩ : Dims).volume := by rw [hvolume]; ac_rfl
      _ ≤ 2147483647 := hle
  refine ⟨_, rfl, hbytes, ?_⟩
  have hsizes : ∀ n ∈ [w.toNatClampNeg, h.toNatClampNeg, format.channels, format.bytesPerSample],
      0 < n := by
    simp [toNatClampNeg_pos hw, toNatClampNeg_pos hh, format.channels_pos, hsample.1]
  have hprod : [w.toNatClampNeg, h.toNatClampNeg, format.channels, format.bytesPerSample].prod =
      w.toNatClampNeg * h.toNatClampNeg * format.channels * format.bytesPerSample := by
    simp [Nat.mul_assoc]
  have hlt : 2147483647 < Checked.sizeLimit := by decide
  rw [byteCount, Checked.product_of_lt hsizes (hprod ▸ Nat.lt_of_le_of_lt hbytes hlt), hprod]

/-- A frame that is as large as a tensor with batch 1 and has its channels has a byte or more for
each value of it. -/
theorem byteLength_of_dims (hbatch : dims.batch = 1) (hpos : dims.Positive)
    (hle : 4 * dims.volume ≤ 2147483647) (hwidth : f.width = dims.width.toNatClampNeg)
    (hheight : f.height = dims.height.toNatClampNeg)
    (hchannels : f.format.channels = dims.channels.toNatClampNeg) :
    ∃ n, f.byteLength = .ok n ∧ dims.volume ≤ n ∧
      n = f.width * f.height * f.format.channels * f.format.bytesPerSample := by
  obtain ⟨n, hn, -, hcount⟩ := byteCount_of_dims hpos hle (Nat.le_of_eq hchannels)
  rw [← hwidth, ← hheight] at hn hcount
  refine ⟨n, hcount, ?_, hn⟩
  have hvolume : dims.volume = f.width * f.height * f.format.channels := by
    rw [Dims.volume_of_batch hbatch, hwidth, hheight, hchannels,
      Nat.mul_comm dims.height.toNatClampNeg]
  rw [hvolume, hn]
  exact Nat.le_mul_of_pos_right _ f.format.bytesPerSample_bounds.1

theorem checkChannels_faultless (format : PixelFormat) (channels : Nat) :
    Faultless (checkChannels format channels) := by
  unfold checkChannels
  split
  · exact .ok ()
  · exact .error not_false

theorem checkChannels_eq_ok {channels : Nat} (h : checkChannels format channels = .ok ()) :
    format.channels = channels := by
  unfold checkChannels at h
  split at h
  next hchannels => exact hchannels
  next => cases h

theorem load_ok {channels needed n : Nat} (tensor : Vector Single n)
    (hchannels : f.format.channels = channels) (hcount : f.byteLength = .ok needed)
    (hdata : needed ≤ f.data.size) (hbytes : n ≤ needed) :
    ∃ loaded, f.load f.height f.width channels tensor = .ok loaded := by
  have hsize : ¬(f.width ≠ f.width ∨ f.height ≠ f.height) := by simp
  simp only [load, if_neg hsize, checkChannels, if_pos hchannels, hcount]
  cases hfloat : f.format.isFloat with
  | true => exact ⟨_, (if_neg (Nat.not_lt.2 hdata)).trans rfl⟩
  | false =>
    have hroom : ¬f.data.size < n := Nat.not_lt.2 (Nat.le_trans hbytes hdata)
    exact ⟨_, (if_neg (Nat.not_lt.2 hdata)).trans (if_neg hroom)⟩

/-- Whatever the frame is like, loading it into a tensor with batch 1 is no fault. -/
theorem load_faultless {n : Nat} (hbatch : dims.batch = 1) (hpos : dims.Positive)
    (hle : 4 * dims.volume ≤ 2147483647) (hn : n ≤ dims.volume) (tensor : Vector Single n) :
    Faultless (f.load dims.height.toNatClampNeg dims.width.toNatClampNeg
      dims.channels.toNatClampNeg tensor) := by
  refine .check not_false fun hsize => ?_
  refine (checkChannels_faultless _ _).bind fun _ hchannels => ?_
  obtain ⟨hwidth, hheight⟩ := not_or.1 hsize
  obtain ⟨needed, hcount, hneeded, -⟩ := byteLength_of_dims hbatch hpos hle (not_not.1 hwidth)
    (not_not.1 hheight) (checkChannels_eq_ok hchannels)
  refine .lift_eq hcount (.check not_false fun hdata => ?_)
  cases f.format.isFloat with
  | true => exact .ok _
  | false =>
    have hroom : ¬f.data.size < n := by omega
    simp only [if_neg hroom]
    exact .ok _

theorem draw_ok (image : Image) {n : Nat} (hchannels : f.format.channels = image.channels)
    (hcount : byteCount image.width image.height f.format = .ok n) :
    ∃ drawn, f.draw image = .ok drawn := by
  simp only [draw, checkChannels, if_pos hchannels, reshape, zero, hcount]
  cases f.format.isFloat <;> exact ⟨_, rfl⟩

/-- A drawn frame has the size of its image. -/
theorem draw_size (h : f.draw image = .ok drawn) :
    drawn.width = image.width ∧ drawn.height = image.height := by
  unfold draw reshape zero at h
  obtain ⟨_, -, h⟩ := bind_eq_ok.1 h
  cases hcount : byteCount image.width image.height f.format with
  | error e =>
    rw [hcount] at h
    cases h
  | ok n =>
    rw [hcount] at h
    cases hfloat : f.format.isFloat with
    | true =>
      simp only [hfloat, if_true] at h
      cases h
      exact ⟨rfl, rfl⟩
    | false =>
      simp only [hfloat] at h
      cases h
      exact ⟨rfl, rfl⟩

/-- Drawing the values of a tensor is no fault. -/
theorem draw_faultless {o : Operand} {values : Array Single} (hpos : o.dims.Positive)
    (hle : 4 * o.dims.volume ≤ 2147483647) : Faultless (f.draw (o.picture values)) := by
  refine (checkChannels_faultless _ _).bind fun _ hchannels => ?_
  obtain ⟨n, -, -, hcount⟩ :=
    byteCount_of_dims hpos hle (Nat.le_of_eq (checkChannels_eq_ok hchannels))
  have hblank : f.reshape (o.picture values).width (o.picture values).height =
      .ok ⟨(o.picture values).width, (o.picture values).height, f.format, .replicate n 0⟩ := by
    unfold reshape zero Operand.picture
    rw [hcount]
    rfl
  refine .lift_eq hblank ?_
  cases f.format.isFloat <;> exact .ok _

theorem store_faultless {o : Operand} {values : Array Single} (hpos : o.dims.Positive)
    (hle : 4 * o.dims.volume ≤ 2147483647) (purpose : Purpose) :
    Faultless (store (o.picture values) f purpose).1 := by
  have hdraw : Faultless (f.draw (o.picture values)) := draw_faultless hpos hle
  unfold store
  split
  · exact .error not_false
  · split
    next => exact .ok ()
    next e he => exact .error (hdraw e he)

end Frame
end Inference
