import Inference.Proofs.Frame
import Inference.Proofs.Kernel.Tensor
/-! The way of a frame into a tensor and back: what is drawn from the values that a frame was loaded
into is the frame again, without the bytes beyond its size. -/
namespace Inference

namespace Frame

variable {f blank : Frame} {n channels : Nat}

/-- The values that the first samples of the frame stand for. -/
def values (f : Frame) (n : Nat) : Array Single :=
  if f.format.isFloat then f.samples.extract 0 n else (f.data.extract 0 n).map Single.ofByte

/-- The bytes of an image of the frame's size. -/
def size (f : Frame) : Nat := f.width * f.height * f.format.channels * f.format.bytesPerSample

/-- The frame without the bytes beyond its size. -/
def trimmed (f : Frame) : Frame := { f with data := f.data.extract 0 f.size }

theorem bytesPerSample_of_isFloat (h : f.format.isFloat = true) : f.format.bytesPerSample = 4 := by
  simpa [PixelFormat.isFloat] using h

theorem bytesPerSample_of_not_isFloat (h : f.format.isFloat = false) :
    f.format.bytesPerSample = 1 := by
  cases hformat : f.format <;> rw [hformat] at h <;> first | rfl | cases h

/-- A blank takes on bytes that are as many. -/
theorem mapIdx_replicate (bytes : Array UInt8) (h : bytes.size = n) :
    (Array.replicate n 0).mapIdx (fun i zero => bytes[i]?.getD zero) = bytes := by
  subst h
  exact Array.ext (by simp) fun i _ hi => by simp [hi]

/-- In a byte format a value comes back as the byte that it was, if its share of 255 is rounded
back to it. -/
theorem toByte_values (hfloat : f.format.isFloat = false)
    (hround : ∀ b, (Single.ofByte b).toByte = b) :
    (f.values n).map Single.toByte = f.data.extract 0 n := by
  have hcomp : Single.toByte ∘ Single.ofByte = id := funext hround
  have hvalues : f.values n = (f.data.extract 0 n).map Single.ofByte := by simp [values, hfloat]
  rw [hvalues, Array.map_map, hcomp, Array.map_id]

section

variable (hdata : n * f.format.bytesPerSample ≤ f.data.size)

include hdata

theorem whole_samples (hfloat : f.format.isFloat = true) : n ≤ f.samples.size ∧
    packSamples (f.samples.extract 0 n) = f.data.extract 0 (n * f.format.bytesPerSample) := by
  rw [bytesPerSample_of_isFloat hfloat] at hdata ⊢
  obtain ⟨hcount, hbytes⟩ := LittleEndian.encode_take_decodeAll f.data.toList hdata
  refine ⟨by simpa [samples] using hcount, Array.toList_inj.1 ?_⟩
  simpa [packSamples, samples, ← List.map_take, List.flatMap_map] using hbytes

/-- Loading takes a value from the frame for every place of the tensor. -/
theorem load_eq_values (tensor : Vector Single n) (hchannels : f.format.channels = channels)
    (hcount : f.byteLength = .ok (n * f.format.bytesPerSample)) :
    ∃ loaded, f.load f.height f.width channels tensor = .ok loaded ∧
      loaded.toArray = f.values n := by
  have hsize : ¬(f.width ≠ f.width ∨ f.height ≠ f.height) := by simp
  simp only [load, if_neg hsize, checkChannels, if_pos hchannels, hcount]
  cases hfloat : f.format.isFloat with
  | true =>
    obtain ⟨hsamples, -⟩ := whole_samples hdata hfloat
    refine ⟨_, (if_neg (Nat.not_lt.2 hdata)).trans rfl, ?_⟩
    simp only [values, hfloat, if_true]
    refine Array.ext (by simp [hsamples]) fun i hi _ => ?_
    have hlt : i < f.samples.size := Nat.lt_of_lt_of_le (by simpa using hi) hsamples
    simp [Array.getElem?_eq_getElem hlt]
  | false =>
    have hroom : n ≤ f.data.size := by simpa [bytesPerSample_of_not_isFloat hfloat] using hdata
    refine ⟨_, (if_neg (Nat.not_lt.2 hdata)).trans (if_neg (Nat.not_lt.2 hroom)), ?_⟩
    simp only [values, hfloat]
    refine Array.ext (by simp [hroom]) fun i hi _ => ?_
    have hlt : i < f.data.size := Nat.lt_of_lt_of_le (by simpa using hi) hroom
    simp [Array.getElem?_eq_getElem hlt]

theorem values_size : (f.values n).size = n := by
  unfold values
  cases hfloat : f.format.isFloat with
  | true => simp [(whole_samples hdata hfloat).1]
  | false =>
    rw [bytesPerSample_of_not_isFloat hfloat, Nat.mul_one] at hdata
    simp [hdata]

/-- Another frame of the format takes the bytes back: in a float format bit for bit, in a byte format
where the share of 255 that a byte stands for is rounded back to the byte. -/
theorem draw_values (image : Image) (hformat : blank.format = f.format)
    (hchannels : f.format.channels = image.channels) (hvalues : image.values = f.values n)
    (hcount : byteCount image.width image.height f.format = .ok (n * f.format.bytesPerSample))
    (hround : f.format.isFloat = false → ∀ b, (Single.ofByte b).toByte = b) :
    blank.draw image = .ok ⟨image.width, image.height, f.format,
      f.data.extract 0 (n * f.format.bytesPerSample)⟩ := by
  simp only [draw, checkChannels, hformat, if_pos hchannels, reshape, zero, hcount]
  cases hfloat : f.format.isFloat with
  | true =>
    obtain ⟨-, hpacked⟩ := whole_samples hdata hfloat
    rw [← hpacked, hvalues]
    simp only [values, hfloat, if_true]
    rfl
  | false =>
    have hbyte : n * f.format.bytesPerSample = n := by
      rw [bytesPerSample_of_not_isFloat hfloat, Nat.mul_one]
    rw [hbyte] at hdata ⊢
    have hbytes := mapIdx_replicate (n := n) (f.data.extract 0 n) (by simp [hdata])
    simp only [← Array.getElem?_map, hvalues, toByte_values hfloat (hround hfloat)]
    exact congrArg (Except.ok <| Frame.mk image.width image.height f.format ·) hbytes

end

/-- The image that the frame is loaded as. -/
def image (f : Frame) : Image :=
  ⟨f.height, f.width, f.format.channels, .float, f.values (f.height * f.width * f.format.channels)⟩

/-- The frame has at least the bytes of its size, and a tensor can hold its image. -/
structure Loadable (f : Frame) : Prop where
  height : 0 < f.height
  width : 0 < f.width
  tensor : 4 * (f.height * f.width * f.format.channels) ≤ 2147483647
  data : f.size ≤ f.data.size

namespace Loadable

variable (h : f.Loadable)

theorem size_eq (f : Frame) :
    f.size = f.height * f.width * f.format.channels * f.format.bytesPerSample := by
  rw [size, Nat.mul_comm f.width]

include h

theorem image_wellFormed : f.image.WellFormed := by
  have hsize : f.image.values.size = f.height * f.width * f.format.channels :=
    values_size (size_eq f ▸ h.data)
  exact ⟨h.height, h.width, f.format.channels_pos, hsize, hsize ▸ h.tensor⟩

theorem byteLength : f.byteLength = .ok f.size := by
  have hi := h.image_wellFormed.whole
  have hlength := h.image_wellFormed.writable.length
  obtain ⟨hpos, hle, -⟩ := Dims.byteLength?_eq_some.1 hlength
  obtain ⟨n, hcount, -, hn⟩ := byteLength_of_dims (f := f) rfl hpos hle
    (Shape.axis_eq hi.width).symm (Shape.axis_eq hi.height).symm (Shape.axis_eq hi.channels).symm
  rw [hcount, hn]
  rfl

theorem load {n : Nat} (tensor : Vector Single n)
    (hn : n = f.height * f.width * f.format.channels) :
    ∃ loaded, f.load f.height f.width f.format.channels tensor = .ok loaded ∧
      loaded.toArray = f.image.values := by
  subst hn
  exact load_eq_values (size_eq f ▸ h.data) tensor rfl (size_eq f ▸ h.byteLength)

/-- Drawn into a frame of the same format, the image is the frame again. -/
theorem draw (hformat : blank.format = f.format)
    (hround : f.format.isFloat = false → ∀ b, (Single.ofByte b).toByte = b) :
    blank.draw f.image = .ok f.trimmed := by
  have hdrawn := draw_values (size_eq f ▸ h.data) f.image hformat rfl rfl
    (size_eq f ▸ h.byteLength) hround
  rwa [← size_eq] at hdrawn

end Loadable
end Frame
end Inference
