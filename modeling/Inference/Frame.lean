import Inference.Checked
import Inference.Single
/-! Packed images: rows of pixels with no gap between them, a byte or a little-endian
single-precision value for each sample. -/
namespace Inference

inductive PixelFormat where
  | gray8
  | grayF32
  | rgb24
  | rgbF32
  deriving DecidableEq, Repr

namespace PixelFormat

def channels : PixelFormat → Nat
  | .gray8 | .grayF32 => 1
  | .rgb24 | .rgbF32 => 3

def bytesPerSample : PixelFormat → Nat
  | .gray8 | .rgb24 => 1
  | .grayF32 | .rgbF32 => 4

def isFloat (f : PixelFormat) : Bool := f.bytesPerSample == 4

def label : PixelFormat → String
  | .gray8 => "gray8"
  | .grayF32 => "grayf32"
  | .rgb24 => "rgb24"
  | .rgbF32 => "rgbf32"

end PixelFormat

/-- The data need not have the length that the geometry asks for. -/
structure Frame where
  width : Nat
  height : Nat
  format : PixelFormat
  data : Array UInt8
  deriving DecidableEq

namespace Frame

/-- The bytes of a gapless image, if a 64-bit size can hold their number. -/
def byteCount (width height : Nat) (format : PixelFormat) : Except Fault Nat :=
  Checked.product [width, height, format.channels, format.bytesPerSample]

def zero (width height : Nat) (format : PixelFormat) : Except Fault Frame := do
  return ⟨width, height, format, .replicate (← byteCount width height format) 0⟩

def byteLength (f : Frame) : Except Fault Nat := byteCount f.width f.height f.format

def packSamples (samples : Array Single) : Array UInt8 :=
  samples.flatMap fun x => (LittleEndian.encode x.bits).toArray

def ofSamples (width height : Nat) (format : PixelFormat) (samples : Array Single) : Frame :=
  ⟨width, height, format, packSamples samples⟩

/-- The data as single-precision values, whatever the format. -/
def samples (f : Frame) : Array Single := (LittleEndian.decodeAll f.data.toList).map Single.mk

def reshape (f : Frame) (width height : Nat) : Except Fault Frame := zero width height f.format

end Frame
end Inference
