import Inference.Frame
import Inference.Operand
/-! Frames to tensors and back. -/
namespace Inference

/-- What the output of a model is for. -/
inductive Purpose where
  | process
  | detect
  | classify
  deriving DecidableEq, Repr

def Purpose.name : Purpose → String
  | .process => "Process"
  | .detect => "AnalyticsDetect"
  | .classify => "AnalyticsClassify"

inductive FrameError where
  | wrongSize (frameWidth frameHeight width height : Nat)
  | wrongChannels (format : PixelFormat) (channels : Nat)
  | tooShort (format : PixelFormat) (held width height needed : Nat)
  | noConversion (purpose : Purpose)
  | fault (fault : Fault)
  deriving DecidableEq

namespace FrameError

def message : FrameError → String
  | .wrongSize frameWidth frameHeight width height =>
    s!"frame is {frameWidth}x{frameHeight}, input tensor is {width}x{height}"
  | .wrongChannels format channels =>
    s!"{format.label} has {format.channels} channels, tensor has {channels}"
  | .tooShort format held width height needed =>
    s!"{format.label} frame holds {held} bytes, {width}x{height} needs {needed}"
  | .noConversion purpose => s!"no default post-processing for {purpose.name}"
  | .fault _ => "arithmetic fault"

instance : MonadLift (Except Fault) (Except FrameError) := ⟨Except.mapError .fault⟩

end FrameError

/-- The values of a tensor with batch 1. -/
structure Image where
  height : Nat
  width : Nat
  channels : Nat
  dataType : DataType
  values : Array Single

/-- The two conversions between frames and tensors. Loading is given the tensor to fill and keeps
its size; storing may leave a changed frame behind also where it fails. -/
structure FrameProcessor where
  load : Frame → (height width channels : Nat) → DataType → {n : Nat} → Vector Single n →
    Except FrameError (Vector Single n)
  store : Image → Frame → Purpose → Except FrameError Unit × Frame

namespace Frame

def checkChannels (format : PixelFormat) (channels : Nat) : Except FrameError Unit :=
  if format.channels = channels then .ok () else .error (.wrongChannels format channels)

/-- The first samples of the frame take the places of the tensor's values; bytes become shares of
255. -/
def load (f : Frame) (height width channels : Nat) {n : Nat} (tensor : Vector Single n) :
    Except FrameError (Vector Single n) := do
  if f.width ≠ width ∨ f.height ≠ height then
    throw (.wrongSize f.width f.height width height)
  checkChannels f.format channels
  let needed ← f.byteLength
  if f.data.size < needed then
    throw (.tooShort f.format f.data.size f.width f.height needed)
  if f.format.isFloat then
    let samples := f.samples
    return .ofFn fun i => samples[i.val]?.getD tensor[i]
  else if f.data.size < n then
    throw (.fault .outOfBounds)
  else
    return .ofFn fun i => (f.data[i.val]?.map Single.ofByte).getD tensor[i]

/-- A float frame takes the values as they are, whatever their number; a byte frame takes as many as
its new geometry has room for. -/
def draw (f : Frame) (image : Image) : Except FrameError Frame := do
  checkChannels f.format image.channels
  let blank ← f.reshape image.width image.height
  if f.format.isFloat then
    return { blank with data := packSamples image.values }
  else
    return { blank with data := blank.data.mapIdx fun i zero =>
      (image.values[i]?.map Single.toByte).getD zero }

/-- The plain conversion of an output, which serves processing only. -/
def store (image : Image) (f : Frame) (purpose : Purpose) : Except FrameError Unit × Frame :=
  if purpose ≠ .process then (.error (.noConversion purpose), f)
  else match f.draw image with
    | .ok drawn => (.ok (), drawn)
    | .error e => (.error e, f)

end Frame

def FrameProcessor.plain : FrameProcessor where
  load f height width channels _ _ tensor := f.load height width channels tensor
  store := Frame.store

end Inference
