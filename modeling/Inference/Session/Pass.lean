import Inference.Session.Model
/-! One inference on the operands of a slot: fill the input, run the layers, hand over the outputs.
Each part leaves the operands as it found or made them also where it fails. -/
namespace Inference

/-- What an inference is to do: which operand to fill, which to hand over, and whether the frames'
values go through it or only their sizes. -/
structure Plan where
  input : String
  outputs : List String
  converts : Bool := true
  deriving DecidableEq

/-- The frames of a request, as long as it has them. -/
structure Frames where
  input : Option Frame := none
  output : Option Frame := none
  deriving DecidableEq

namespace Model

/-- The model input with a name, if a frame can be put into it. -/
def fillable (m : Model) (operands : Array Operand) (name : String) :
    Except Error (Nat × Operand) := do
  if m.graph.layers = [] ∨ operands = #[] then throw (.badArgument .emptyModel)
  let some index := operands.findFinIdx? (·.name == name) | throw (.badArgument (.noInput name))
  let operand := operands[index]
  if operand.kind ≠ .input then throw (.badArgument (.notInput operand.name))
  if operand.dataType ≠ .float then
    throw (.unsupported (.inputType operand.name operand.dataType))
  if operand.dims.channels ≤ 0 then
    throw (.badArgument (.noChannels operand.name operand.dims.channels))
  return (index, operand)

/-- The dims of one frame with a number of channels. -/
def frameDims (frame : Frame) (channels : Int32) : Except Error Dims := do
  if 2147483647 < frame.height then throw (.badArgument (.frameHeight frame.height))
  if 2147483647 < frame.width then throw (.badArgument (.frameWidth frame.width))
  return ⟨1, .ofNat frame.height, .ofNat frame.width, channels⟩

/-- Where the input goes and the dims that it takes there. -/
def placeInput (m : Model) (operands : Array Operand) (name : String) (frame : Option Frame) :
    Except Error (Nat × Operand × Frame × Dims) := do
  let (index, operand) ← m.fillable operands name
  let some frame := frame | throw (.inconsistent .noInputFrame)
  return (index, operand, frame, ← frameDims frame operand.dims.channels)

def fill (m : Model) (plan : Plan) (frame : Option Frame) (s : Store) :
    Except Error Unit × Store :=
  match m.placeInput s.operands plan.input frame with
  | .error e => (.error e, s)
  | .ok (index, operand, frame, dims) =>
    match operand.resize dims with
    | (.error _, operand) =>
      (.error (.lengthOverflow operand.name), s.set index operand)
    | (.ok length, operand) =>
      let (operand, ledger) := operand.allocZeroed s.ledger
      let blank := { s.set index operand with ledger }
      if plan.converts then
        match m.processor.load frame frame.height frame.width operand.dims.channels.toNatClampNeg
          operand.dataType (Vector.replicate (length / 4) Single.zero) with
        | .error e => (.error (.frame e), blank)
        | .ok tensor =>
          (.ok (), blank.set index { operand with data := some tensor.toArray })
      else (.ok (), blank)

/-- Runs layers in order up to the first that fails. -/
def runLayers (layers : List Layer) (s : Store) (index : Nat := 0) : Except Error Unit × Store :=
  match layers with
  | [] => (.ok (), s)
  | layer :: layers =>
    match layer.exec s with
    | (.ok _, s) => runLayers layers s (index + 1)
    | (.error e, s) => (.error (.layer index layer.kind e), s)

/-- The frame that the outputs of a model go to. -/
def resultFrame (m : Model) (frames : Frames) : Option Frame :=
  match m.purpose with
  | .process => frames.output
  | .detect | .classify => frames.input

def withResultFrame (m : Model) (frames : Frames) (frame : Frame) : Frames :=
  match m.purpose with
  | .process => { frames with output := some frame }
  | .detect | .classify => { frames with input := some frame }

/-- Hands one output over. -/
def deliver (m : Model) (plan : Plan) (operands : Array Operand) (name : String) (frames : Frames) :
    Except Error Unit × Frames :=
  match operands.find? (·.name == name) with
  | none => (.error (.inconsistent (.noOutput name)), frames)
  | some operand =>
    let shape := Shape.ofDims operand.dims
    if plan.converts then
      match operand.values with
      | .error e => (.error (.inconsistent (.emptyOutput e)), frames)
      | .ok values =>
        match m.resultFrame frames with
        | none => (.error (.inconsistent .noFrameToFill), frames)
        | some frame =>
          let image : Image :=
            ⟨shape.height, shape.width, shape.channels, operand.dataType, values⟩
          let (result, frame) := m.processor.store image frame m.purpose
          (result.mapError .frame, m.withResultFrame frames frame)
    else
      match frames.output with
      | none => (.error (.inconsistent .noOutputFrame), frames)
      | some frame =>
        let sized := { frame with width := shape.width, height := shape.height }
        (.ok (), { frames with output := some sized })

/-- Hands the outputs over in order up to the first that fails. -/
def deliverAll (m : Model) (plan : Plan) (operands : Array Operand) :
    List String → Frames → Except Error Unit × Frames
  | [], frames => (.ok (), frames)
  | name :: names, frames =>
    match m.deliver plan operands name frames with
    | (.ok _, frames) => deliverAll m plan operands names frames
    | (.error e, frames) => (.error e, frames)

/-- The part of an inference after its input is filled. -/
def infer (m : Model) (plan : Plan) (frames : Frames) (s : Store) :
    Except Error Unit × Frames × Store :=
  match runLayers m.graph.layers s with
  | (.error e, s) => (.error e, frames, s)
  | (.ok _, s) =>
    let (result, frames) := m.deliverAll plan s.operands plan.outputs frames
    (result, frames, s)

end Model
end Inference
