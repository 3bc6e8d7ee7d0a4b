import Inference.Error
/-! A loaded model: what does not change while requests are served. -/
namespace Inference

structure Model where
  graph : Graph
  purpose : Purpose
  options : Options
  processor : FrameProcessor
  /-- How many requests can be in work at a time. -/
  slots : Nat

namespace Model

def ofGraph (graph : Graph) (purpose : Purpose) (options : Options) (processor : FrameProcessor)
    (hardwareThreads : Nat) : Model :=
  ⟨graph, purpose, options, processor, options.slotCount hardwareThreads⟩

/-- Whatever is chosen, a loaded model has room for a request. -/
theorem ofGraph_slots_pos (graph : Graph) (purpose : Purpose) (options : Options)
    (processor : FrameProcessor) (hardwareThreads : Nat) :
    0 < (ofGraph graph purpose options processor hardwareThreads).slots :=
  options.slotCount_pos hardwareThreads

def ofBytes (file : List UInt8) (purpose : Purpose) (options : Options) (processor : FrameProcessor)
    (hardwareThreads : Nat) : Except Error Model :=
  match ModelFile.parse file with
  | .ok graph => .ok (ofGraph graph purpose options processor hardwareThreads)
  | .error e => .error (.ofLoad e)

/-- The number and type of a model input's values, as the file gives them. -/
structure InputInfo where
  dataType : DataType
  height : Int32
  width : Int32
  channels : Int32
  deriving DecidableEq

def inputInfo (m : Model) (name : String) : Except Error InputInfo :=
  match m.graph.operands.find? (·.name == name) with
  | none => .error (.badArgument (.noInput name))
  | some operand =>
    if operand.kind = .input then
      .ok ⟨operand.dataType, operand.dims.height, operand.dims.width, operand.dims.channels⟩
    else .error (.badArgument (.notInput name))

end Model
end Inference
