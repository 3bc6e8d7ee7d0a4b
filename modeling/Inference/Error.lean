import Inference.Frame.Conversion
import Inference.ModelFile
import Inference.Options
/-! What can go wrong with a model, and the words for it. -/
namespace Inference

inductive UnsupportedFeature where
  | outputs (count : Nat)
  | inputType (operand : String) (dataType : DataType)
  deriving DecidableEq

def UnsupportedFeature.message : UnsupportedFeature → String
  | .outputs count => s!"{count} outputs requested, only one output per request is supported"
  | .inputType operand dataType =>
    s!"input operand \"{operand}\" has data type {dataType.label}, only float is supported"

inductive BadArgument where
  | emptyModel
  | noInput (name : String)
  | notInput (name : String)
  | noChannels (name : String) (channels : Int32)
  | frameHeight (height : Nat)
  | frameWidth (width : Nat)
  | noOutput
  | noOutputFrame
  deriving DecidableEq

def BadArgument.message : BadArgument → String
  | .emptyModel => "model has no layers or operands"
  | .noInput name => s!"could not find input operand \"{name}\""
  | .notInput name => s!"operand \"{name}\" is not a model input"
  | .noChannels name channels => s!"input operand \"{name}\" has {channels} channels"
  | .frameHeight height => s!"frame height {height} too large"
  | .frameWidth width => s!"frame width {width} too large"
  | .noOutput => "no output requested"
  | .noOutputFrame => "an output frame is required for processing models"

inductive Inconsistency where
  | nothingWaiting
  | unboundSlot
  | noInputFrame
  | noOutputFrame
  | noFrameToFill
  | unfinished (done todo : Nat)
  | lostInputFrame
  | lostProbeFrame
  | noOutput (name : String)
  | emptyOutput (cause : KernelError)
  deriving DecidableEq

def Inconsistency.message : Inconsistency → String
  | .nothingWaiting => "no pending inference to dispatch"
  | .unboundSlot => "request slot has no task bound"
  | .noInputFrame => "task has no input frame"
  | .noOutputFrame => "task has no output frame"
  | .noFrameToFill => "task has no frame to post-process into"
  | .unfinished done todo => s!"inference finished {done} of {todo} units"
  | .lostInputFrame => "finished task lost its input frame"
  | .lostProbeFrame => "shape probe lost its output frame"
  | .noOutput name => s!"could not find output operand \"{name}\""
  | .emptyOutput cause => cause.message

inductive Error where
  | unreadable (reason : String)
  | format (cause : FormatError)
  | unsupportedVersion (found : Int32)
  | sizeMismatch (parsed size : Nat)
  | lengthOverflow (operand : String)
  | noFreeSlot
  | layer (index : Nat) (kind : LayerKind) (cause : KernelError)
  | frame (cause : FrameError)
  | unsupported (feature : UnsupportedFeature)
  | badArgument (cause : BadArgument)
  | inconsistent (cause : Inconsistency)
  | fault (fault : Fault)
  deriving DecidableEq

namespace Error

def ofLoad : LoadError → Error
  | .format cause => .format cause
  | .unsupportedVersion found => .unsupportedVersion found
  | .sizeMismatch parsed size => .sizeMismatch parsed size
  | .lengthOverflow operand => .lengthOverflow operand

/-- The error that this one was raised for, if there is one. -/
def cause? : Error → Option String
  | .unreadable reason => some reason
  | .layer _ _ cause => some cause.message
  | .frame cause => some cause.message
  | _ => none

def message : Error → String
  | .unreadable reason => s!"failed to read model: {reason}"
  | .format cause => s!"invalid model file: {cause.message}"
  | .unsupportedVersion found =>
    s!"unsupported model major version {found}, expected {ModelFile.majorVersion}"
  | .sizeMismatch parsed size =>
    s!"model size mismatch: parsed {parsed} bytes, file has {size} bytes"
  | .lengthOverflow operand => s!"data length of operand \"{operand}\" overflows"
  | .noFreeSlot => "no free inference request slot"
  | .layer index kind cause => s!"layer {index} ({kind.label}) failed: {cause.message}"
  | .frame cause => s!"frame processing failed: {cause.message}"
  | .unsupported feature => s!"unsupported feature: {feature.message}"
  | .badArgument cause => s!"invalid argument: {cause.message}"
  | .inconsistent cause => s!"internal error: {cause.message}"
  | .fault _ => "arithmetic fault"

end Error
end Inference
