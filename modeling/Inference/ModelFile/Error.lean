import Inference.Layer.Code
/-! Why a file is not a model. -/
namespace Inference

inductive FormatError where
  | tooSmall
  | badMagic
  | negative (field : String) (value : Int32)
  | notPositive (field : String)
  | tooManyRecords (count : Nat) (record : String) (remaining : Nat)
  | unknownLayer (code : Int32)
  | unknownCode (field : String) (code : Int32)
  | endOfData
  | oversizedPayload
  | oversizedKernel (kind : LayerKind)
  | noTensorSide
  | operandOutOfRange (index : Int32) (count : Nat)
  | duplicateOperand (index : Nat)
  | undefinedOperand (index : Nat)
  | unknownKind (operand : String) (code : Int32)
  | unknownDataType (operand : String) (code : Int32)
  | batchedInput (operand : String) (batch : Int32)
  deriving DecidableEq

def FormatError.message : FormatError → String
  | .tooSmall => "file too small for header and trailer"
  | .badMagic => "invalid magic"
  | .negative field value => s!"negative {field}: {value}"
  | .notPositive field => s!"{field} must be positive"
  | .tooManyRecords count record remaining =>
    s!"{count} {record} records cannot fit in the remaining {remaining} bytes"
  | .unknownLayer code => s!"unknown layer type {code}"
  | .unknownCode field code => s!"{field} {code}"
  | .endOfData => "unexpected end of model data"
  | .oversizedPayload => "tensor payload too large"
  | .oversizedKernel kind => s!"{kind.label} kernel too large"
  | .noTensorSide => "math_binary needs at least one tensor operand"
  | .operandOutOfRange index count => s!"operand index {index} out of range ({count} operands)"
  | .duplicateOperand index => s!"duplicate operand index {index}"
  | .undefinedOperand index => s!"operand {index} is never defined"
  | .unknownKind operand code => s!"operand \"{operand}\" has unknown type {code}"
  | .unknownDataType operand code => s!"operand \"{operand}\" has unknown data type {code}"
  | .batchedInput operand batch => s!"input operand \"{operand}\" has batch {batch}, expected 1"

inductive LoadError where
  | format (cause : FormatError)
  | unsupportedVersion (found : Int32)
  | sizeMismatch (parsed size : Nat)
  | lengthOverflow (operand : String)
  deriving DecidableEq

end Inference
