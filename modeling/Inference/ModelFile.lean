import Inference.ModelFile.Payload
import Inference.Text.Utf8
/-! Model files: magic, version, layer records, operand records, and the two record counts at the
end. -/
namespace Inference

/-- The layers in the order they run, and the operands they read and write. -/
structure Graph where
  minorVersion : Int32
  layers : List Layer
  operands : Array Operand
  deriving DecidableEq

namespace ModelFile

/-- The fifteen letters that every file begins with. -/
def magic : List UInt8 :=
  [0x46, 0x46, 0x4d, 0x50, 0x45, 0x47, 0x44, 0x4e, 0x4e, 0x4e, 0x41, 0x54, 0x49, 0x56, 0x45]

def majorVersion : Int32 := 1

def headerSize : Nat := 23

def trailerSize : Nat := 8

/-- The kind alone. -/
def minLayerRecord : Nat := 4

/-- Index, name length, kind, data type and four dims. -/
def minOperandRecord : Nat := 32

/-- The longest name in bytes. -/
def maxNameLength : Nat := 127

/-- The name that a field stands for: its bytes up to the first zero, and no more than the longest
name has. -/
def decodeName (field : List UInt8) : String :=
  Text.Utf8.decode ((field.takeWhile (· ≠ 0)).take maxNameLength)

def dims : Reader Dims := do
  let batch ← Reader.int
  let height ← Reader.int
  let width ← Reader.int
  let channels ← Reader.int
  return ⟨batch, height, width, channels⟩

def operand : Reader Operand := do
  let name := decodeName (← Reader.bytes (← Reader.count "operand name length"))
  let kind ← Reader.code OperandKind.ofCode? (.unknownKind name)
  let dataType ← Reader.code DataType.ofCode? (.unknownDataType name)
  let dims ← dims
  if kind = .input ∧ dims.batch ≠ 1 then Reader.fail (.batchedInput name dims.batch)
  if dims.Positive then
    match dims.byteLength? with
    | some length => return { name, kind, dataType, dims, length }
    | none => throw (.lengthOverflow name)
  else return { name, kind, dataType, dims }

/-- Reads one operand record into the table, at the index that the record names. -/
def operandRecord (table : Array (Option Operand)) : Reader (Array (Option Operand)) := do
  let index ← Reader.operandIndex table.size
  let operand ← operand
  if (table[index]?.bind id).isSome then Reader.fail (.duplicateOperand index)
  return table.setIfInBounds index (some operand)

/-- The operands of a full table, or the first index that it lacks. -/
def complete (table : Array (Option Operand)) : Except LoadError (Array Operand) :=
  match table.findIdx? Option.isNone with
  | some index => .error (.format (.undefinedOperand index))
  | none => .ok (table.filterMap id)

def body (layers operands : Nat) : Reader (List Layer × Array Operand) := do
  Reader.ensureRecords layers minLayerRecord "layer"
  let layers ← Reader.times layers (Reader.layer operands)
  Reader.ensureRecords operands minOperandRecord "operand"
  let table ← (List.range operands).foldlM (fun table _ => operandRecord table)
    (Array.replicate operands none)
  return (layers, ← complete table)

def header : Reader Int32 := do
  if (← Reader.bytes magic.length) ≠ magic then Reader.fail .badMagic
  let major ← Reader.int
  if major ≠ majorVersion then throw (.unsupportedVersion major)
  Reader.int

def trailer : Reader (Nat × Nat) := do
  let layers ← Reader.count "layer count"
  let operands ← Reader.count "operand count"
  return (layers, operands)

def parse (file : List UInt8) : Except LoadError Graph := do
  let size := file.length
  if size < headerSize + trailerSize then throw (.format .tooSmall)
  let (minorVersion, _) ← header (file.take headerSize)
  let ((layers, operands), _) ← trailer (file.drop (size - trailerSize))
  let inner := (file.drop headerSize).take (size - trailerSize - headerSize)
  let ((layers, operands), rest) ← body layers operands inner
  if rest ≠ [] then throw (.sizeMismatch (size - rest.length) size)
  return ⟨minorVersion, layers, operands⟩

end ModelFile
end Inference
