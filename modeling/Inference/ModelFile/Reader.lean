import Inference.Checked
import Inference.ModelFile.Error
import Inference.Single
/-! Reading the fields of a model file from the front of its bytes. -/
namespace Inference

/-- Takes bytes from the front and leaves the rest. -/
abbrev Reader := StateT (List UInt8) (Except LoadError)

namespace Reader

def fail {α : Type} (cause : FormatError) : Reader α := throw (.format cause)

def bytes (n : Nat) : Reader (List UInt8) := fun rest =>
  if n ≤ rest.length then .ok (rest.take n, rest.drop n) else .error (.format .endOfData)

def word : Reader UInt32
  | a :: b :: c :: d :: rest => .ok (LittleEndian.decode a b c d, rest)
  | _ => .error (.format .endOfData)

def int : Reader Int32 := do return (← word).toInt32

def single : Reader Single := do return ⟨← word⟩

def singles (count : Nat) : Reader (Array Single) := do
  if Checked.sizeLimit ≤ count * 4 then fail .oversizedPayload
  return (LittleEndian.decodeAll (← bytes (count * 4))).map Single.mk

/-- A word that is zero for no. -/
def flag : Reader Bool := do return (← int) ≠ 0

def count (field : String) : Reader Nat := do
  let value ← int
  if value < 0 then fail (.negative field value)
  return value.toNatClampNeg

def positive (field : String) : Reader Nat := do
  let value ← count field
  if value = 0 then fail (.notPositive field)
  return value

def operandIndex (operands : Nat) : Reader Nat := do
  let value ← int
  if 0 ≤ value ∧ value.toNatClampNeg < operands then return value.toNatClampNeg
  else fail (.operandOutOfRange value operands)

/-- A word that stands for one of the choices of a type. -/
def code {α : Type} (ofCode? : Int32 → Option α) (unknown : Int32 → FormatError) : Reader α := do
  let value ← int
  match ofCode? value with
  | some choice => return choice
  | none => fail (unknown value)

/-- Refuses more records than the rest of the bytes has room for. -/
def ensureRecords (count size : Nat) (record : String) : Reader Unit := fun rest =>
  if count * size ≤ rest.length then .ok ((), rest)
  else .error (.format (.tooManyRecords count record rest.length))

def times {α : Type} (n : Nat) (reader : Reader α) : Reader (List α) :=
  (List.range n).mapM fun _ => reader

end Reader
end Inference
