import Inference.Layer.Error
/-! Named tensors: a descriptor, the byte length of its dims, and the values it may hold. Buffers of
values are counted when an operand takes one and when it lets one go. -/
namespace Inference

inductive OperandKind where
  | input
  | output
  | intermediate
  deriving DecidableEq, Repr

namespace OperandKind

def code : OperandKind → Nat
  | .input => 1
  | .output => 2
  | .intermediate => 3

def ofCode? (code : Int32) : Option OperandKind :=
  [.input, .output, .intermediate].find? (OperandKind.code · == code.toInt)

def name : OperandKind → String
  | .input => "Input"
  | .output => "Output"
  | .intermediate => "Intermediate"

/-- The name under which tables show a kind. -/
def label : OperandKind → String
  | .input => "input"
  | .output => "output"
  | .intermediate => "intermediate"

theorem ofCode?_code (k : OperandKind) : ofCode? (.ofNat k.code) = some k := by cases k <;> decide

end OperandKind

inductive DataType where
  | float
  | uint8
  deriving DecidableEq, Repr

namespace DataType

def code : DataType → Nat
  | .float => 1
  | .uint8 => 4

def ofCode? (code : Int32) : Option DataType :=
  [.float, .uint8].find? (DataType.code · == code.toInt)

def name : DataType → String
  | .float => "Float"
  | .uint8 => "Uint8"

/-- The name under which messages and tables show a data type. -/
def label : DataType → String
  | .float => "float"
  | .uint8 => "uint8"

theorem ofCode?_code (t : DataType) : ofCode? (.ofNat t.code) = some t := by cases t <;> decide

end DataType

/-- How many buffers were ever taken and how many of them were let go. -/
structure Ledger where
  allocated : Nat := 0
  released : Nat := 0
  deriving DecidableEq, Repr

namespace Ledger

def live (l : Ledger) : Nat := l.allocated - l.released

/-- One buffer is taken in place of an old one, if there was one. -/
def replace (l : Ledger) (old : Option (Array Single)) : Ledger :=
  ⟨l.allocated + 1, l.released + old.elim 0 fun _ => 1⟩

def release (l : Ledger) (old : Option (Array Single)) : Ledger :=
  ⟨l.allocated, l.released + old.elim 0 fun _ => 1⟩

end Ledger

structure Operand where
  name : String
  kind : OperandKind
  dataType : DataType
  dims : Dims
  /-- Channels are innermost, rows outermost. -/
  nhwc : Bool := true
  /-- The byte length of the dims, 0 as long as nothing has set it. -/
  length : Nat := 0
  data : Option (Array Single) := none
  deriving DecidableEq

namespace Operand

/-- The operand without its values. -/
def descriptor (o : Operand) : Operand := { o with data := none }

def values (o : Operand) : Except KernelError (Array Single) :=
  match o.data with
  | some values => .ok values
  | none => .error (.noData o.name)

/-- Sets the dims, then the length they ask for; where there is none the old length stays. -/
def resize (o : Operand) (dims : Dims) : Except KernelError Nat × Operand :=
  match dims.byteLength? with
  | some length => (.ok length, { o with dims, length })
  | none => (.error (.lengthOverflow o.name), { o with dims })

/-- Takes values that fill the current length exactly. -/
def install (o : Operand) (values : Array Single) (l : Ledger) :
    Except KernelError (Operand × Ledger) :=
  if 4 * values.size = o.length then .ok ({ o with data := some values }, l.replace o.data)
  else .error (.wrongLength o.name o.length (4 * values.size))

/-- Takes as many zeros as the current length has room for. -/
def allocZeroed (o : Operand) (l : Ledger) : Operand × Ledger :=
  ({ o with data := some (Array.replicate (o.length / 4) .zero) }, l.replace o.data)

def release (o : Operand) (l : Ledger) : Operand × Ledger :=
  (o.descriptor, l.release o.data)

end Operand

/-- The index of the first operand with a name. -/
def findOperand? (operands : Array Operand) (name : String) : Option Nat :=
  operands.findIdx? (·.name == name)

end Inference
