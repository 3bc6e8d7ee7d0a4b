import Inference.ModelFile
/-! Writing model files. The format leaves the order of the operand records to the writer, the word
for each yes, and the bytes of a name field behind its first zero. -/
namespace Inference.ModelFile

structure Spelling where
  /-- The operand indexes in the order of their records. -/
  order : List Nat
  /-- The name field of each operand. -/
  field : Nat → List UInt8
  /-- The words for yes in the record of each layer. -/
  yes : Nat → Nat → UInt32

namespace Writer

def nat (n : Nat) : List UInt8 := LittleEndian.encode (.ofNat n)

def int (i : Int32) : List UInt8 := LittleEndian.encode i.toUInt32

def singles (xs : Array Single) : List UInt8 :=
  xs.toList.flatMap fun x => LittleEndian.encode x.bits

def biases (yes : UInt32) : Option (Array Single) → List UInt8 × List UInt8
  | some xs => (LittleEndian.encode yes, singles xs)
  | none => (nat 0, [])

def margin (m : Margin) : List UInt8 := nat m.before ++ nat m.after

/-- The indexes that end the record of a layer. -/
def ends (l : Layer) : List UInt8 := l.inputs.flatMap nat ++ nat l.output

/-- A side, and the inputs that are left for the next one. -/
def side (yes : UInt32) (inputs : List Nat) : BinarySide → List UInt8 × List Nat
  | .scalar x => (LittleEndian.encode yes ++ LittleEndian.encode x.bits, inputs)
  | .tensor => (nat 0 ++ (inputs.take 1).flatMap nat, inputs.drop 1)

def payload (yes : Nat → UInt32) (l : Layer) : List UInt8 :=
  match l.params with
  | .identity => ends l
  | .conv2d p =>
    let (flag, biases) := biases (yes 0) p.biases
    nat p.dilation ++ nat p.padding.code ++ nat p.activation.code ++ nat p.inputNum ++
      nat p.outputNum ++ nat p.kernelSize ++ flag ++ singles p.kernel ++ biases ++ ends l
  | .depthToSpace block => nat block ++ ends l
  | .mirrorPad p =>
    nat p.mode.code ++ margin p.batch ++ margin p.height ++ margin p.width ++ margin p.channels ++
      ends l
  | .maximum value => LittleEndian.encode value.bits ++ ends l
  | .mathBinary p =>
    let (left, inputs) := side (yes 0) l.inputs p.left
    let (right, _) := side (yes 1) inputs p.right
    nat p.op.code ++ left ++ right ++ nat l.output
  | .mathUnary op => nat op.code ++ ends l
  | .avgPool p => nat p.strides ++ nat p.padding.code ++ nat p.kernelSize ++ ends l
  | .dense p =>
    let (flag, biases) := biases (yes 0) p.biases
    nat p.activation.code ++ nat p.inputNum ++ nat p.outputNum ++ flag ++ singles p.kernel ++
      biases ++ ends l

def layer (yes : Nat → UInt32) (l : Layer) : List UInt8 := nat l.kind.code ++ payload yes l

def layers (yes : Nat → Nat → UInt32) (index : Nat) : List Layer → List UInt8
  | [] => []
  | l :: ls => layer (yes index) l ++ layers yes (index + 1) ls

def operand (index : Nat) (field : List UInt8) (o : Operand) : List UInt8 :=
  nat index ++ nat field.length ++ field ++ nat o.kind.code ++ nat o.dataType.code ++
    o.dims.axes.flatMap int

def operands (g : Graph) (s : Spelling) : List UInt8 :=
  s.order.flatMap fun index => (g.operands[index]?.map (operand index (s.field index))).getD []

end Writer

def encodeHeader (minorVersion : Int32) : List UInt8 :=
  magic ++ Writer.int majorVersion ++ Writer.int minorVersion

def encodeBody (g : Graph) (s : Spelling) : List UInt8 :=
  Writer.layers s.yes 0 g.layers ++ Writer.operands g s

def encodeTrailer (layers operands : Nat) : List UInt8 := Writer.nat layers ++ Writer.nat operands

def encode (g : Graph) (s : Spelling) : List UInt8 :=
  encodeHeader g.minorVersion ++ encodeBody g s ++ encodeTrailer g.layers.length g.operands.size

/-- The records in order of index, the names as they are, and one for yes. -/
def Spelling.plain (g : Graph) : Spelling where
  order := List.range g.operands.size
  field index := (g.operands[index]?.map fun o => o.name.toUTF8.toList).getD []
  yes _ _ := 1

end Inference.ModelFile
