import Inference.Single
/-! The choices that a layer's parameters make, their codes in a model file and their names. -/
namespace Inference

inductive LayerKind where
  | identity
  | conv2d
  | depthToSpace
  | mirrorPad
  | maximum
  | mathBinary
  | mathUnary
  | avgPool
  | dense
  deriving DecidableEq, Repr

namespace LayerKind

def all : List LayerKind :=
  [.identity, .conv2d, .depthToSpace, .mirrorPad, .maximum, .mathBinary, .mathUnary, .avgPool,
    .dense]

def code : LayerKind → Nat
  | .identity => 0
  | .conv2d => 1
  | .depthToSpace => 2
  | .mirrorPad => 3
  | .maximum => 4
  | .mathBinary => 5
  | .mathUnary => 6
  | .avgPool => 7
  | .dense => 8

def ofCode? (code : Int32) : Option LayerKind := all.find? (·.code == code.toInt)

def name : LayerKind → String
  | .identity => "Identity"
  | .conv2d => "Conv2D"
  | .depthToSpace => "DepthToSpace"
  | .mirrorPad => "MirrorPad"
  | .maximum => "Maximum"
  | .mathBinary => "MathBinary"
  | .mathUnary => "MathUnary"
  | .avgPool => "AvgPool"
  | .dense => "Dense"

/-- The name under which messages and tables show a layer. -/
def label : LayerKind → String
  | .identity => "identity"
  | .conv2d => "conv2d"
  | .depthToSpace => "depth_to_space"
  | .mirrorPad => "mirror_pad"
  | .maximum => "maximum"
  | .mathBinary => "math_binary"
  | .mathUnary => "math_unary"
  | .avgPool => "avg_pool"
  | .dense => "dense"

theorem ofCode?_code (k : LayerKind) : ofCode? (.ofNat k.code) = some k := by cases k <;> decide

end LayerKind

inductive Activation where
  | relu
  | tanh
  | sigmoid
  | linear
  | leakyRelu
  deriving DecidableEq, Repr

namespace Activation

def all : List Activation := [.relu, .tanh, .sigmoid, .linear, .leakyRelu]

def code : Activation → Nat
  | .relu => 0
  | .tanh => 1
  | .sigmoid => 2
  | .linear => 3
  | .leakyRelu => 4

def ofCode? (code : Int32) : Option Activation := all.find? (·.code == code.toInt)

def name : Activation → String
  | .relu => "Relu"
  | .tanh => "Tanh"
  | .sigmoid => "Sigmoid"
  | .linear => "None"
  | .leakyRelu => "LeakyRelu"

/-- The slope of the leaky ramp below zero, one fifth. -/
def leak : Single := ⟨0x3e4ccccd⟩

def apply (a : Activation) (x : Single) : Single :=
  match a with
  | .relu => x.max .zero
  | .tanh => .ofNat 2 / (.ofNat 1 + (-.ofNat 2 * x).exp) - .ofNat 1
  | .sigmoid => .ofNat 1 / (.ofNat 1 + (-x).exp)
  | .linear => x
  | .leakyRelu => if Single.zero.lt x then x else leak * x

theorem ofCode?_code (a : Activation) : ofCode? (.ofNat a.code) = some a := by cases a <;> decide

end Activation

/-- What a window sees beyond the edge of the image. -/
inductive Padding where
  | valid
  | same
  | sameClampToEdge
  deriving DecidableEq, Repr

namespace Padding

def all : List Padding := [.valid, .same, .sameClampToEdge]

def code : Padding → Nat
  | .valid => 0
  | .same => 1
  | .sameClampToEdge => 2

def ofCode? (code : Int32) : Option Padding := all.find? (·.code == code.toInt)

def name : Padding → String
  | .valid => "Valid"
  | .same => "Same"
  | .sameClampToEdge => "SameClampToEdge"

theorem ofCode?_code (p : Padding) : ofCode? (.ofNat p.code) = some p := by cases p <;> decide

end Padding

/-- What a padded axis shows outside the image. -/
inductive PadMode where
  | reflect
  | symmetric
  | constant
  deriving DecidableEq, Repr

namespace PadMode

def all : List PadMode := [.reflect, .symmetric, .constant]

def code : PadMode → Nat
  | .reflect => 0
  | .symmetric => 1
  | .constant => 2

def ofCode? (code : Int32) : Option PadMode := all.find? (·.code == code.toInt)

def name : PadMode → String
  | .reflect => "Reflect"
  | .symmetric => "Symmetric"
  | .constant => "Constant"

theorem ofCode?_code (m : PadMode) : ofCode? (.ofNat m.code) = some m := by cases m <;> decide

end PadMode

inductive BinaryOp where
  | sub
  | add
  | mul
  | realDiv
  | minimum
  | floorMod
  deriving DecidableEq, Repr

namespace BinaryOp

def all : List BinaryOp := [.sub, .add, .mul, .realDiv, .minimum, .floorMod]

def code : BinaryOp → Nat
  | .sub => 0
  | .add => 1
  | .mul => 2
  | .realDiv => 3
  | .minimum => 4
  | .floorMod => 5

def ofCode? (code : Int32) : Option BinaryOp := all.find? (·.code == code.toInt)

def name : BinaryOp → String
  | .sub => "Sub"
  | .add => "Add"
  | .mul => "Mul"
  | .realDiv => "RealDiv"
  | .minimum => "Minimum"
  | .floorMod => "FloorMod"

def apply (op : BinaryOp) (x y : Single) : Single :=
  match op with
  | .sub => x - y
  | .add => x + y
  | .mul => x * y
  | .realDiv => x / y
  | .minimum => x.min y
  | .floorMod => x - (x / y).floor * y

theorem ofCode?_code (op : BinaryOp) : ofCode? (.ofNat op.code) = some op := by cases op <;> decide

end BinaryOp

inductive UnaryOp where
  | abs
  | sin
  | cos
  | tan
  | asin
  | acos
  | atan
  | sinh
  | cosh
  | tanh
  | asinh
  | acosh
  | atanh
  | ceil
  | floor
  | round
  | exp
  deriving DecidableEq, Repr

namespace UnaryOp

def all : List UnaryOp :=
  [.abs, .sin, .cos, .tan, .asin, .acos, .atan, .sinh, .cosh, .tanh, .asinh, .acosh, .atanh,
    .ceil, .floor, .round, .exp]

def code (op : UnaryOp) : Nat := all.idxOf op

def ofCode? (code : Int32) : Option UnaryOp := all.find? (·.code == code.toInt)

def name : UnaryOp → String
  | .abs => "Abs"
  | .sin => "Sin"
  | .cos => "Cos"
  | .tan => "Tan"
  | .asin => "Asin"
  | .acos => "Acos"
  | .atan => "Atan"
  | .sinh => "Sinh"
  | .cosh => "Cosh"
  | .tanh => "Tanh"
  | .asinh => "Asinh"
  | .acosh => "Acosh"
  | .atanh => "Atanh"
  | .ceil => "Ceil"
  | .floor => "Floor"
  | .round => "Round"
  | .exp => "Exp"

/-- The functions behind the operations, of which nothing more is proved. How exactly the
trigonometric and hyperbolic ones come to their values is left open, those of `asinh` and `acosh`
included: here they are the mathematical library's own, of single precision. Only `atanh` is written
out step by step. -/
def apply (op : UnaryOp) (x : Single) : Single :=
  match op with
  | .abs => x.abs
  | .sin => .ofValue x.value.sin
  | .cos => .ofValue x.value.cos
  | .tan => .ofValue x.value.tan
  | .asin => .ofValue x.value.asin
  | .acos => .ofValue x.value.acos
  | .atan => .ofValue x.value.atan
  | .sinh => .ofValue x.value.sinh
  | .cosh => .ofValue x.value.cosh
  | .tanh => .ofValue x.value.tanh
  | .asinh => .ofValue x.value.asinh
  | .acosh => .ofValue x.value.acosh
  | .atanh => x.atanh
  | .ceil => .ofValue x.value.ceil
  | .floor => x.floor
  | .round => x.round
  | .exp => x.exp

theorem ofCode?_code (op : UnaryOp) : ofCode? (.ofNat op.code) = some op := by cases op <;> decide

end UnaryOp
end Inference
