/-! Tensor dims in the order batch, height, width, channels, and the byte length they ask for. -/
namespace Inference

structure Dims where
  batch : Int32
  height : Int32
  width : Int32
  channels : Int32
  deriving DecidableEq, Inhabited

namespace Dims

def axes (d : Dims) : List Int32 := [d.batch, d.height, d.width, d.channels]

/-- Every axis has at least one position. -/
def Positive (d : Dims) : Prop := ∀ a ∈ d.axes, 0 < a

instance (d : Dims) : Decidable d.Positive := List.decidableBAll (0 < ·) d.axes

/-- The longest tensor in bytes, the greatest signed 32-bit number. -/
def maxByteLength : UInt64 := 2147483647

/-- A byte length with one more axis in it; `none` for an axis that is not positive or a length
above `maxByteLength`. -/
def extendLength? (length : UInt64) (axis : Int32) : Option UInt64 :=
  if axis ≤ 0 then none
  else
    let length := length * UInt64.ofNat axis.toNatClampNeg
    if length ≤ maxByteLength then some length else none

/-- Four bytes for each value, one axis after the other. -/
def byteLength? (d : Dims) : Option Nat := (d.axes.foldlM extendLength? 4).map UInt64.toNat

/-- The number of positions, in 64-bit arithmetic; an axis below zero counts as empty. -/
def elementCount (d : Dims) : UInt64 :=
  (d.axes.map fun a => UInt64.ofNat a.toNatClampNeg).foldl (· * ·) 1

protected def toString (d : Dims) : String :=
  "[" ++ ", ".intercalate (d.axes.map fun a => toString a.toInt) ++ "]"

instance : ToString Dims := ⟨Dims.toString⟩

end Dims

/-- The sizes of the axes as a kernel computes them, before they are stored as dims. -/
structure Shape where
  batch : Nat
  height : Nat
  width : Nat
  channels : Nat
  deriving DecidableEq, Inhabited

namespace Shape

def axes (s : Shape) : List Nat := [s.batch, s.height, s.width, s.channels]

/-- The sizes that dims stand for; an axis below zero counts as empty. -/
def ofDims (d : Dims) : Shape :=
  ⟨d.batch.toNatClampNeg, d.height.toNatClampNeg, d.width.toNatClampNeg,
    d.channels.toNatClampNeg⟩

/-- The first axis whose size is no signed 32-bit number. -/
def oversized? (s : Shape) : Option Nat := s.axes.find? (2147483647 < ·)

/-- The sizes as 32-bit numbers, exact where no axis is oversized. -/
def toDims (s : Shape) : Dims :=
  ⟨.ofNat s.batch, .ofNat s.height, .ofNat s.width, .ofNat s.channels⟩

protected def toString (s : Shape) : String :=
  "[" ++ ", ".intercalate (s.axes.map toString) ++ "]"

instance : ToString Shape := ⟨Shape.toString⟩

end Shape
end Inference
