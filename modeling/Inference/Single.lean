/-! Single-precision values as bit patterns, so that copying a value keeps every bit of it, and the
bytes that such a pattern is stored in. -/
namespace Inference

structure Single where
  bits : UInt32
  deriving DecidableEq, Inhabited

namespace Single

def value (x : Single) : Float32 := Float32.ofBits x.bits

/-- The bits of a result of arithmetic. A result that is NaN has always the same bits here, while
the arithmetic itself leaves open which of the NaNs it is; nothing that is proved depends on them.
Values that are only copied keep theirs. -/
def ofValue (v : Float32) : Single := ⟨v.toBits⟩

def zero : Single := ⟨0⟩

def isNaN (x : Single) : Bool := x.bits &&& 0x7fffffff > 0x7f800000

instance : Add Single := ⟨fun x y => ofValue (x.value + y.value)⟩

instance : Sub Single := ⟨fun x y => ofValue (x.value - y.value)⟩

instance : Mul Single := ⟨fun x y => ofValue (x.value * y.value)⟩

instance : Div Single := ⟨fun x y => ofValue (x.value / y.value)⟩

instance : Neg Single := ⟨fun x => ⟨x.bits ^^^ 0x80000000⟩⟩

def lt (x y : Single) : Bool := x.value < y.value

def le (x y : Single) : Bool := x.value ≤ y.value

def ofNat (n : Nat) : Single := ofValue n.toUInt64.toFloat32

/-- The larger of two values; a NaN gives way to the other, of two zeros the second is taken. -/
def max (x y : Single) : Single := if x.isNaN || x.le y then y else x

/-- The smaller of two values; a NaN gives way to the other, of two zeros the second is taken. -/
def min (x y : Single) : Single := if x.isNaN || y.le x then y else x

/-- The magnitude, which keeps every bit but the sign. -/
def abs (x : Single) : Single := ⟨x.bits &&& 0x7fffffff⟩

def floor (x : Single) : Single := ofValue x.value.floor

/-- The nearest whole value, a half going away from zero. -/
def round (x : Single) : Single := ofValue x.value.round

def exp (x : Single) : Single := ofValue x.value.exp

/-- `log (1 + x)` without losing the small `x`. -/
def log1p (x : Single) : Single :=
  let wide := x.value.toFloat
  let sum := 1 + wide
  if sum == 1 then x
  else if sum == wide then ofValue sum.log.toFloat32
  else ofValue (wide * (sum.log / (sum - 1))).toFloat32

/-- The inverse hyperbolic tangent, half the logarithm of a ratio, each step in single precision:
next to `-1` the ratio `2 x / (1 - x)` takes the same value for several `x`. -/
def atanh (x : Single) : Single := ⟨0x3f000000⟩ * log1p (ofNat 2 * x / (ofNat 1 - x))

/-- The share of 255 that a byte stands for. -/
def ofByte (b : UInt8) : Single := ofNat b.toNat / ofNat 255

/-- The byte nearest to 255 times the value, held between 0 and 255; NaN gives 0. -/
def toByte (x : Single) : UInt8 := (x * ofNat 255).round.value.toUInt8

end Single

/-! The four bytes of a 32-bit word, least significant first. -/
namespace LittleEndian

def encode (w : UInt32) : List UInt8 :=
  [w.toUInt8, (w >>> 8).toUInt8, (w >>> 16).toUInt8, (w >>> 24).toUInt8]

def decode (a b c d : UInt8) : UInt32 :=
  a.toUInt32 ||| (b.toUInt32 <<< 8) ||| (c.toUInt32 <<< 16) ||| (d.toUInt32 <<< 24)

/-- The words of a byte string; up to three bytes left over at its end are dropped. -/
def decodeAll (bytes : List UInt8) (words : Array UInt32 := #[]) : Array UInt32 :=
  match bytes with
  | a :: b :: c :: d :: rest => decodeAll rest (words.push (decode a b c d))
  | _ => words

theorem length_encode (w : UInt32) : (encode w).length = 4 := rfl

end LittleEndian
end Inference
