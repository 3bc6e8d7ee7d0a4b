import Inference.Checked
/-! The size of a written number as double precision computes it: the digits that fit 64 bits and
the power of ten are rounded each for itself, and then their product is. -/
namespace Inference.Json

def digitValue (c : Char) : Nat := c.toNat - 48

def natOfDigits (digits : List Char) : Nat := digits.foldl (fun n c => n * 10 + digitValue c) 0

/-- A whole number times a power of ten. -/
structure Decimal where
  significand : Nat
  power : Int
  deriving DecidableEq

namespace Decimal

/-- Appends digits to a number as long as it fits 64 bits; the others are left over. -/
def takeDigits (n : Nat) : List Char → Nat × List Char
  | [] => (n, [])
  | c :: digits =>
    let next := n * 10 + digitValue c
    if next < Checked.sizeLimit then takeDigits next digits else (n, c :: digits)

/-- Digits of the whole part that do not fit count as zeros, those of the fraction count as none. -/
def ofDigits (whole places : List Char) (exponent : Int) : Decimal :=
  let (n, spare) := takeDigits 0 whole
  let (significand, unused) := takeDigits n places
  ⟨significand, exponent + spare.length + unused.length - places.length⟩

/-- The nearest number of 53 significant bits; between two of them the even one. -/
def roundSignificand (n : Nat) : Nat :=
  let step := Nat.pow 2 (n.log2 - 52)
  let excess := n % step
  let below := n - excess
  if 2 * excess < step ∨ (2 * excess = step ∧ below / step % 2 = 0) then below else below + step

/-- The least number that is no longer rounded to a finite one. -/
def overflowThreshold : Nat := Nat.pow 2 1024 - Nat.pow 2 970

/-- Whether the number is rounded to infinity; with a negative power it never is. -/
def overflows (d : Decimal) : Bool :=
  d.significand ≠ 0 && 0 ≤ d.power && (308 < d.power ||
    overflowThreshold ≤
      roundSignificand d.significand * roundSignificand (Nat.pow 10 d.power.toNat))

end Decimal
end Inference.Json
