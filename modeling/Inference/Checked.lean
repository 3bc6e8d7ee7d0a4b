/-! Sizes and indexes of a 64-bit machine: each step either has its exact result or is a fault. -/
namespace Inference

/-- A step that the machine cannot carry out. -/
inductive Fault where
  | overflow
  | underflow
  | outOfBounds
  | zeroDivisor
  deriving DecidableEq, Repr

namespace Checked

/-- The first size beyond 64 bits. -/
def sizeLimit : Nat := 0x10000000000000000

/-- The first offset beyond 63 bits and a sign. -/
def offsetLimit : Nat := 0x8000000000000000

/-- The number that the 64 bits of a size stand for when the first of them is a sign. -/
def signed (n : Nat) : Int := (n : Int).bmod sizeLimit

def size (n : Nat) : Except Fault Nat :=
  if n < sizeLimit then .ok n else .error .overflow

def mul (a b : Nat) : Except Fault Nat := size (a * b)

def sub (a b : Nat) : Except Fault Nat :=
  if b ≤ a then .ok (a - b) else .error .underflow

def div (a b : Nat) : Except Fault Nat :=
  if b = 0 then .error .zeroDivisor else .ok (a / b)

def mod (a b : Nat) : Except Fault Nat :=
  if b = 0 then .error .zeroDivisor else .ok (a % b)

/-- A signed offset, which has to fit 63 bits and a sign. -/
def offset (i : Int) : Except Fault Int :=
  if -(offsetLimit : Int) ≤ i ∧ i < offsetLimit then .ok i else .error .overflow

/-- A signed offset as a position. -/
def place (i : Int) : Except Fault Nat :=
  if i < 0 then .error .underflow else if i < offsetLimit then .ok i.toNat else .error .overflow

/-- Room for so many single-precision values; 63 bits have to hold the number of their bytes. Memory
is taken to be without limit: below that bound every allocation succeeds, this one and those that
are not asked for. -/
def reserve (count : Nat) : Except Fault Unit :=
  if 4 * count < offsetLimit then .ok () else .error .overflow

def product (sizes : List Nat) : Except Fault Nat := sizes.foldlM mul 1

def read {α : Type} (xs : Array α) (i : Nat) : Except Fault α :=
  match xs[i]? with
  | some x => .ok x
  | none => .error .outOfBounds

def write {α : Type} (xs : Array α) (i : Nat) (x : α) : Except Fault (Array α) :=
  if h : i < xs.size then .ok (xs.set i x) else .error .outOfBounds

theorem read_eq_ok {α : Type} {xs : Array α} {i : Nat} {x : α} :
    read xs i = .ok x ↔ xs[i]? = some x := by
  unfold read; split <;> simp_all

end Checked
end Inference
