import Inference.Operand
import Inference.Proofs.Dims
/-! Operands whose values fill their dims. -/
namespace Inference

/-- If the operand holds values, its dims have a byte length, which is its length and which the
values fill. -/
def Operand.Fits (o : Operand) : Prop :=
  ∀ values, o.data = some values → o.dims.byteLength? = some o.length ∧ 4 * values.size = o.length

def AllFit (xs : Array Operand) : Prop := ∀ o ∈ xs, o.Fits

namespace Operand

variable {o : Operand}

theorem Fits.of_empty (h : o.data = none) : o.Fits := by
  intro values hvalues
  rw [h] at hvalues
  cases hvalues

/-- The dims of an operand with values: no axis is empty, and a byte length is never above the
greatest signed 32-bit number. -/
theorem Fits.volume (h : o.Fits) {values : Array Single} (hdata : o.data = some values) :
    o.dims.Positive ∧ values.size = o.dims.volume ∧ 4 * values.size ≤ 2147483647 := by
  obtain ⟨hlength, hsize⟩ := h values hdata
  obtain ⟨hpos, hle, hvolume⟩ := Dims.byteLength?_eq_some.1 hlength
  exact ⟨hpos, by omega, by omega⟩

end Operand

namespace AllFit

variable {xs : Array Operand}

theorem set {o : Operand} (h : AllFit xs) (ho : o.Fits) (i : Nat) :
    AllFit (xs.setIfInBounds i o) := by
  intro p hp
  rcases Array.mem_or_eq_of_mem_setIfInBounds hp with hp | rfl
  · exact h p hp
  · exact ho

theorem of_getElem? {i : Nat} {o : Operand} (h : AllFit xs) (ho : xs[i]? = some o) : o.Fits :=
  h o (Array.mem_of_getElem? ho)

theorem of_find? {p : Operand → Bool} {o : Operand} (h : AllFit xs) (ho : xs.find? p = some o) :
    o.Fits :=
  h o (Array.mem_of_find?_eq_some ho)

end AllFit

end Inference
