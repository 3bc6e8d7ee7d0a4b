import Inference.Proofs.Operand.Alike
/-! Operands that differ in the values of equally long buffers alone. -/
namespace Inference

namespace Operand

structure SameForm (o p : Operand) : Prop where
  name : o.name = p.name
  kind : o.kind = p.kind
  dataType : o.dataType = p.dataType
  dims : o.dims = p.dims
  nhwc : o.nhwc = p.nhwc
  length : o.length = p.length
  count : o.data.map Array.size = p.data.map Array.size

/-- Tables that differ in the values of equally long buffers alone. -/
abbrev AllSameForm (xs ys : Array Operand) : Prop := TableRel (fun _ => SameForm) xs ys

namespace SameForm

variable {o p : Operand}

theorem refl (o : Operand) : SameForm o o := ⟨rfl, rfl, rfl, rfl, rfl, rfl, rfl⟩

theorem isSome_eq (h : SameForm o p) : o.data.isSome = p.data.isSome := by
  simpa using congrArg Option.isSome h.count

/-- The same new type, dims and length. -/
theorem redescribe (h : SameForm o p) (dataType : DataType) (dims : Dims) (length : Nat) :
    SameForm { o with dataType, dims, length } { p with dataType, dims, length } :=
  ⟨h.name, h.kind, rfl, rfl, h.nhwc, rfl, h.count⟩

/-- As many new values. -/
theorem refill (h : SameForm o p) {xs ys : Array Single} (hsize : xs.size = ys.size) :
    SameForm { o with data := some xs } { p with data := some ys } :=
  ⟨h.name, h.kind, h.dataType, h.dims, h.nhwc, h.length, congrArg some hsize⟩

end SameForm
end Operand
end Inference
