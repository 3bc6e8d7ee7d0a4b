import Inference.Proofs.Kernel.Dense
import Inference.Proofs.Layer.Writing
/-! A layer writes what it computes, also where it does not compute the values. -/
namespace Inference

namespace Layer

variable (l : Layer) (s : Store)

theorem overlong?_eq_some {operands : Array Operand} {t : Tensor}
    (h : l.overlong? operands = some t) : ∃ values,
      l.compute operands = .ok { t with values } ∧ t.shape.toDims.byteLength? = none := by
  unfold overlong? at h
  split at h
  next p hparams hstray =>
    obtain ⟨image, himage, hlong⟩ := Option.bind_eq_some_iff.1 h
    obtain ⟨values, happly, hlength⟩ := Conv2d.overlong?_eq_some hlong
    refine ⟨values, ?_, hlength⟩
    unfold compute
    rw [hstray, hparams]
    exact bind_eq_ok.2 ⟨image, toOption_eq_some.1 himage, happly⟩
  next => cases h

/-- What a layer does comes down to the tensor that it computes. -/
theorem exec_eq : l.exec s = match l.compute s.operands with
    | .ok tensor => s.write l.output tensor
    | .error e => (.error e, s) := by
  unfold exec
  cases hlong : l.overlong? s.operands with
  | none => rfl
  | some outline =>
    obtain ⟨values, hcompute, hlength⟩ := l.overlong?_eq_some hlong
    rw [hcompute]
    exact (s.write_overlong hlength values).symm

variable {l} {s}

theorem strayIndex?_eq_none_iff {count : Nat} :
    l.strayIndex? count = none ↔ (∀ i ∈ l.inputs, i < count) ∧ l.output < count := by
  simp [strayIndex?]

/-- All operands of a layer are looked for first. -/
theorem compute_inRange {xs : Array Operand} {t : Tensor} (h : l.compute xs = .ok t) :
    l.strayIndex? xs.size = none := by
  unfold compute at h
  cases hstray : l.strayIndex? xs.size with
  | none => rfl
  | some i => simp only [hstray] at h; cases h

end Layer
end Inference
