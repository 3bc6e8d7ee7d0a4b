import Inference.Proofs.Layer.Contract
import Inference.Proofs.Layer.Refusal
import Inference.Proofs.Layer.Unchanged
import Inference.Proofs.Operand.Fitting
/-! Coherent operands. Layers make them of one another, and between coherent operands there are
things that no layer complains of. -/
namespace Inference

/-- Whatever tensor a layer makes, it can be written only if its values fill its dims. -/
theorem Tensor.Writable.holding_fits {t : Tensor} (h : t.Writable) (o : Operand) :
    (o.holding t).Fits := by
  rintro values ⟨⟩
  exact ⟨h.length, rfl⟩

theorem Layer.exec_fits {l : Layer} {s : Store} (h : AllFit s.operands)
    (hok : (l.exec s).1 = .ok ()) : AllFit (l.exec s).2.operands := by
  obtain ⟨t, o, -, -, ht, hexec⟩ := Layer.exec_eq_ok hok
  rw [hexec]
  exact h.set (ht.holding_fits o) l.output

/-- An operand with the values in it: one batch of them in the data type of frames, as many as the
dims have positions and no more than an operand can hold. -/
structure Operand.Coherent (o : Operand) (values : Array Single) : Prop where
  batch : o.dims.batch = 1
  positive : o.dims.Positive
  dataType : o.dataType = .float
  length : o.length = 4 * o.dims.volume
  bytes : o.length ≤ 2147483647
  count : values.size = o.dims.volume

/-- Operands that hold values are coherent. Nothing is said of the others. -/
def AllCoherent (xs : Array Operand) : Prop := ∀ o ∈ xs, ∀ values ∈ o.data, o.Coherent values

theorem Operand.Fits.coherent {o : Operand} (h : o.Fits) (hbatch : o.dims.batch = 1)
    (htype : o.dataType = .float) : ∀ values ∈ o.data, o.Coherent values := by
  intro values hdata
  obtain ⟨hlength, hsize⟩ := h values hdata
  obtain ⟨hpos, hle, hvolume⟩ := Dims.byteLength?_eq_some.1 hlength
  exact ⟨hbatch, hpos, htype, hvolume, by omega, by omega⟩

/-- As many values as an image with the sizes of the dims has. -/
theorem Operand.Coherent.image_count {o : Operand} {values : Array Single}
    (h : o.Coherent values) : values.size =
      o.dims.height.toNatClampNeg * o.dims.width.toNatClampNeg * o.dims.channels.toNatClampNeg :=
  h.count.trans (Dims.volume_of_batch h.batch)

namespace AllCoherent

variable {xs : Array Operand}

theorem fit (h : AllCoherent xs) : AllFit xs := by
  intro o ho values hdata
  obtain ⟨-, hpos, -, hlength, hbytes, hcount⟩ := h o ho values hdata
  exact ⟨Dims.byteLength?_eq_some.2 ⟨hpos, by omega, hlength⟩, by omega⟩

theorem set {o : Operand} (h : AllCoherent xs) (ho : ∀ values ∈ o.data, o.Coherent values)
    (i : Nat) : AllCoherent (xs.setIfInBounds i o) := by
  intro p hp
  obtain hp | rfl := Array.mem_or_eq_of_mem_setIfInBounds hp
  · exact h p hp
  · exact ho

end AllCoherent

/-- The layer works value by value. -/
def LayerKind.Elementwise : LayerKind → Prop
  | .identity | .maximum | .mathBinary | .mathUnary => True
  | .conv2d | .depthToSpace | .mirrorPad | .avgPool | .dense => False

namespace Layer

variable {l : Layer} {xs : Array Operand} {s : Store}

/-- A layer that succeeds leaves all operands coherent, its output among them. -/
theorem exec_coherent (h : AllCoherent s.operands) (hok : (l.exec s).1 = .ok ()) :
    AllCoherent (l.exec s).2.operands := by
  obtain ⟨t, o, hcompute, -, ht, hexec⟩ := exec_eq_ok hok
  obtain ⟨input, hinput, hmade⟩ := compute_madeFrom t hcompute
  obtain ⟨i, -, hi⟩ := operand_eq_ok hinput
  obtain ⟨values, hdata⟩ := Option.isSome_iff_exists.1 hmade.held
  have hcoherent := h input (Array.mem_of_getElem? hi) values hdata
  have hbatch : (o.holding t).dims.batch = 1 := by
    change Int32.ofNat t.shape.batch = 1
    rw [hmade.batch, hcoherent.batch]
    rfl
  rw [hexec]
  exact h.set ((ht.holding_fits o).coherent hbatch (hmade.dataType.trans hcoherent.dataType)) _

theorem operand_fitting (l : Layer) (xs : Array Operand) :
    Avoids KernelError.IsMisfit (l.operand xs) := by
  unfold operand
  split
  · exact .error not_false
  · exact .lift fun _ => not_false

theorem compute_fitting (hkind : l.kind.Elementwise) : Avoids KernelError.IsMisfit (l.compute xs) := by
  have hmap : ∀ f : Single → Single,
      Avoids KernelError.IsMisfit (l.operand xs >>= fun o => o.mapValues f) :=
    fun f => (l.operand_fitting xs).bind fun o _ => (o.mapValues_unpaired f).fitting
  unfold kind at hkind
  unfold compute
  cases l.strayIndex? xs.size with
  | some i => exact .error not_false
  | none =>
    cases hparams : l.params with
    | identity => exact hmap id
    | maximum v => exact hmap _
    | mathUnary op => exact hmap _
    | mathBinary p =>
      refine .bind (.mapM fun i _ => .lift fun _ => not_false) fun os _ => ?_
      exact (p.apply_unpaired os).fitting
    | _ => exact (hparams ▸ hkind).elim

/-- The values of an operand that is read are as many as its dims say. -/
theorem compute_matched (hfit : AllFit xs) : Avoids KernelError.IsMismatch (l.compute xs) := by
  by_cases hkind : l.kind.Elementwise
  · exact (compute_fitting hkind).mono fun _ => KernelError.IsMismatch.misfit
  unfold kind at hkind
  unfold compute
  cases hstray : l.strayIndex? xs.size with
  | some i => exact .error not_false
  | none =>
    have himage : Avoids KernelError.IsMismatch (l.image xs) := by
      have hoperand := (l.operand_fitting xs).mono fun _ => KernelError.IsMismatch.misfit
      exact hoperand.bind fun o ho => (hfit o ((operand_faultless hstray).2 o ho)).image_matched
    cases hparams : l.params with
    | conv2d p => exact himage.bind fun i _ => p.apply_matched i
    | depthToSpace b => exact himage.bind fun i _ => DepthToSpace.apply_matched b i
    | mirrorPad p =>
      refine .bind (p.checkBatch_avoids not_false) fun _ _ => himage.bind fun i _ => ?_
      exact p.apply_matched i
    | avgPool p => exact himage.bind fun i _ => p.apply_matched i
    | dense p => exact himage.bind fun i _ => p.apply_matched i
    | _ => exact (hkind (hparams ▸ trivial)).elim

section

variable (h : l.params.WellFormed) (hsize : l.params.Addressable) (hfit : AllFit s.operands)

include h hsize hfit

/-- No buffer is found to have another length than its operand has. -/
theorem exec_matched : Avoids KernelError.IsMismatch (l.exec s).1 := by
  intro e he
  by_cases hfloods : ∃ p i, l.Floods s.operands p i
  · obtain ⟨p, i, hfloods⟩ := hfloods
    obtain ⟨o, -, hexec⟩ := hfloods.exec_eq h hsize hfit
    rw [hexec] at he
    cases he
    exact not_false
  · have hcalm : ∀ p i, ¬l.Floods s.operands p i := by simpa using hfloods
    exact compute_matched hfit e (exec_failure h hsize hfit hcalm he)

/-- Layers that work value by value keep the size of what they read, and so it always fits. -/
theorem exec_fitting (hkind : l.kind.Elementwise) : Avoids KernelError.IsMisfit (l.exec s).1 := by
  have hcalm : ∀ p i, ¬l.Floods s.operands p i := by
    intro p i hfloods
    rw [kind, hfloods.params] at hkind
    exact hkind
  exact fun e he => compute_fitting hkind e (exec_failure h hsize hfit hcalm he)

end

end Layer
end Inference
