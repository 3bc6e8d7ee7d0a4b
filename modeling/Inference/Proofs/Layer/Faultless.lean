import Inference.Proofs.Kernel.AvgPool
import Inference.Proofs.Kernel.Conv2d
import Inference.Proofs.Kernel.DepthToSpace
import Inference.Proofs.Kernel.Elementwise
import Inference.Proofs.Kernel.MirrorPad
import Inference.Proofs.Layer.Exec
/-! Layers from a model file ask nothing impossible of the machine, as long as the values of every
operand fill its dims. -/
namespace Inference

open Operand

namespace Layer

variable {l : Layer} {xs : Array Operand} {s : Store}

/-- The operands of a layer that are there. -/
theorem read_input (h : l.strayIndex? xs.size = none) {i : Nat} (hi : i ∈ l.inputs) :
    Yields (· ∈ xs) (Checked.read xs i) := by
  have hlt := (strayIndex?_eq_none_iff.1 h).1 i hi
  exact ⟨_, Checked.read_of_lt hlt, Array.getElem_mem hlt⟩

theorem operand_faultless (h : l.strayIndex? xs.size = none) :
    Faultless (l.operand xs) ∧ ∀ o, l.operand xs = .ok o → o ∈ xs := by
  have hread : ∀ i ∈ l.inputs, Yields (· ∈ xs) (Checked.read xs i) := fun i hi => read_input h hi
  unfold operand
  cases hinputs : l.inputs with
  | nil => exact ⟨.error not_false, nofun⟩
  | cons i is =>
    obtain ⟨o, ho, hmem⟩ := hread i (hinputs ▸ List.mem_cons_self)
    simp only [ho]
    refine ⟨.ok o, fun p hp => ?_⟩
    cases hp
    exact hmem

theorem image_faultless (h : l.strayIndex? xs.size = none) (hfit : AllFit xs) :
    Faultless (l.image xs) ∧ ∀ i, l.image xs = .ok i → i.WellFormed := by
  obtain ⟨hoperand, hmem⟩ := operand_faultless h
  refine ⟨hoperand.bind fun o ho => (hfit o (hmem o ho)).image_faultless, fun i hi => ?_⟩
  obtain ⟨o, ho, hi⟩ := bind_eq_ok.1 hi
  exact (hfit o (hmem o ho)).image_eq_ok hi

theorem compute_faultless (h : l.params.WellFormed) (hsize : l.params.Addressable)
    (hfit : AllFit xs) : Faultless (l.compute xs) := by
  unfold compute
  cases hstray : l.strayIndex? xs.size with
  | some i => exact .error not_false
  | none =>
    obtain ⟨hoperand, -⟩ := operand_faultless hstray
    obtain ⟨himage, hi⟩ := image_faultless hstray hfit
    cases hparams : l.params with
    | identity => exact hoperand.bind fun o _ => (o.mapValues_unpaired _).faultless
    | maximum v => exact hoperand.bind fun o _ => (o.mapValues_unpaired _).faultless
    | mathUnary op => exact hoperand.bind fun o _ => (o.mapValues_unpaired _).faultless
    | conv2d p =>
      rw [hparams] at h hsize
      exact himage.bind fun i hok => Conv2d.apply_faultless h hsize (hi i hok)
    | depthToSpace b =>
      rw [hparams] at h
      exact himage.bind fun i hok => DepthToSpace.apply_faultless h (hi i hok)
    | mirrorPad p =>
      rw [hparams] at h
      refine (MirrorPad.checkBatch_faultless p).bind fun _ _ => ?_
      exact himage.bind fun i hok => MirrorPad.apply_faultless h.bounded (hi i hok).whole
    | avgPool p =>
      rw [hparams] at h
      exact himage.bind fun i hok => AvgPool.apply_faultless h (hi i hok)
    | dense p =>
      rw [hparams] at h
      exact himage.bind fun i hok => Dense.apply_faultless h.shaped (hi i hok).whole
    | mathBinary p =>
      have hread : ∀ i ∈ l.inputs, Yields (fun _ => True)
          ((Checked.read xs i).mapError KernelError.fault) := by
        intro i hmem
        obtain ⟨o, ho, -⟩ := read_input hstray hmem
        exact ⟨o, by rw [ho]; rfl, trivial⟩
      obtain ⟨os, hos, -⟩ := Yields.mapM hread
      have hall : Faultless
          (l.inputs.mapM fun i => (Checked.read xs i).mapError KernelError.fault) := by
        rw [hos]
        exact .ok os
      exact hall.bind fun os _ => (p.apply_unpaired os).faultless

/-- Only an operand that is not there is a fault. -/
theorem write_faultless {i : Nat} (hi : i < s.operands.size) (t : Tensor) :
    Faultless (s.write i t).1 := by
  have hw := s.writes i t
  generalize s.write i t = r at hw ⊢
  cases hw with
  | missing _ ho => cases (Array.getElem?_eq_getElem hi).symm.trans ho
  | held => exact .ok ()
  | _ => exact .error not_false

theorem exec_faultless (h : l.params.WellFormed) (hsize : l.params.Addressable)
    (hfit : AllFit s.operands) : Faultless (l.exec s).1 := by
  have hcompute := compute_faultless h hsize hfit
  rw [exec_eq]
  cases hresult : l.compute s.operands with
  | error e => exact .error (hcompute e hresult)
  | ok t =>
    exact write_faultless (strayIndex?_eq_none_iff.1 (compute_inRange hresult)).2 t

end Layer
end Inference
