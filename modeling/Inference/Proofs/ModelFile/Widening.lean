import Inference.Proofs.ModelFile.Delimiting
/-! More operands allow more. A layer record that is read for some number of operands is read as the
same layer where there are more of them. -/
namespace Inference.Reader

section

variable {α β : Type} {narrow wide : Reader α}

/-- Whatever the narrow reader reads, the wide one reads, and as the same. -/
def Widens (narrow wide : Reader α) : Prop :=
  ∀ bytes a rest, narrow bytes = .ok (a, rest) → wide bytes = .ok (a, rest)

theorem Widens.refl (reader : Reader α) : Widens reader reader := fun _ _ _ => id

theorem Widens.bind {f g : α → Reader β} (h : Widens narrow wide)
    (hfg : ∀ a, Widens (f a) (g a)) : Widens (narrow >>= f) (wide >>= g) := by
  intro bytes b rest hread
  obtain ⟨a, middle, hfirst, hnext⟩ := bind_run_eq_ok.1 hread
  exact bind_run_eq_ok.2 ⟨a, middle, h bytes a middle hfirst, hfg a middle b rest hnext⟩

theorem Widens.check {c : Prop} [Decidable c] {cause : FormatError} {k k' : PUnit → Reader α}
    (h : Widens narrow wide) : Widens (if c then fail cause >>= k else narrow)
      (if c then fail cause >>= k' else wide) := by
  by_cases hc : c
  · rw [if_pos hc, if_pos hc]
    nofun
  · rwa [if_neg hc, if_neg hc]

end

section

variable {few many : Nat} (hle : few ≤ many)

include hle

theorem operandIndex_widens : Widens (operandIndex few) (operandIndex many) := by
  refine (Widens.refl int).bind fun value => ?_
  by_cases hindex : 0 ≤ value ∧ value.toNatClampNeg < few
  · rw [if_pos hindex, if_pos ⟨hindex.1, Nat.lt_of_lt_of_le hindex.2 hle⟩]
    exact .refl _
  · rw [if_neg hindex]
    nofun

theorem ends_widens (params : LayerParams) : Widens (ends few params) (ends many params) :=
  (operandIndex_widens hle).bind fun _ => (operandIndex_widens hle).bind fun _ => .refl _

theorem conv2d_widens : Widens (conv2d few) (conv2d many) := by
  refine (Widens.refl _).bind fun dilation => (Widens.refl _).bind fun padding => ?_
  refine (Widens.refl _).bind fun activation => (Widens.refl _).bind fun inputNum => ?_
  refine (Widens.refl _).bind fun outputNum => (Widens.refl _).bind fun kernelSize => ?_
  refine (Widens.refl _).bind fun biased => (Widens.refl _).bind fun weights => ?_
  exact (Widens.refl _).bind fun biases => ends_widens hle _

theorem dense_widens : Widens (dense few) (dense many) := by
  refine (Widens.refl _).bind fun activation => (Widens.refl _).bind fun inputNum => ?_
  refine (Widens.refl _).bind fun outputNum => (Widens.refl _).bind fun biased => ?_
  refine (Widens.refl _).bind fun weights => (Widens.refl _).bind fun biases => ?_
  exact ends_widens hle _

theorem mirrorPad_widens : Widens (mirrorPad few) (mirrorPad many) := by
  refine (Widens.refl _).bind fun mode => (Widens.refl _).bind fun batch => ?_
  refine (Widens.refl _).bind fun height => (Widens.refl _).bind fun width => ?_
  exact (Widens.refl _).bind fun channels => ends_widens hle _

theorem binarySide_widens : Widens (binarySide few) (binarySide many) := by
  refine (Widens.refl flag).bind fun scalar => ?_
  cases scalar with
  | true => exact .refl _
  | false => exact (operandIndex_widens hle).bind fun _ => .refl _

theorem mathBinary_widens : Widens (mathBinary few) (mathBinary many) := by
  refine (Widens.refl _).bind fun op => ?_
  refine (binarySide_widens hle).bind fun left => (binarySide_widens hle).bind fun right => ?_
  exact .check ((operandIndex_widens hle).bind fun output => .refl _)

theorem avgPool_widens : Widens (avgPool few) (avgPool many) := by
  refine (Widens.refl _).bind fun strides => (Widens.refl _).bind fun padding => ?_
  exact (Widens.refl _).bind fun kernelSize => ends_widens hle _

theorem payload_widens (kind : LayerKind) : Widens (payload few kind) (payload many kind) := by
  cases kind with
  | identity => exact ends_widens hle _
  | conv2d => exact conv2d_widens hle
  | depthToSpace => exact (Widens.refl _).bind fun block => ends_widens hle _
  | mirrorPad => exact mirrorPad_widens hle
  | maximum => exact (Widens.refl _).bind fun value => ends_widens hle _
  | mathBinary => exact mathBinary_widens hle
  | mathUnary => exact (Widens.refl _).bind fun op => ends_widens hle _
  | avgPool => exact avgPool_widens hle
  | dense => exact dense_widens hle

theorem layer_widens : Widens (layer few) (layer many) :=
  (Widens.refl _).bind (payload_widens hle)

theorem layers_widens (count : Nat) : Widens (times count (layer few)) (times count (layer many)) := by
  unfold times
  induction List.range count with
  | nil => exact .refl _
  | cons step steps ih =>
    rw [List.mapM_cons, List.mapM_cons]
    exact (layer_widens hle).bind fun first => ih.bind fun others => .refl _

end
end Inference.Reader
