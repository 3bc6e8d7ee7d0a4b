import Inference.Proofs.Kernel.Elementwise
import Inference.Proofs.Layer.Padding
import Inference.Proofs.Layer.Tiling
/-! Layers that copy: each hands the image of its input operand on as it is. -/
namespace Inference

/-- Padding that adds nothing. -/
structure MirrorPad.Unpadded (p : MirrorPad) : Prop where
  batch : p.batch = ⟨0, 0⟩
  height : p.height = ⟨0, 0⟩
  width : p.width = ⟨0, 0⟩
  channels : p.channels = ⟨0, 0⟩

theorem MirrorPad.Unpadded.compute {p : MirrorPad} {i : Image} (h : p.Unpadded) (hi : i.WellFormed) :
    (p.checkBatch >>= fun _ => p.apply i) = .ok i.tensor := by
  have hnone : ∀ (m : Margin) (size : Nat), m = ⟨0, 0⟩ → m.WellFormed ∧ p.mode.Allows m size ∧
      m.padded size = size := by
    rintro _ size rfl
    exact ⟨by constructor <;> decide, fun _ _ => ⟨Nat.zero_le _, Nat.zero_le _⟩, rfl⟩
  obtain ⟨hheight, hrows, hy⟩ := hnone _ i.height h.height
  obtain ⟨hwidth, hcolumns, hx⟩ := hnone _ i.width h.width
  obtain ⟨hchannels, hlanes, hc⟩ := hnone _ i.channels h.channels
  have hbytes : p.bytes i ≤ 2147483647 := by
    rw [bytes, hy, hx, hc, ← hi.count]
    exact hi.bytes
  have hpicture : p.picture i = i := by
    rw [picture, hy, hx, hc]
    refine hi.whole.drawn_eq fun y hy x hx channel hchannel => ?_
    have hinside := output_of_inside (p := p) hy hx hchannel
    simpa [h.height, h.width, h.channels] using hinside
  rw [checkBatch_eq_ok_iff.2 h.batch]
  exact (apply_eq ⟨hheight, hwidth, hchannels⟩ hi.whole ⟨hrows, hcolumns, hlanes⟩ hbytes).trans
    (congrArg (Except.ok ·.tensor) hpicture)

/-- Tiles of one pixel are the pixels. -/
theorem DepthToSpace.apply_one {i : Image} (hi : i.WellFormed) : apply 1 i = .ok i.tensor := by
  have hpicture : picture 1 i = i := by
    simp only [picture, Nat.mul_one, Nat.div_one]
    refine hi.whole.drawn_eq fun y _ x _ channel _ => ?_
    simp [value, Nat.mod_one]
  exact (apply_eq Nat.one_pos (Nat.one_dvd _) hi).trans (congrArg (Except.ok ·.tensor) hpicture)

/-- What leaves an image as it is. -/
inductive LayerParams.Copies : LayerParams → Prop where
  | identity : Copies .identity
  | depthToSpace : Copies (.depthToSpace 1)
  | mirrorPad {p : MirrorPad} (h : p.Unpadded) : Copies (.mirrorPad p)

/-- An operand of the table holds the image. -/
def ImageAt (xs : Array Operand) (index : Nat) (i : Image) : Prop :=
  ∃ o, xs[index]? = some o ∧ o.Shows i

namespace Layer

variable {params : LayerParams} {i : Image} {o : Operand} {s : Store} {input output : Nat}

theorem compute_copy (hparams : params.Copies) (hshows : ImageAt s.operands input i) (hi : i.WellFormed)
    (hout : output < s.operands.size) :
    (Layer.mk params [input] output).compute s.operands = .ok i.tensor := by
  obtain ⟨o, ho, hshows⟩ := hshows
  cases hparams with
  | identity =>
    have hshape := Shape.ofDims_toDims hi.whole.height hi.whole.width hi.whole.channels
    have hmap := Operand.mapValues_of_data hshows.data id
    rw [hshows.dims, hshape, hshows.dataType, Array.map_id] at hmap
    unfold compute
    rw [strayIndex?_single _ ho hout, operand_single _ ho]
    exact hmap
  | depthToSpace =>
    exact (compute_depthToSpace ho hshows hi hout).trans (DepthToSpace.apply_one hi)
  | mirrorPad h =>
    exact (compute_mirrorPad ho hshows hi.whole hi.size_lt hout).trans (h.compute hi)

/-- A layer that copies adds its output to the operands that hold the image. -/
theorem exec_copy (hparams : params.Copies) (hshows : ImageAt s.operands input i) (hi : i.WellFormed)
    (hout : output < s.operands.size) :
    ((Layer.mk params [input] output).exec s).1 = .ok () ∧
      ∀ index, ImageAt s.operands index i ∨ index = output →
        ImageAt ((Layer.mk params [input] output).exec s).2.operands index i := by
  obtain ⟨hok, hwritten⟩ := exec_image (compute_copy hparams hshows hi hout) hout hi
  refine ⟨hok, fun index hindex => ?_⟩
  by_cases heq : index = output
  · exact heq ▸ hwritten
  · obtain ⟨o, ho, hshown⟩ := hindex.resolve_right heq
    have hframe := (Layer.mk params [input] output).exec_frame s
    obtain ⟨p, hp, -, hsame⟩ := hframe.of_getElem?_some ho
    exact ⟨p, hp, hsame heq ▸ hshown⟩

/-- Without an image there is nothing to copy. -/
theorem compute_copy_of_empty (hparams : params.Copies) (ho : s.operands[input]? = some o)
    (hdata : o.data = none) (hout : output < s.operands.size) :
    ∃ e, (Layer.mk params [input] output).compute s.operands = .error e := by
  have hoperand : (Layer.mk params [input] output).operand s.operands = .ok o :=
    operand_single params ho
  obtain ⟨e, hnone⟩ := Operand.image_of_empty hdata
  have himage : (Layer.mk params [input] output).image s.operands = .error e := by
    rw [image, hoperand]
    exact hnone
  unfold compute
  rw [strayIndex?_single _ ho hout]
  cases hparams with
  | identity =>
    rw [hoperand]
    exact ⟨_, Operand.mapValues_of_empty hdata id⟩
  | depthToSpace => exact ⟨e, congrArg (· >>= DepthToSpace.apply 1) himage⟩
  | @mirrorPad p h =>
    have hbatch := MirrorPad.checkBatch_eq_ok_iff.2 h.batch
    refine ⟨e, (congrArg (· >>= fun _ => _ >>= p.apply) hbatch).trans ?_⟩
    exact congrArg (· >>= p.apply) himage

end Layer

/-- Layers that copy, each what the one before it has written, from the operand at one index to the
operand at another. -/
inductive CopyChain : Nat → List Layer → Nat → Prop where
  | nil (input : Nat) : CopyChain input [] input
  | cons {params : LayerParams} {input middle output : Nat} {layers : List Layer}
      (h : params.Copies) (rest : CopyChain middle layers output) :
    CopyChain input (⟨params, [input], middle⟩ :: layers) output

end Inference
