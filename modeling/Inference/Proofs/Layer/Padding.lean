import Inference.Proofs.Kernel.MirrorPad
import Inference.Proofs.Layer.Image
/-! What a padding layer does to the operands: either it is refused and nothing changes, or its output
operand holds the padded image, in which the image is still found. -/
namespace Inference

/-- Each position of a padded axis shows one of the axis, or it is a position outside that shows
none, in constant mode. -/
def PadMode.Covers (mode : PadMode) (m : Margin) (size : Nat) : Prop :=
  ∀ position < m.padded size, (∃ k : Nat, k < size ∧ mode.shown? m size position = some (k : Int)) ∨
    mode = .constant ∧ ¬(m.before ≤ position ∧ position < m.before + size) ∧
      mode.shown? m size position = none

theorem PadMode.Allows.covers {mode : PadMode} {m : Margin} {size : Nat}
    (h : mode.Allows m size) : mode.Covers m size := by
  intro position hposition
  cases hshown : mode.shown? m size position with
  | none =>
    obtain ⟨hmode, houtside⟩ := shown?_eq_none_iff.1 hshown
    exact .inr ⟨hmode, houtside, rfl⟩
  | some k =>
    obtain ⟨hpos, hlt⟩ := shown?_inside h hposition hshown
    refine .inl ⟨k.toNat, by omega, ?_⟩
    rw [Int.toNat_of_nonneg hpos]

/-- The part of an image from some coordinates on. -/
def Image.crop (i : Image) (top left first height width channels : Nat) : Image :=
  .drawn height width channels i.dataType fun y x channel =>
    i.pixel (top + y) (left + x) (first + channel)

namespace MirrorPad

/-- Each axis has grown by its paddings and shows positions of the image only, each value is the
output value at its coordinates, and what is left without the paddings is the image. -/
structure Pads (p : MirrorPad) (i j : Image) : Prop where
  height : j.height = i.height + p.height.before + p.height.after
  width : j.width = i.width + p.width.before + p.width.after
  channels : j.channels = i.channels + p.channels.before + p.channels.after
  dataType : j.dataType = i.dataType
  pixel : ∀ y < j.height, ∀ x < j.width, ∀ channel < j.channels,
    j.pixel y x channel = p.output i y x channel
  rows : p.mode.Covers p.height i.height
  columns : p.mode.Covers p.width i.width
  lanes : p.mode.Covers p.channels i.channels
  crop : j.crop p.height.before p.width.before p.channels.before i.height i.width i.channels = i

variable {p : MirrorPad} {i : Image}

theorem Within.pads_picture (h : p.Within i) (hi : i.Whole) : p.Pads i (p.picture i) := by
  refine ⟨rfl, rfl, rfl, rfl, fun y hy x hx channel hchannel => Image.drawn_pixel hy hx hchannel,
    h.height.covers, h.width.covers, h.channels.covers, ?_⟩
  refine hi.drawn_eq fun y hy x hx channel hchannel => ?_
  have hshift : ∀ (m : Margin) {size position : Nat}, position < size →
      m.before + position < m.padded size := by
    intro m size position hposition
    unfold Margin.padded
    omega
  rw [picture, Image.drawn_pixel (hshift _ hy) (hshift _ hx) (hshift _ hchannel)]
  exact output_of_inside hy hx hchannel

end MirrorPad

namespace Layer

variable {p : MirrorPad} {i : Image} {o : Operand} {s : Store} {input output : Nat}

section

variable (hp : p.Bounded) (ho : s.operands[input]? = some o) (hshows : o.Shows i) (hi : i.Whole)
  (hcount : i.values.size < Checked.sizeLimit) (hout : output < s.operands.size)

include ho hshows hi hcount hout

theorem compute_mirrorPad : (Layer.mk (.mirrorPad p) [input] output).compute s.operands =
    p.checkBatch >>= fun _ => p.apply i := by
  unfold compute
  rw [strayIndex?_single _ ho hout, image_single _ ho hshows hi hcount]
  rfl

include hp

theorem exec_mirrorPad_of_accepts (h : p.Accepts i) :
    ((Layer.mk (.mirrorPad p) [input] output).exec s).1 = .ok () ∧
      ∃ q j, ((Layer.mk (.mirrorPad p) [input] output).exec s).2.operands[output]? = some q ∧
        q.Shows j ∧ j.Whole ∧ p.Pads i j := by
  have hpicture := MirrorPad.picture_wellFormed hi h.bytes
  have hcompute := compute_mirrorPad (p := p) ho hshows hi hcount hout
  rw [MirrorPad.checkBatch_eq_ok_iff.2 h.batch] at hcompute
  obtain ⟨hok, q, hq, hshown⟩ := exec_image
    (hcompute.trans (MirrorPad.apply_eq hp hi h.within h.bytes)) hout hpicture
  exact ⟨hok, q, _, hq, hshown, hpicture.whole, h.within.pads_picture hi⟩

theorem exec_mirrorPad_of_refuses (h : ¬p.Accepts i) : ∃ e,
    (Layer.mk (.mirrorPad p) [input] output).exec s = (.error e, s) ∧ ¬MayFault.IsFault e := by
  have hcompute := compute_mirrorPad (p := p) ho hshows hi hcount hout
  have hfaultless : Faultless (p.checkBatch >>= fun _ => p.apply i) :=
    p.checkBatch_faultless.bind fun _ _ => MirrorPad.apply_faultless hp hi
  cases hresult : p.checkBatch >>= fun _ => p.apply i with
  | error e => exact ⟨e, exec_refused (hcompute.trans hresult), hfaultless e hresult⟩
  | ok t =>
    obtain ⟨_, hbatch, happly⟩ := bind_eq_ok.1 hresult
    obtain ⟨hwithin, hbytes⟩ := MirrorPad.of_apply_eq_ok hp hi happly
    exact absurd ⟨MirrorPad.checkBatch_eq_ok_iff.1 hbatch, hwithin, hbytes⟩ h

end

/-- A padding layer whose input operand holds an image: it succeeds just where the paddings are
accepted, then the output operand holds the padded image, and no other operand changes. -/
theorem exec_mirrorPad (hp : p.Bounded) (ho : s.operands[input]? = some o) (hshows : o.Shows i)
    (hi : i.Whole) (hcount : i.values.size < Checked.sizeLimit) (hout : output < s.operands.size) :
    (((Layer.mk (.mirrorPad p) [input] output).exec s).1 = .ok () ↔ p.Accepts i) ∧
    (p.Accepts i → ∃ q j,
      ((Layer.mk (.mirrorPad p) [input] output).exec s).2.operands[output]? = some q ∧
        q.Shows j ∧ j.Whole ∧ p.Pads i j) ∧
    (¬p.Accepts i → ∃ e, (Layer.mk (.mirrorPad p) [input] output).exec s = (.error e, s) ∧
      ¬MayFault.IsFault e) ∧
    OthersUnchanged (· = output) s.operands
      ((Layer.mk (.mirrorPad p) [input] output).exec s).2.operands := by
  have haccepts := exec_mirrorPad_of_accepts hp ho hshows hi hcount hout
  have hrefuses := exec_mirrorPad_of_refuses hp ho hshows hi hcount hout
  refine ⟨⟨fun hok => ?_, fun h => (haccepts h).1⟩, fun h => (haccepts h).2, hrefuses,
    (Layer.mk (.mirrorPad p) [input] output).exec_frame s⟩
  by_contra hnot
  obtain ⟨e, hrefused, -⟩ := hrefuses hnot
  rw [hrefused] at hok
  cases hok

/-- As many rows as can be mirrored without repeating the edge. -/
def doubled : MirrorPad where
  mode := .reflect
  batch := ⟨0, 0⟩
  height := ⟨2, 2⟩
  width := ⟨0, 1⟩
  channels := ⟨0, 0⟩
  constant := .zero

theorem exec_doubled : ((Layer.mk (.mirrorPad doubled) [0] 1).exec stripStore).1 = .ok () ∧
    ∃ q j, ((Layer.mk (.mirrorPad doubled) [0] 1).exec stripStore).2.operands[1]? = some q ∧
      q.Shows j ∧ j.Whole ∧ doubled.Pads strip j := by
  have hbounded : doubled.Bounded := by
    refine ⟨⟨?_, ?_⟩, ⟨?_, ?_⟩, ⟨?_, ?_⟩⟩ <;> decide
  have hstrip : strip.Whole :=
    ⟨by decide, by decide, by decide, rfl⟩
  have haccepts : doubled.Accepts strip := by
    refine ⟨rfl, ⟨?_, ?_, ?_⟩, by decide⟩ <;> rintro _ ⟨⟩ <;> decide
  obtain ⟨hok, hshown, -⟩ := exec_mirrorPad hbounded (rfl : stripStore.operands[0]? = some _)
    ⟨rfl, rfl, rfl⟩ hstrip (by decide) (by decide : 1 < stripStore.operands.size)
  exact ⟨hok.2 haccepts, hshown haccepts⟩

end Layer

end Inference
