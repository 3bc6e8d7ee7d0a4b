import Inference.Proofs.Kernel.AvgPool
import Inference.Proofs.Layer.Image
/-! What a pooling layer does to the operands: either a window is larger than the image it has to lie
in and nothing changes, or its output operand holds the means of the windows. -/
namespace Inference

namespace AvgPool

section

variable (p : AvgPool)

/-- Each window of an axis covers some of the image, and where it may not stick out it lies inside. -/
def Tiles (size : Nat) : Prop :=
  ∀ n < p.count size, p.covered size n ≠ [] ∧
    (p.padding ≠ .same → p.covered size n = List.range' (n * p.strides) p.kernelSize)

/-- An axis has a position for each window, a channel stays a channel, each value is the mean over the
window at its coordinates, and the loops make just these values, with as much of the first windows
before the image as the definition says. -/
structure Pools (i j : Image) : Prop where
  height : j.height = p.count i.height
  width : j.width = p.count i.width
  channels : j.channels = i.channels
  dataType : j.dataType = i.dataType
  pixel : ∀ y < j.height, ∀ x < j.width, ∀ channel < j.channels,
    j.pixel y x channel = p.average i y x channel
  rows : p.Tiles i.height
  columns : p.Tiles i.width
  above : p.overhang i.height = .ok (p.lead i.height)
  before : p.overhang i.width = .ok (p.lead i.width)
  made : p.means i (p.lead i.height) (p.lead i.width) = .ok j.values

/-- The windows fit into both axes, or may stick out. -/
def Accepts (i : Image) : Prop := p.Fits i.height ∧ p.Fits i.width

end

variable {p : AvgPool} {i : Image} {size : Nat}

theorem Fits.tiles (hfits : p.Fits size) (h : p.WellFormed) (hsize : 0 < size) : p.Tiles size :=
  fun _ hn => ⟨covered_ne_nil h hsize hfits hn, covered_of_inside h hsize hfits hn⟩

theorem Accepts.pools_picture (haccepts : p.Accepts i) (h : p.WellFormed) (hi : i.WellFormed) :
    p.Pools i (p.picture i) := by
  obtain ⟨hfits, hfits'⟩ := haccepts
  exact ⟨rfl, rfl, rfl, rfl, fun y hy x hx channel hchannel => Image.drawn_pixel hy hx hchannel,
    hfits.tiles h hi.height, hfits'.tiles h hi.width, overhang_eq h.strides.1 hi.height,
    overhang_eq h.strides.1 hi.width, means_eq h hi hfits hfits'⟩

end AvgPool

namespace Layer

variable {p : AvgPool} {i : Image} {o : Operand} {s : Store} {input output : Nat}

section

variable (ho : s.operands[input]? = some o) (hshows : o.Shows i) (hi : i.WellFormed)
  (hout : output < s.operands.size)

include ho hshows hi hout

theorem compute_avgPool : (Layer.mk (.avgPool p) [input] output).compute s.operands = p.apply i := by
  unfold compute
  rw [strayIndex?_single _ ho hout, image_single _ ho hshows hi.whole hi.size_lt]
  rfl

theorem exec_avgPool_of_accepts (hp : p.WellFormed) (h : p.Accepts i) :
    ((Layer.mk (.avgPool p) [input] output).exec s).1 = .ok () ∧
      ∃ q j, ((Layer.mk (.avgPool p) [input] output).exec s).2.operands[output]? = some q ∧
        q.Shows j ∧ j.Whole ∧ p.Pools i j := by
  have hpicture := AvgPool.picture_wellFormed hp hi h.1 h.2
  have hcompute := (compute_avgPool (p := p) ho hshows hi hout).trans
    (AvgPool.apply_eq hp hi h.1 h.2)
  obtain ⟨hok, q, hq, hshown⟩ := exec_image hcompute hout hpicture
  exact ⟨hok, q, _, hq, hshown, hpicture.whole, h.pools_picture hp hi⟩

theorem exec_avgPool_of_refuses (h : ¬p.Accepts i) :
    (Layer.mk (.avgPool p) [input] output).exec s =
      (.error (.tooSmallForWindow i.width i.height p.kernelSize), s) := by
  refine exec_refused ((compute_avgPool ho hshows hi hout).trans ?_)
  exact AvgPool.apply_of_not_fits h

end

/-- A pooling layer whose input operand holds an image: it fails just where windows that may not stick
out are larger than the image, and then it changes nothing, otherwise the output operand holds the
means, and no other operand changes. -/
theorem exec_avgPool (hp : p.WellFormed) (ho : s.operands[input]? = some o) (hshows : o.Shows i)
    (hi : i.WellFormed) (hout : output < s.operands.size) :
    (((Layer.mk (.avgPool p) [input] output).exec s).1 = .ok () ↔
      (p.padding = .valid → p.kernelSize ≤ i.height ∧ p.kernelSize ≤ i.width)) ∧
    ((p.padding = .valid ∧ (i.height < p.kernelSize ∨ i.width < p.kernelSize)) →
      (Layer.mk (.avgPool p) [input] output).exec s =
        (.error (.tooSmallForWindow i.width i.height p.kernelSize), s)) ∧
    (((Layer.mk (.avgPool p) [input] output).exec s).1 = .ok () → ∃ q j,
      ((Layer.mk (.avgPool p) [input] output).exec s).2.operands[output]? = some q ∧
        q.Shows j ∧ j.Whole ∧ p.Pools i j) ∧
    OthersUnchanged (· = output) s.operands
      ((Layer.mk (.avgPool p) [input] output).exec s).2.operands := by
  have haccepts := exec_avgPool_of_accepts ho hshows hi hout hp
  have hrefuses := exec_avgPool_of_refuses (p := p) ho hshows hi hout
  have hvalid : p.Accepts i ↔
      (p.padding = .valid → p.kernelSize ≤ i.height ∧ p.kernelSize ≤ i.width) := by
    have hpadding := hp.padding
    unfold AvgPool.Accepts AvgPool.Fits
    cases hmode : p.padding <;> simp_all
  have hiff : ((Layer.mk (.avgPool p) [input] output).exec s).1 = .ok () ↔ p.Accepts i := by
    refine ⟨fun hok => ?_, fun h => (haccepts h).1⟩
    by_contra hnot
    rw [hrefuses hnot] at hok
    cases hok
  refine ⟨hiff.trans hvalid, fun hsmall => hrefuses fun h => ?_, fun hok => (haccepts (hiff.1 hok)).2,
    (Layer.mk (.avgPool p) [input] output).exec_frame s⟩
  have hinside := hvalid.1 h hsmall.1
  omega

/-- Windows of three by three positions, two apart. -/
def blur : AvgPool := ⟨2, .same, 3⟩

theorem exec_blur : ((Layer.mk (.avgPool blur) [0] 1).exec stripStore).1 = .ok () ∧
    ∃ q j, ((Layer.mk (.avgPool blur) [0] 1).exec stripStore).2.operands[1]? = some q ∧
      q.Shows j ∧ j.Whole ∧ blur.Pools strip j := by
  have hwellFormed : blur.WellFormed := ⟨by decide, by decide, nofun⟩
  obtain ⟨hok, -, hshown, -⟩ := exec_avgPool (p := blur) (i := strip) hwellFormed
    (rfl : stripStore.operands[0]? = some _) ⟨rfl, rfl, rfl⟩
    ⟨by decide, by decide, by decide, rfl, by decide⟩ (by decide : 1 < stripStore.operands.size)
  have haccepted := hok.2 nofun
  exact ⟨haccepted, hshown haccepted⟩

end Layer

end Inference
