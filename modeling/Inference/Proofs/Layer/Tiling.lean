import Inference.Proofs.Kernel.DepthToSpace
import Inference.Proofs.Layer.Image
/-! What a layer that lays channels out as tiles does to the operands: where the channels make whole
tiles it moves every value to a place of its own, and otherwise it is refused and nothing changes. -/
namespace Inference

namespace DepthToSpace

/-- Each axis of the image has grown by the size of a tile, which took the channels. Each value stands
where its channel has its pixel in the tile; the loops take the values from the first to the last and
write each place once, so that places and values correspond one to one and the values are the same
ones in another order. -/
structure Rearranges (block : Nat) (i j : Image) : Prop where
  height : j.height = i.height * block
  width : j.width = i.width * block
  channels : i.channels = block * block * j.channels
  dataType : j.dataType = i.dataType
  pixel : ∀ y < i.height, ∀ x < i.width, ∀ ty < block, ∀ tx < block, ∀ channel < j.channels,
    j.pixel (y * block + ty) (x * block + tx) channel =
      i.pixel y x ((ty * block + tx) * j.channels + channel)
  loops : placeTiles block j.channels i = (moves block j.channels i.height i.width).foldlM
    (copy block j.channels i) (.replicate i.values.size .zero)
  made : placeTiles block j.channels i = .ok j.values
  reads : (moves block j.channels i.height i.width).map (Move.source block j.channels i.width) =
    List.range i.values.size
  writes : ((moves block j.channels i.height i.width).map
    (Move.target block j.channels i.width)).Perm (List.range j.values.size)
  bijective : Set.BijOn (origin block j.channels i.width) {n | n < j.values.size}
    {n | n < i.values.size}
  values : j.values.toList.Perm i.values.toList

variable {block : Nat} {i : Image}

theorem rearranges_picture (harea : block * block ∣ i.channels) (hi : i.Whole) :
    Rearranges block i (picture block i) := by
  have hcount := channels_eq harea
  have hinput : i.values.size =
      i.height * i.width * (block * block * (i.channels / (block * block))) := by
    rw [hi.count, ← hcount]
  have houtput : (picture block i).values.size =
      i.height * block * (i.width * block) * (i.channels / (block * block)) := rowMajor_size
  refine ⟨rfl, rfl, hcount, rfl, fun y hy x hx ty hty tx htx channel hchannel => ?_,
    placeTiles_eq_moves, placeTiles_eq hi hcount, hinput ▸ moves_source, houtput ▸ moves_target, ?_,
    values_perm hi hcount⟩
  · refine (Image.drawn_pixel (mul_add_lt_mul hy hty) (mul_add_lt_mul hx htx) hchannel).trans ?_
    obtain ⟨hrow, hty⟩ := mul_add_div_mod (a := y) hty
    obtain ⟨hcolumn, htx⟩ := mul_add_div_mod (a := x) htx
    rw [value, hrow, hcolumn, hty, htx]
    rfl
  · rw [hinput, houtput]
    exact origin_bijOn

end DepthToSpace

namespace Layer

variable {block : Nat} {i : Image} {o : Operand} {s : Store} {input output : Nat}

section

variable (ho : s.operands[input]? = some o) (hshows : o.Shows i) (hi : i.WellFormed)
  (hout : output < s.operands.size)

include ho hshows hi hout

theorem compute_depthToSpace : (Layer.mk (.depthToSpace block) [input] output).compute s.operands =
    DepthToSpace.apply block i := by
  unfold compute
  rw [strayIndex?_single _ ho hout, image_single _ ho hshows hi.whole hi.size_lt]
  rfl

variable (hblock : 0 < block)

include hblock

theorem exec_depthToSpace_of_even (harea : block * block ∣ i.channels) :
    ((Layer.mk (.depthToSpace block) [input] output).exec s).1 = .ok () ∧
      ∃ q, ((Layer.mk (.depthToSpace block) [input] output).exec s).2.operands[output]? = some q ∧
        q.Shows (DepthToSpace.picture block i) :=
  exec_image ((compute_depthToSpace ho hshows hi hout).trans
    (DepthToSpace.apply_eq hblock harea hi)) hout (DepthToSpace.picture_wellFormed harea hi)

theorem exec_depthToSpace_of_uneven (hlimit : block * block < Checked.sizeLimit)
    (harea : ¬block * block ∣ i.channels) :
    (Layer.mk (.depthToSpace block) [input] output).exec s =
      (.error (.unevenBlocks i.channels (block * block)), s) :=
  exec_refused ((compute_depthToSpace ho hshows hi hout).trans
    (DepthToSpace.apply_uneven hblock hlimit harea))

end

/-- A layer that lays out tiles and whose input operand holds an image: it succeeds just where the
channels make whole tiles, and then the output operand holds the image rearranged. Otherwise it changes
nothing. No operand but the output changes. -/
theorem exec_depthToSpace (hblock : 0 < block) (hlimit : block * block < Checked.sizeLimit)
    (ho : s.operands[input]? = some o) (hshows : o.Shows i) (hi : i.WellFormed)
    (hout : output < s.operands.size) :
    (((Layer.mk (.depthToSpace block) [input] output).exec s).1 = .ok () ↔
      block * block ∣ i.channels) ∧
    (block * block ∣ i.channels → ∃ q j,
      ((Layer.mk (.depthToSpace block) [input] output).exec s).2.operands[output]? = some q ∧
        q.Shows j ∧ j.WellFormed ∧ DepthToSpace.Rearranges block i j) ∧
    (¬block * block ∣ i.channels → (Layer.mk (.depthToSpace block) [input] output).exec s =
      (.error (.unevenBlocks i.channels (block * block)), s)) ∧
    OthersUnchanged (· = output) s.operands
      ((Layer.mk (.depthToSpace block) [input] output).exec s).2.operands := by
  have heven := exec_depthToSpace_of_even ho hshows hi hout hblock
  have huneven := exec_depthToSpace_of_uneven ho hshows hi hout hblock hlimit
  refine ⟨⟨fun hok => ?_, fun h => (heven h).1⟩, fun h => ?_, huneven,
    (Layer.mk (.depthToSpace block) [input] output).exec_frame s⟩
  · by_contra hnot
    rw [huneven hnot] at hok
    cases hok
  · obtain ⟨-, q, hq, hshown⟩ := heven h
    exact ⟨q, _, hq, hshown, DepthToSpace.picture_wellFormed h hi,
      DepthToSpace.rearranges_picture h hi.whole⟩

/-- Two pixels of four channels. -/
def quads : Image :=
  ⟨1, 2, 4, .float, #[.zero, .ofNat 1, .ofNat 2, .ofNat 3, .ofNat 4, .ofNat 5, .ofNat 6, .ofNat 7]⟩

def quadStore : Store where
  operands := #[
    { name := "x", kind := .input, dataType := .float, dims := ⟨1, 1, 2, 4⟩, length := 32,
      data := some quads.values },
    { name := "y", kind := .output, dataType := .float, dims := ⟨-1, -1, -1, -1⟩ }]

theorem exec_quads : ((Layer.mk (.depthToSpace 2) [0] 1).exec quadStore).1 = .ok () ∧
    (∃ q j, ((Layer.mk (.depthToSpace 2) [0] 1).exec quadStore).2.operands[1]? = some q ∧
      q.Shows j ∧ j.WellFormed ∧ DepthToSpace.Rearranges 2 quads j) ∧
    (Layer.mk (.depthToSpace 3) [0] 1).exec quadStore = (.error (.unevenBlocks 4 9), quadStore) := by
  have ho : quadStore.operands[0]? = some _ := rfl
  have hwellFormed : quads.WellFormed := ⟨by decide, by decide, by decide, rfl, by decide⟩
  obtain ⟨hok, hshown, -⟩ := exec_depthToSpace (i := quads) (by decide : 0 < 2) (by decide) ho
    ⟨rfl, rfl, rfl⟩ hwellFormed (by decide : 1 < quadStore.operands.size)
  obtain ⟨-, -, hrefused, -⟩ := exec_depthToSpace (i := quads) (by decide : 0 < 3) (by decide) ho
    ⟨rfl, rfl, rfl⟩ hwellFormed (by decide : 1 < quadStore.operands.size)
  exact ⟨hok.2 (by decide), hshown (by decide), hrefused (by decide)⟩

end Layer

end Inference
