import Inference.Proofs.Kernel.Filling
import Inference.Proofs.Kernel.Tensor
import Inference.Proofs.ModelFile.WellFormed
import Mathlib.Data.List.Nodup
import Mathlib.Data.List.Perm.Subperm
import Mathlib.Data.Set.Function
/-! Every channel of an image has its place among the tiles: the loops take the values in the order
in which they stand, and put one into each place of the output. -/
namespace Inference.DepthToSpace

/-- One value on its way: a channel of the pixel at `y`, `x` goes to the pixel at `ty`, `tx` of its
tile. -/
structure Move where
  y : Nat
  x : Nat
  ty : Nat
  tx : Nat
  channel : Nat

namespace Move

variable (block depth width : Nat) (m : Move)

/-- The channel of the pixel that is taken. -/
def lane : Nat := (m.ty * block + m.tx) * depth + m.channel

/-- The position of the value in the input. -/
def source : Nat := (m.y * width + m.x) * (block * block * depth) + m.lane block depth

/-- The position of the value in the output. -/
def target : Nat := DepthToSpace.target block depth width m.y m.x m.ty m.tx m.channel

structure Inside (height : Nat) : Prop where
  y : m.y < height
  x : m.x < width
  ty : m.ty < block
  tx : m.tx < block
  channel : m.channel < depth

end Move

/-- Takes one value and puts it down. -/
def copy (block depth : Nat) (i : Image) (out : Array Single) (m : Move) :
    Except Fault (Array Single) := do
  let value ← i.read m.y m.x (m.lane block depth)
  Checked.write out (m.target block depth i.width) value

/-- What the loops move, in their order. -/
def moves (block depth height width : Nat) : List Move :=
  (List.range height).flatMap fun y => (List.range width).flatMap fun x =>
    (List.range block).flatMap fun ty => (List.range block).flatMap fun tx =>
      (List.range depth).map fun channel => ⟨y, x, ty, tx, channel⟩

variable {block depth height width : Nat} {i : Image}

theorem placeTiles_eq_moves : placeTiles block depth i =
    (moves block depth i.height i.width).foldlM (copy block depth i)
      (.replicate i.values.size .zero) := by
  simp only [moves, foldlM_flatMap, List.foldlM_map]
  rfl

theorem mem_moves {m : Move} : m ∈ moves block depth height width ↔
    m.Inside block depth width height := by
  simp only [moves, List.mem_flatMap, List.mem_map, List.mem_range]
  constructor
  · rintro ⟨y, hy, x, hx, ty, hty, tx, htx, channel, hchannel, rfl⟩
    exact ⟨hy, hx, hty, htx, hchannel⟩
  · rintro ⟨hy, hx, hty, htx, hchannel⟩
    exact ⟨_, hy, _, hx, _, hty, _, htx, _, hchannel, rfl⟩

/-- The input is read from its first value to its last. -/
theorem moves_source : (moves block depth height width).map (Move.source block depth width) =
    List.range (height * width * (block * block * depth)) := by
  have htile : ∀ y x, ((List.range block).flatMap fun ty => (List.range block).flatMap fun tx =>
      (List.range depth).map fun channel =>
        (Move.mk y x ty tx channel).source block depth width) =
      (List.range (block * block * depth)).map ((y * width + x) * (block * block * depth) + ·) := by
    intro y x
    have hpair := flatMap_range_mul block block fun pixel => (List.range depth).map fun channel =>
      (y * width + x) * (block * block * depth) + (pixel * depth + channel)
    have hlane := flatMap_range_mul (block * block) depth fun lane =>
      [(y * width + x) * (block * block * depth) + lane]
    simp only [← List.map_eq_flatMap] at hlane
    exact hpair.trans hlane
  have hpixel := flatMap_range_mul height width fun pixel =>
    (List.range (block * block * depth)).map (pixel * (block * block * depth) + ·)
  have hall := flatMap_range_mul (height * width) (block * block * depth) fun n => [n]
  simp only [← List.map_eq_flatMap] at hall
  simp only [moves, List.map_flatMap, List.map_map, Function.comp_def, htile]
  rw [hpixel, hall, List.map_id']

theorem moves_length : (moves block depth height width).length =
    height * width * (block * block * depth) := by
  rw [← List.length_map (Move.source block depth width), moves_source, List.length_range]

/-- The tiles have as many places as the image has values. -/
theorem places_eq : height * block * (width * block) * depth =
    height * width * (block * block * depth) := by ac_rfl

theorem target_lt {m : Move} (h : m.Inside block depth width height) :
    m.target block depth width < height * block * (width * block) * depth :=
  mul_add_lt_mul (mul_add_lt_mul (mul_add_lt_mul h.y h.ty) (mul_add_lt_mul h.x h.tx)) h.channel

/-- What is put down at a position. -/
def Move.into (block depth width n : Nat) : Move where
  y := n / depth / (width * block) / block
  x := n / depth % (width * block) / block
  ty := n / depth / (width * block) % block
  tx := n / depth % (width * block) % block
  channel := n % depth

theorem into_eq_of_target {n : Nat} {m : Move} (h : m.Inside block depth width height)
    (hn : n = m.target block depth width) : Move.into block depth width n = m := by
  obtain ⟨hrow, hcolumn, hchannel⟩ := (eq_position_iff (mul_add_lt_mul h.x h.tx) h.channel).1 hn
  obtain ⟨hy, hty⟩ := mul_add_div_mod (a := m.y) h.ty
  obtain ⟨hx, htx⟩ := mul_add_div_mod (a := m.x) h.tx
  unfold Move.into
  rw [hrow, hcolumn, hchannel, hy, hty, hx, htx]

theorem into_inside {n : Nat} (hn : n < height * block * (width * block) * depth) :
    (Move.into block depth width n).Inside block depth width height ∧
      (Move.into block depth width n).target block depth width = n := by
  have hpos : 0 < height * block * (width * block) * depth := Nat.zero_lt_of_lt hn
  have hdepth : 0 < depth := Nat.pos_of_mul_pos_left hpos
  have hcolumns : 0 < width * block := Nat.pos_of_mul_pos_left (Nat.pos_of_mul_pos_right hpos)
  have hblock : 0 < block := Nat.pos_of_mul_pos_left hcolumns
  have hcolumn := Nat.mod_lt (n / depth) hcolumns
  refine ⟨⟨?_, ?_, Nat.mod_lt _ hblock, Nat.mod_lt _ hblock, Nat.mod_lt _ hdepth⟩, ?_⟩
  · exact Nat.div_lt_of_lt_mul (Nat.mul_comm block height ▸ row_lt hn)
  · exact Nat.div_lt_of_lt_mul (Nat.mul_comm block width ▸ hcolumn)
  · simp only [Move.target, Move.into, DepthToSpace.target, Nat.div_add_mod']

/-- Each position of the output is written once. -/
theorem moves_target : ((moves block depth height width).map (Move.target block depth width)).Perm
    (List.range (height * block * (width * block) * depth)) := by
  have hsubset : List.range (height * block * (width * block) * depth) ⊆
      (moves block depth height width).map (Move.target block depth width) := by
    intro n hn
    obtain ⟨hinside, htarget⟩ := into_inside (List.mem_range.1 hn)
    exact List.mem_map.2 ⟨_, mem_moves.2 hinside, htarget⟩
  refine ((List.subperm_of_subset List.nodup_range hsubset).perm_of_length_le ?_).symm
  rw [List.length_map, moves_length, List.length_range, places_eq]

/-- The position in the input of the value that ends up at a position of the output. -/
def origin (block depth width n : Nat) : Nat :=
  (Move.into block depth width n).source block depth width

/-- Between the positions of the output and those of the input the values move one to one. -/
theorem origin_bijOn : Set.BijOn (origin block depth width)
    {n | n < height * block * (width * block) * depth}
    {n | n < height * width * (block * block * depth)} := by
  have hsource : ∀ m : Move, m.Inside block depth width height →
      m.source block depth width < height * width * (block * block * depth) := fun m hm => by
    rw [← List.mem_range, ← moves_source]
    exact List.mem_map_of_mem (mem_moves.2 hm)
  have honce : ((moves block depth height width).map (Move.source block depth width)).Nodup := by
    rw [moves_source]
    exact List.nodup_range
  refine ⟨fun n hn => hsource _ (into_inside hn).1, fun a ha b hb hsame => ?_, fun k hk => ?_⟩
  · obtain ⟨hinsideA, htargetA⟩ := into_inside ha
    obtain ⟨hinsideB, htargetB⟩ := into_inside hb
    have hmove := List.inj_on_of_nodup_map honce (mem_moves.2 hinsideA) (mem_moves.2 hinsideB) hsame
    rw [← htargetA, ← htargetB, hmove]
  · have hread : k ∈ (moves block depth height width).map (Move.source block depth width) := by
      rw [moves_source]
      exact List.mem_range.2 hk
    obtain ⟨m, hm, rfl⟩ := List.mem_map.1 hread
    have hinside := mem_moves.1 hm
    exact ⟨_, target_lt hinside, congrArg (Move.source block depth width)
      (into_eq_of_target hinside rfl)⟩

/-- The value that is moved. -/
def Move.value (block depth : Nat) (i : Image) (m : Move) : Single :=
  i.pixel m.y m.x (m.lane block depth)

/-- The value at a coordinate among the tiles. -/
def value (block depth : Nat) (i : Image) (row column channel : Nat) : Single :=
  i.pixel (row / block) (column / block)
    ((row % block * block + column % block) * depth + channel)

theorem rowMajor_value : rowMajor (height * block) (width * block) depth (value block depth i) =
    (Array.range (height * block * (width * block) * depth)).map fun n =>
      (Move.into block depth width n).value block depth i := rfl

theorem value_into {m : Move} (hm : m.Inside block depth width height) :
    (Move.into block depth width (m.target block depth width)).value block depth i =
      m.value block depth i := by
  rw [into_eq_of_target hm rfl]

section

variable (hi : i.Whole) (hcount : i.channels = block * block * depth)

include hcount

theorem lane_lt {m : Move} (h : m.Inside block depth width height) :
    m.lane block depth < i.channels := by
  rw [hcount]
  exact mul_add_lt_mul (mul_add_lt_mul h.ty h.tx) h.channel

include hi

theorem size_eq : i.values.size = i.height * block * (i.width * block) * depth := by
  rw [hi.count, hcount, places_eq]

theorem copy_yields {m : Move} (hm : m.Inside block depth i.width i.height) {out : Array Single}
    (hout : out.size = i.values.size) :
    Yields (Filled (fun n => (Move.into block depth i.width n).value block depth i)
      (· = m.target block depth i.width) out) (copy block depth i out m) := by
  have hplace : m.target block depth i.width < out.size := by
    rw [hout, size_eq hi hcount]
    exact target_lt hm
  refine .of_eq (hi.read_eq hm.y hm.x (lane_lt hcount hm)) ?_
  rw [← Move.value, ← value_into hm]
  exact Filled.write hplace

/-- Every place is written, with the value that belongs there. -/
theorem placeTiles_eq : placeTiles block depth i =
    .ok (rowMajor (i.height * block) (i.width * block) depth (value block depth i)) := by
  have hzeros : (Array.replicate i.values.size Single.zero).size =
      i.height * block * (i.width * block) * depth := by
    rw [Array.size_replicate, size_eq hi hcount]
  obtain ⟨out, hrun, hfilled⟩ := Filled.foldlM (fun m n => n = m.target block depth i.width)
    fun m hm now hnow => copy_yields hi hcount (mem_moves.1 hm) (hnow.trans Array.size_replicate)
  rw [placeTiles_eq_moves, hrun, rowMajor_value, ← hzeros, hfilled.eq_map_range]
  intro n hn
  obtain ⟨hinside, htarget⟩ := into_inside (hzeros ▸ hn)
  exact ⟨_, mem_moves.2 hinside, htarget.symm⟩

/-- No value is lost and none is made up. -/
theorem values_perm : (rowMajor (i.height * block) (i.width * block) depth
    (value block depth i)).toList.Perm i.values.toList := by
  have hsource : (moves block depth i.height i.width).map (Move.value block depth i) =
      i.values.toList := by
    have hread : ∀ m, Move.value block depth i m =
        i.values.getD (m.source block depth i.width) .zero := fun m => by
      unfold Move.value Image.pixel Image.position Move.source
      rw [hcount]
    have hall : (List.range i.values.size).map (i.values.getD · .zero) = i.values.toList := by
      refine List.ext_getElem (by simp) fun n hn _ => ?_
      simp only [List.length_map, List.length_range] at hn
      simp [hn]
    rw [← hall, hi.count, hcount, ← moves_source, List.map_map]
    exact List.map_congr_left fun m _ => hread m
  have htarget : ∀ m ∈ moves block depth i.height i.width,
      (Move.into block depth i.width (m.target block depth i.width)).value block depth i =
        m.value block depth i :=
    fun m hm => value_into (mem_moves.1 hm)
  rw [rowMajor_value, Array.toList_map, Array.toList_range]
  refine (moves_target.symm.map _).trans (.of_eq ?_)
  rw [← hsource, List.map_map]
  exact List.map_congr_left htarget

end

/-- The tiles of the image. -/
def picture (block : Nat) (i : Image) : Image :=
  .drawn (i.height * block) (i.width * block) (i.channels / (block * block)) i.dataType
    (value block (i.channels / (block * block)) i)

section

variable (harea : block * block ∣ i.channels)

include harea

theorem channels_eq : i.channels = block * block * (i.channels / (block * block)) :=
  (Nat.mul_div_cancel' harea).symm

variable (hi : i.WellFormed)

include hi

theorem depth_pos : 0 < i.channels / (block * block) :=
  Nat.pos_of_mul_pos_left (channels_eq harea ▸ hi.channels)

theorem block_le : block ≤ 536870911 := by
  have hle : block * block ≤ i.channels := Nat.le_of_dvd hi.channels harea
  have hpos : 0 < block * block := Nat.pos_of_mul_pos_right (channels_eq harea ▸ hi.channels)
  have hchannels := hi.channels_le
  calc block ≤ block * block := Nat.le_mul_of_pos_left _ (Nat.pos_of_mul_pos_left hpos)
    _ ≤ 536870911 := by omega

theorem picture_wellFormed : (picture block i).WellFormed := by
  have hpos : 0 < block * block := Nat.pos_of_mul_pos_right (channels_eq harea ▸ hi.channels)
  have hblock : 0 < block := Nat.pos_of_mul_pos_left hpos
  have hsize : (picture block i).values.size = i.values.size :=
    rowMajor_size.trans (size_eq hi.whole (channels_eq harea)).symm
  exact ⟨Nat.mul_pos hi.height hblock, Nat.mul_pos hi.width hblock, depth_pos harea hi,
    rowMajor_size, hsize ▸ hi.bytes⟩

end

/-- Where the channels make whole tiles, there is room for all of them. -/
theorem apply_eq (hpos : 0 < block) (harea : block * block ∣ i.channels) (hi : i.WellFormed) :
    apply block i = .ok (picture block i).tensor := by
  have hblock := block_le harea hi
  have hheight := hi.height_le
  have hwidth := hi.width_le
  have hfits : ∀ n ≤ 536870911, n * block < Checked.sizeLimit := fun n hn => by
    calc n * block ≤ 536870911 * 536870911 := Nat.mul_le_mul hn hblock
      _ < Checked.sizeLimit := by decide
  refine (lift_bind_eq (Checked.mul_of_lt (hfits block hblock)) _).trans ?_
  refine (lift_bind_eq (Checked.mod_of_pos (Nat.mul_pos hpos hpos)) _).trans ?_
  refine (if_neg (not_not.2 (Nat.mod_eq_zero_of_dvd harea))).trans ?_
  refine (lift_bind_eq (Checked.mul_of_lt (hfits _ hheight)) _).trans ?_
  refine (lift_bind_eq (Checked.mul_of_lt (hfits _ hwidth)) _).trans ?_
  exact lift_bind_eq (placeTiles_eq hi.whole (channels_eq harea)) _

theorem apply_uneven (hpos : 0 < block) (hlimit : block * block < Checked.sizeLimit)
    (harea : ¬block * block ∣ i.channels) :
    apply block i = .error (.unevenBlocks i.channels (block * block)) := by
  refine (lift_bind_eq (Checked.mul_of_lt hlimit) _).trans ?_
  refine (lift_bind_eq (Checked.mod_of_pos (Nat.mul_pos hpos hpos)) _).trans ?_
  exact if_pos fun heven => harea (Nat.dvd_of_mod_eq_zero heven)

theorem area_lt (hblock : IsSize block) : block * block < Checked.sizeLimit := by
  calc block * block ≤ 2147483648 * 2147483648 :=
        Nat.mul_le_mul (Nat.le_of_lt hblock.2) (Nat.le_of_lt hblock.2)
    _ < Checked.sizeLimit := by decide

theorem apply_faultless (hblock : IsSize block) (hi : i.WellFormed) :
    Faultless (apply block i) := by
  by_cases harea : block * block ∣ i.channels
  · rw [apply_eq hblock.1 harea hi]
    exact .ok _
  · rw [apply_uneven hblock.1 (area_lt hblock) harea]
    exact .error not_false

theorem apply_oneImage (block : Nat) (i : Image) : Ensures (·.OneImage i) (apply block i) := by
  refine .bind fun _ _ => .bind fun _ _ => .check fun _ => ?_
  exact .bind fun _ _ => .bind fun _ _ => .bind fun _ _ => .ok ⟨rfl, rfl⟩

theorem apply_matched (block : Nat) (i : Image) :
    Avoids KernelError.IsMismatch (apply block i) := by
  have hlift : ∀ fault, ¬(KernelError.fault fault).IsMismatch := fun _ => not_false
  refine .bind (.lift hlift) fun _ _ => .bind (.lift hlift) fun _ _ => .check not_false fun _ => ?_
  refine .bind (.lift hlift) fun _ _ => .bind (.lift hlift) fun _ _ => ?_
  exact .bind (.lift hlift) fun _ _ => .ok _

/-- Tiles have as many values as the pixels that they are made of. -/
theorem apply_writable (hblock : IsSize block) (hi : i.WellFormed) :
    Ensures Tensor.Writable (apply block i) := by
  by_cases harea : block * block ∣ i.channels
  · rw [apply_eq hblock.1 harea hi]
    exact .ok (picture_wellFormed harea hi).writable
  · rw [apply_uneven hblock.1 (area_lt hblock) harea]
    exact .error _

end Inference.DepthToSpace
