import Inference.Kernel.MirrorPad
import Inference.Proofs.Kernel.Tensor
/-! Padding by its definition: a padded axis shows positions of the image only, those of the image
itself at their places, and each output value is the one at the positions its coordinates show. -/
namespace Inference

/-- The size of an axis with its paddings. -/
def Margin.padded (m : Margin) (size : Nat) : Nat := size + m.before + m.after

theorem Margin.padded_pos {size : Nat} (m : Margin) (hsize : 0 < size) : 0 < m.padded size :=
  Nat.add_pos_left (Nat.add_pos_left hsize _) _

namespace PadMode

/-- The paddings of an axis are within the limit of the mode. -/
def Allows (mode : PadMode) (m : Margin) (size : Nat) : Prop :=
  ∀ limit ∈ mode.limit? size, m.before ≤ limit ∧ m.after ≤ limit

/-- The position of an axis that is shown so far from its start, which may be before the start or
beyond the end. -/
def mirrored? (mode : PadMode) (size : Nat) (offset : Int) : Option Int :=
  if 0 ≤ offset ∧ offset < size then some offset
  else
    match mode with
    | .constant => none
    | .reflect => some (if offset < 0 then -offset else 2 * size - 2 - offset)
    | .symmetric => some (if offset < 0 then -offset - 1 else 2 * size - 1 - offset)

/-- The position that an output position of a padded axis shows. -/
def shown? (mode : PadMode) (m : Margin) (size position : Nat) : Option Int :=
  mode.mirrored? size (position - m.before)

variable {mode : PadMode} {m : Margin} {size position : Nat}

theorem mirrored?_of_inside {offset : Int} (h : 0 ≤ offset ∧ offset < size) :
    mode.mirrored? size offset = some offset := if_pos h

theorem shown?_before_add (hposition : position < size) :
    mode.shown? m size (m.before + position) = some (position : Int) := by
  have hoffset : ((m.before + position : Nat) : Int) - m.before = position := by omega
  rw [shown?, hoffset, mirrored?_of_inside (by omega)]

/-- Only constant padding shows nothing of the image, and only outside of it. -/
theorem shown?_eq_none_iff : mode.shown? m size position = none ↔
    mode = .constant ∧ ¬(m.before ≤ position ∧ position < m.before + size) := by
  unfold shown? mirrored?
  split
  next hinside =>
    refine ⟨nofun, ?_⟩
    rintro ⟨-, houtside⟩
    omega
  next houtside =>
    cases mode with
    | constant => exact ⟨fun _ => ⟨rfl, by omega⟩, fun _ => rfl⟩
    | reflect => exact ⟨nofun, fun h => nomatch h.1⟩
    | symmetric => exact ⟨nofun, fun h => nomatch h.1⟩

/-- Paddings that are no longer than allowed never reach past the far end. -/
theorem shown?_inside {k : Int} (hallows : mode.Allows m size) (hposition : position < m.padded size)
    (hk : mode.shown? m size position = some k) : 0 ≤ k ∧ k < size := by
  unfold Margin.padded at hposition
  unfold shown? mirrored? at hk
  split at hk
  next hinside =>
    cases hk
    exact hinside
  next =>
    cases mode with
    | constant => cases hk
    | reflect =>
      obtain ⟨hbefore, hafter⟩ := hallows _ rfl
      cases hk
      split <;> omega
    | symmetric =>
      obtain ⟨hbefore, hafter⟩ := hallows _ rfl
      cases hk
      split <;> omega

/-- None of the steps to a position that is shown leaves the signed 64-bit numbers. -/
theorem source_eq (hm : m.WellFormed) (hallows : mode.Allows m size) (hsize : size < 2 ^ 31)
    (hposition : position < m.padded size) :
    mode.source m.before size position = .ok ((mode.shown? m size position).map Int.toNat) := by
  obtain ⟨hbefore, hafter⟩ := hm
  have hinside := fun k => shown?_inside (k := k) hallows hposition
  unfold Margin.padded at hposition
  have hoffset := Checked.offset_of_bounds (i := (position : Int) - m.before)
    (by unfold Checked.offsetLimit; omega)
  have hdouble := Checked.offset_of_bounds (i := 2 * (size : Int))
    (by unfold Checked.offsetLimit; omega)
  -- what is shown lies inside the axis, so its position is one for the machine, too
  have hplace : ∀ k : Int, mode.shown? m size position = some k →
      some <$> Checked.place k = .ok ((mode.shown? m size position).map Int.toNat) := by
    intro k hk
    obtain ⟨hpos, hlt⟩ := hinside k hk
    rw [Checked.place_of_bounds hpos (by unfold Checked.offsetLimit; omega), hk]
    rfl
  refine bind_eq_ok.2 ⟨_, hoffset, ?_⟩
  by_cases hin : 0 ≤ (position : Int) - m.before ∧ (position : Int) - m.before < size
  · rw [shown?, mirrored?_of_inside hin, if_pos hin]
    rfl
  · rw [if_neg hin]
    have hshown : mode.shown? m size position = _ := if_neg hin
    cases mode with
    | constant =>
      rw [hshown]
      rfl
    | reflect =>
      by_cases hnegative : (position : Int) - m.before < 0
      · simp only [if_pos hnegative] at hshown ⊢
        exact hplace _ hshown
      · simp only [if_neg hnegative] at hshown ⊢
        exact bind_eq_ok.2 ⟨_, hdouble, hplace _ hshown⟩
    | symmetric =>
      by_cases hnegative : (position : Int) - m.before < 0
      · simp only [if_pos hnegative] at hshown ⊢
        exact hplace _ hshown
      · simp only [if_neg hnegative] at hshown ⊢
        exact bind_eq_ok.2 ⟨_, hdouble, hplace _ hshown⟩

end PadMode

namespace MirrorPad

section

variable (p : MirrorPad) (i : Image)

/-- A signed word can hold each of the paddings. -/
structure Bounded : Prop where
  height : p.height.WellFormed
  width : p.width.WellFormed
  channels : p.channels.WellFormed

/-- Every padding is within the limit of the mode. -/
structure Within : Prop where
  height : p.mode.Allows p.height i.height
  width : p.mode.Allows p.width i.width
  channels : p.mode.Allows p.channels i.channels

/-- The number of bytes of the output. -/
def bytes : Nat :=
  4 * (p.height.padded i.height * p.width.padded i.width * p.channels.padded i.channels)

/-- Images stay on their own, no padding is too long for its mode, and a signed 32-bit number counts
the bytes of the output. -/
structure Accepts : Prop where
  batch : p.batch = ⟨0, 0⟩
  within : p.Within i
  bytes : p.bytes i ≤ 2147483647

/-- The image's value at the positions that the coordinates show, or the constant where one of them
shows none. -/
def output (y x channel : Nat) : Single :=
  match p.mode.shown? p.height i.height y, p.mode.shown? p.width i.width x,
    p.mode.shown? p.channels i.channels channel with
  | some row, some column, some channel => i.pixel row.toNat column.toNat channel.toNat
  | _, _, _ => p.constant

/-- The padded image. -/
def picture : Image :=
  .drawn (p.height.padded i.height) (p.width.padded i.width) (p.channels.padded i.channels)
    i.dataType (p.output i)

end

variable {p : MirrorPad} {i : Image} {mode : PadMode} {axis size : Nat} {m : Margin}

theorem WellFormed.bounded (h : p.WellFormed) : p.Bounded := ⟨h.height, h.width, h.channels⟩

theorem checkAxis_eq_ok_iff : checkAxis mode axis size m = .ok () ↔ mode.Allows m size := by
  unfold checkAxis PadMode.Allows
  cases hlimit : mode.limit? size with
  | none => simp
  | some limit =>
    simp only [Option.mem_def, Option.some.injEq, forall_eq']
    by_cases hlong : m.before > limit ∨ m.after > limit
    · simp only [if_pos hlong, reduceCtorEq, false_iff]
      omega
    · simp only [if_neg hlong, true_iff]
      omega

theorem checkAxis_avoids {Bad : KernelError → Prop}
    (hpadding : ∀ before after, ¬Bad (.oversizedPadding mode before after axis size)) :
    Avoids Bad (checkAxis mode axis size m) := by
  unfold checkAxis
  split
  · split
    · exact .error (hpadding _ _)
    · exact .ok ()
  · exact .ok ()

theorem checkAxis_faultless : Faultless (checkAxis mode axis size m) :=
  checkAxis_avoids fun _ _ => not_false

theorem paddedSize_eq (hm : m.WellFormed) (hsize : size < 2 ^ 31) :
    paddedSize axis size m = .ok (m.padded size) := by
  obtain ⟨hbefore, hafter⟩ := hm
  exact if_pos (by unfold Checked.sizeLimit; omega)

theorem checkBatch_eq_ok_iff : p.checkBatch = .ok () ↔ p.batch = ⟨0, 0⟩ := by
  unfold checkBatch
  split
  next h => simp [h]
  next h => simp [h]

theorem checkBatch_avoids {Bad : KernelError → Prop} (hbatch : ¬Bad .paddedBatch) (p : MirrorPad) :
    Avoids Bad p.checkBatch := by
  unfold checkBatch
  split
  · exact .ok ()
  · exact .error hbatch

theorem checkBatch_faultless (p : MirrorPad) : Faultless p.checkBatch :=
  checkBatch_avoids not_false p

/-- An output that is small enough is an image itself. -/
theorem picture_wellFormed (hi : i.Whole) (hbytes : p.bytes i ≤ 2147483647) :
    (p.picture i).WellFormed := by
  exact ⟨p.height.padded_pos hi.height.1, p.width.padded_pos hi.width.1,
    p.channels.padded_pos hi.channels.1, rowMajor_size, rowMajor_size ▸ hbytes⟩

/-- Where the coordinates are those of an image value, the padded image has that value. -/
theorem output_of_inside {y x channel : Nat} (hy : y < i.height) (hx : x < i.width)
    (hchannel : channel < i.channels) :
    p.output i (p.height.before + y) (p.width.before + x) (p.channels.before + channel) =
      i.pixel y x channel := by
  unfold output
  rw [PadMode.shown?_before_add hy, PadMode.shown?_before_add hx,
    PadMode.shown?_before_add hchannel]
  rfl

section

variable (h : p.Bounded) (hi : i.Whole) (hwithin : p.Within i)

include h hi hwithin

theorem value_eq {y x channel : Nat} (hy : y < p.height.padded i.height)
    (hx : x < p.width.padded i.width) (hchannel : channel < p.channels.padded i.channels) :
    p.value i y x channel = .ok (p.output i y x channel) := by
  have hrow := fun k => PadMode.shown?_inside (k := k) hwithin.height hy
  have hcolumn := fun k => PadMode.shown?_inside (k := k) hwithin.width hx
  have hlane := fun k => PadMode.shown?_inside (k := k) hwithin.channels hchannel
  unfold value output
  rw [PadMode.source_eq h.height hwithin.height hi.height.2 hy,
    PadMode.source_eq h.width hwithin.width hi.width.2 hx,
    PadMode.source_eq h.channels hwithin.channels hi.channels.2 hchannel]
  cases hy : p.mode.shown? p.height i.height y with
  | none => rfl
  | some row =>
    cases hx : p.mode.shown? p.width i.width x with
    | none => rfl
    | some column =>
      cases hc : p.mode.shown? p.channels i.channels channel with
      | none => rfl
      | some lane =>
        have hr := hrow row hy
        have hc' := hcolumn column hx
        have hl := hlane lane hc
        exact hi.read_eq (by omega) (by omega) (by omega)

variable (hbytes : p.bytes i ≤ 2147483647)

include hbytes

theorem values_eq : tabulate (p.height.padded i.height) (p.width.padded i.width)
    (p.channels.padded i.channels) (p.value i) = .ok (p.picture i).values := by
  have hpicture := picture_wellFormed hi hbytes
  have hroom : p.bytes i < Checked.offsetLimit := Nat.lt_of_le_of_lt hbytes (by decide)
  exact tabulate_eq hpicture.height hpicture.width hpicture.channels hroom
    fun y hy x hx channel hchannel => value_eq h hi hwithin hy hx hchannel

end

theorem apply_oneImage (p : MirrorPad) (i : Image) : Ensures (·.OneImage i) (p.apply i) := by
  refine .bind fun _ _ => .bind fun _ _ => .bind fun _ _ => ?_
  refine .bind fun _ _ => .bind fun _ _ => .bind fun _ _ => ?_
  exact .bind fun _ _ => .bind fun _ _ => .ok ⟨rfl, rfl⟩

theorem apply_matched (p : MirrorPad) (i : Image) : Avoids KernelError.IsMismatch (p.apply i) := by
  have haxis : ∀ axis size m, Avoids KernelError.IsMismatch (checkAxis p.mode axis size m) :=
    fun _ _ _ => checkAxis_avoids fun _ _ => not_false
  have hsize : ∀ axis size m, Avoids KernelError.IsMismatch (paddedSize axis size m) := by
    intro axis size m
    unfold paddedSize
    split
    · exact .ok _
    · exact .error not_false
  have hcheck : ∀ s : Shape, Avoids KernelError.IsMismatch s.check :=
    Shape.check_avoids (fun _ => not_false) fun _ => not_false
  refine .bind (haxis _ _ _) fun _ _ => .bind (haxis _ _ _) fun _ _ => ?_
  refine .bind (haxis _ _ _) fun _ _ => .bind (hsize _ _ _) fun _ _ => ?_
  refine .bind (hsize _ _ _) fun _ _ => .bind (hsize _ _ _) fun _ _ => .bind (hcheck _) fun _ _ => ?_
  exact .bind (.lift fun _ => not_false) fun _ _ => .ok _

theorem check_eq_ok_iff (hi : i.Whole) : Shape.check ⟨1, p.height.padded i.height,
    p.width.padded i.width, p.channels.padded i.channels⟩ = .ok () ↔ p.bytes i ≤ 2147483647 := by
  rw [Shape.check_eq_ok_iff]
  refine ⟨And.right, fun hbytes => ⟨?_, hbytes⟩⟩
  have hpicture := (picture_wellFormed hi hbytes).whole
  exact ⟨hpicture.height, hpicture.width, hpicture.channels⟩

section

variable (h : p.Bounded) (hi : i.Whole)

include h hi

theorem apply_eq (hwithin : p.Within i) (hbytes : p.bytes i ≤ 2147483647) :
    p.apply i = .ok (p.picture i).tensor := by
  refine bind_eq_ok.2 ⟨_, checkAxis_eq_ok_iff.2 hwithin.height, ?_⟩
  refine bind_eq_ok.2 ⟨_, checkAxis_eq_ok_iff.2 hwithin.width, ?_⟩
  refine bind_eq_ok.2 ⟨_, checkAxis_eq_ok_iff.2 hwithin.channels, ?_⟩
  refine bind_eq_ok.2 ⟨_, paddedSize_eq h.height hi.height.2, ?_⟩
  refine bind_eq_ok.2 ⟨_, paddedSize_eq h.width hi.width.2, ?_⟩
  refine bind_eq_ok.2 ⟨_, paddedSize_eq h.channels hi.channels.2, ?_⟩
  refine bind_eq_ok.2 ⟨_, (check_eq_ok_iff hi).2 hbytes, ?_⟩
  exact lift_bind_eq (values_eq h hi hwithin hbytes) _

theorem of_apply_eq_ok {t : Tensor} (hok : p.apply i = .ok t) :
    p.Within i ∧ p.bytes i ≤ 2147483647 := by
  obtain ⟨_, hheight, hok⟩ := bind_eq_ok.1 hok
  obtain ⟨_, hwidth, hok⟩ := bind_eq_ok.1 hok
  obtain ⟨_, hchannels, hok⟩ := bind_eq_ok.1 hok
  rw [paddedSize_eq h.height hi.height.2, paddedSize_eq h.width hi.width.2,
    paddedSize_eq h.channels hi.channels.2] at hok
  obtain ⟨_, ⟨⟩, hok⟩ := bind_eq_ok.1 hok
  obtain ⟨_, ⟨⟩, hok⟩ := bind_eq_ok.1 hok
  obtain ⟨_, ⟨⟩, hok⟩ := bind_eq_ok.1 hok
  obtain ⟨_, hcheck, -⟩ := bind_eq_ok.1 hok
  exact ⟨⟨checkAxis_eq_ok_iff.1 hheight, checkAxis_eq_ok_iff.1 hwidth,
    checkAxis_eq_ok_iff.1 hchannels⟩, (check_eq_ok_iff hi).1 hcheck⟩

theorem apply_faultless : Faultless (p.apply i) := by
  refine checkAxis_faultless.bind fun _ hheight => checkAxis_faultless.bind fun _ hwidth => ?_
  refine checkAxis_faultless.bind fun _ hchannels => ?_
  have hwithin : p.Within i := ⟨checkAxis_eq_ok_iff.1 hheight, checkAxis_eq_ok_iff.1 hwidth,
    checkAxis_eq_ok_iff.1 hchannels⟩
  rw [paddedSize_eq h.height hi.height.2, paddedSize_eq h.width hi.width.2,
    paddedSize_eq h.channels hi.channels.2]
  refine (Shape.check_faultless _).bind fun _ hcheck => ?_
  exact .lift_eq (values_eq h hi hwithin ((check_eq_ok_iff hi).1 hcheck)) (.ok _)

theorem apply_writable : Ensures Tensor.Writable (p.apply i) := by
  intro t ht
  obtain ⟨hwithin, hbytes⟩ := of_apply_eq_ok h hi ht
  rw [apply_eq h hi hwithin hbytes] at ht
  cases ht
  exact (picture_wellFormed hi hbytes).writable

end

end MirrorPad
end Inference
