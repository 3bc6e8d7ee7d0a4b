import Inference.Dims
import Inference.Proofs.Word
import Mathlib.Algebra.Order.Ring.Nat
/-! The byte length of dims is exact: 64-bit products do not wrap, and giving up early is right
whatever axes follow. -/
namespace Inference.Dims

/-- The number of values. -/
def volume (d : Dims) : Nat := (d.axes.map Int32.toNatClampNeg).prod

theorem volume_of_batch {d : Dims} (h : d.batch = 1) : d.volume =
    d.height.toNatClampNeg * d.width.toNatClampNeg * d.channels.toNatClampNeg := by
  simp [volume, axes, h, Nat.mul_assoc]

/-- The product of a tensor's length with one more axis is nowhere near 64 bits. -/
theorem mul_axis_lt {n : UInt64} (h : n.toNat ≤ 2147483647) (a : Int32) :
    n.toNat * a.toNatClampNeg < 2 ^ 62 := by
  have ha : a.toNatClampNeg ≤ 2147483647 := Nat.le_of_lt_succ a.toNatClampNeg_lt
  exact Nat.lt_of_le_of_lt (Nat.mul_le_mul h ha) (by decide)

theorem toNat_mul_axis {n : UInt64} (h : n.toNat ≤ 2147483647) (a : Int32) :
    (n * UInt64.ofNat a.toNatClampNeg).toNat = n.toNat * a.toNatClampNeg := by
  have hbound := mul_axis_lt h a
  rw [UInt64.toNat_mul, UInt64.toNat_ofNat_of_lt' (Nat.lt_trans a.toNatClampNeg_lt (by decide)),
    Nat.mod_eq_of_lt (by omega)]

/-- One more axis, without overflow as long as the length is one of a tensor. -/
theorem extendLength?_toNat {n : UInt64} (h : n.toNat ≤ 2147483647) (a : Int32) :
    (extendLength? n a).map UInt64.toNat =
      if 0 < a ∧ n.toNat * a.toNatClampNeg ≤ 2147483647 then some (n.toNat * a.toNatClampNeg)
      else none := by
  have hmul := toNat_mul_axis h a
  unfold extendLength?
  by_cases hpos : 0 < a
  · have hnot : ¬a ≤ 0 := Int32.not_le.2 hpos
    have hle : n * UInt64.ofNat a.toNatClampNeg ≤ maxByteLength ↔
        n.toNat * a.toNatClampNeg ≤ 2147483647 := by
      rw [UInt64.le_iff_toNat_le, hmul]
      rfl
    simp only [if_neg hnot, hle, hpos, true_and]
    split
    · rw [Option.map_some, hmul]
    · rfl
  · have hle : a ≤ 0 := Int32.not_lt.1 hpos
    simp [hle, hpos]

theorem prod_pos_iff {axes : List Int32} :
    0 < (axes.map Int32.toNatClampNeg).prod ↔ ∀ a ∈ axes, 0 < a := by
  simp only [List.prod_pos_iff_forall_pos_nat, List.forall_mem_map, toNatClampNeg_pos_iff]

theorem positive_iff {d : Dims} : d.Positive ↔ 0 < d.volume := prod_pos_iff.symm

theorem foldlM_extendLength?_eq_some {n : UInt64} (h : n.toNat ≤ 2147483647) (axes : List Int32)
    {k : Nat} :
    (axes.foldlM extendLength? n).map UInt64.toNat = some k ↔
      (∀ a ∈ axes, 0 < a) ∧ n.toNat * (axes.map Int32.toNatClampNeg).prod ≤ 2147483647 ∧
        k = n.toNat * (axes.map Int32.toNatClampNeg).prod := by
  induction axes generalizing n with
  | nil => simp [h, eq_comm]
  | cons a axes ih =>
    have hstep := extendLength?_toNat h a
    rw [List.foldlM_cons, List.map_cons, List.prod_cons, ← Nat.mul_assoc]
    by_cases hfits : 0 < a ∧ n.toNat * a.toNatClampNeg ≤ 2147483647
    · rw [if_pos hfits, Option.map_eq_some_iff] at hstep
      obtain ⟨next, hnext, hvalue⟩ := hstep
      have hrest := ih (hvalue ▸ hfits.2)
      rw [hvalue] at hrest
      simp only [hnext, Option.bind_eq_bind, Option.bind_some, hrest, List.forall_mem_cons,
        hfits.1, true_and]
    · rw [if_neg hfits, Option.map_eq_none_iff] at hstep
      rw [hstep]
      refine ⟨nofun, ?_⟩
      rintro ⟨hpos, hle, -⟩
      obtain ⟨ha, haxes⟩ := List.forall_mem_cons.1 hpos
      -- the axes that follow only make the product longer
      exact absurd ⟨ha, Nat.le_trans (Nat.le_mul_of_pos_right _ (prod_pos_iff.2 haxes)) hle⟩ hfits

theorem byteLength?_eq_some {d : Dims} {n : Nat} : d.byteLength? = some n ↔
    d.Positive ∧ 4 * d.volume ≤ 2147483647 ∧ n = 4 * d.volume :=
  foldlM_extendLength?_eq_some (n := 4) (by decide) d.axes

theorem byteLength?_eq (d : Dims) : d.byteLength? =
    if d.Positive ∧ 4 * d.volume ≤ 2147483647 then some (4 * d.volume) else none := by
  by_cases hfits : d.Positive ∧ 4 * d.volume ≤ 2147483647
  · rw [if_pos hfits]
    exact byteLength?_eq_some.2 ⟨hfits.1, hfits.2, rfl⟩
  · rw [if_neg hfits, Option.eq_none_iff_forall_ne_some]
    intro n hn
    obtain ⟨hpos, hle, -⟩ := byteLength?_eq_some.1 hn
    exact hfits ⟨hpos, hle⟩

end Inference.Dims
