import Inference.Proofs.Dims
import Mathlib.Algebra.BigOperators.Ring.Finset
/-! The byte length of dims against the unbounded product of their axes. The axes are multiplied one
after the other, and where the length outgrows that of a tensor the rest of them is not looked at;
neither this nor the 64 bits of the products can be told from the result. -/
namespace Inference.Dims

variable {d e : Dims}

/-- The bytes that axes ask for, four for each position, whatever their number. -/
def bytes (axes : List Int32) : Int := 4 * (axes.map Int32.toInt).prod

theorem toNatClampNeg_of_pos {a : Int32} (h : 0 < a) : (a.toNatClampNeg : Int) = a.toInt :=
  Int.toNat_of_nonneg (Int.le_of_lt (Int32.lt_iff_toInt_lt.1 h))

theorem bytes_of_pos {axes : List Int32} (h : ∀ a ∈ axes, 0 < a) :
    bytes axes = ((4 * (axes.map Int32.toNatClampNeg).prod : Nat) : Int) := by
  have hprod : (axes.map Int32.toInt).prod = ((axes.map Int32.toNatClampNeg).prod : Nat) := by
    rw [Nat.cast_list_prod, List.map_map]
    refine congrArg List.prod (List.map_congr_left fun a ha => ?_)
    exact (toNatClampNeg_of_pos (h a ha)).symm
  rw [bytes, hprod, Nat.cast_mul, Nat.cast_ofNat]

theorem bytes_concat (axes : List Int32) (a : Int32) :
    bytes (axes ++ [a]) = bytes axes * a.toInt := by
  simp only [bytes, List.map_append, List.prod_append, List.map_singleton, List.prod_singleton,
    Int.mul_assoc]

theorem bytes_perm {xs ys : List Int32} (h : xs.Perm ys) : bytes xs = bytes ys :=
  congrArg (4 * ·) (h.map Int32.toInt).prod_eq

theorem byteLength?_eq_some_bytes {n : Nat} : d.byteLength? = some n ↔
    d.Positive ∧ bytes d.axes ≤ 2147483647 ∧ n = bytes d.axes := by
  rw [byteLength?_eq_some]
  refine and_congr_right fun hpos => ?_
  rw [bytes_of_pos hpos]
  exact and_congr Int.ofNat_le.symm Int.ofNat_inj.symm

theorem byteLength?_perm (h : e.axes.Perm d.axes) : e.byteLength? = d.byteLength? := by
  ext n
  have hpos : e.Positive ↔ d.Positive := forall_congr' fun a => imp_congr_left h.mem_iff
  rw [byteLength?_eq_some_bytes, byteLength?_eq_some_bytes, hpos, bytes_perm h]

/-- The length behind the first axes is exact, and still one of a tensor. -/
theorem length_of_front {front : List Int32} {length : UInt64}
    (h : front.foldlM extendLength? 4 = some length) :
    length.toNat ≤ 2147483647 ∧ length.toNat = bytes front := by
  have hlength : (front.foldlM extendLength? 4).map UInt64.toNat = some length.toNat := by
    rw [h]
    rfl
  obtain ⟨hpos, hle, heq⟩ := (foldlM_extendLength?_eq_some (by decide) front).1 hlength
  rw [bytes_of_pos hpos, heq]
  exact ⟨hle, rfl⟩

/-- What is known of the byte length of dims and of the way to it. -/
structure ExactLength (d : Dims) : Prop where
  eq_some : ∀ n : Nat, d.byteLength? = some n ↔
    d.Positive ∧ bytes d.axes ≤ 2147483647 ∧ n = bytes d.axes
  /-- The product with the next axis is made in 64 bits and is far from filling them. -/
  products : ∀ front a back length, d.axes = front ++ a :: back →
    front.foldlM extendLength? 4 = some length → 0 < a →
      length.toNat = bytes front ∧
      (length * UInt64.ofNat a.toNatClampNeg).toNat = bytes (front ++ [a]) ∧
      bytes (front ++ [a]) < 2 ^ 62
  /-- Dims that are given up before the last axis are not positive, or ask for too much with all
  their axes as well. -/
  givenUp : ∀ front back, d.axes = front ++ back → front.foldlM extendLength? 4 = none →
    d.byteLength? = none ∧ ¬(d.Positive ∧ bytes d.axes ≤ 2147483647)
  order : ∀ e : Dims, e.axes.Perm d.axes → e.byteLength? = d.byteLength?

/-- For all dims. -/
theorem byteLength?_exact (d : Dims) : ExactLength d where
  eq_some _ := byteLength?_eq_some_bytes
  products front a back length _ hfront ha := by
    obtain ⟨hle, heq⟩ := length_of_front hfront
    have hnext : bytes (front ++ [a]) = ((length.toNat * a.toNatClampNeg : Nat) : Int) := by
      rw [bytes_concat, ← heq, ← toNatClampNeg_of_pos ha, Nat.cast_mul]
    refine ⟨heq, ?_, ?_⟩
    · rw [toNat_mul_axis hle, hnext]
    · rw [hnext]
      exact_mod_cast mul_axis_lt hle a
  givenUp front back haxes hfront := by
    have hnone : d.byteLength? = none := by
      rw [byteLength?, haxes, List.foldlM_append, hfront]
      rfl
    refine ⟨hnone, fun ⟨hpos, hle⟩ => ?_⟩
    have hsome := byteLength?_eq_some_bytes.2 ⟨hpos, hle, (bytes_of_pos hpos).symm⟩
    rw [hnone] at hsome
    cases hsome
  order _ := byteLength?_perm

/-- An axis without positions does not bring back a length that has been given up. -/
example : byteLength? ⟨65536, 65536, 0, 1⟩ = none := by decide +kernel

end Inference.Dims
