import Inference.Checked
import Inference.Proofs.Concur
import Mathlib.Algebra.Order.Ring.Nat
/-! Sizes and offsets within bounds: the checked steps have their exact results. -/
namespace Inference.Checked

variable {a b c n : Nat} {i : Int}

theorem mul_of_lt (h : a * b < sizeLimit) : mul a b = .ok (a * b) := if_pos h

theorem mul_eq_ok (h : mul a b = .ok n) : n = a * b := by
  unfold mul size at h
  split at h
  · exact (Except.ok.inj h).symm
  · cases h

theorem sub_of_le (h : b ≤ a) : sub a b = .ok (a - b) := if_pos h

theorem div_of_pos (h : 0 < b) : div a b = .ok (a / b) := if_neg (Nat.ne_of_gt h)

theorem mod_of_pos (h : 0 < b) : mod a b = .ok (a % b) := if_neg (Nat.ne_of_gt h)

theorem offset_of_bounds (h : -(offsetLimit : Int) ≤ i ∧ i < offsetLimit) : offset i = .ok i :=
  if_pos h

theorem place_of_bounds (h : 0 ≤ i) (hlt : i < offsetLimit) : place i = .ok i.toNat := by
  unfold place
  rw [if_neg (by omega), if_pos hlt]

theorem signed_of_lt (h : n < offsetLimit) : signed n = n := by
  unfold offsetLimit at h
  unfold signed sizeLimit
  rw [Int.bmod_eq_of_le] <;> omega

theorem reserve_of_lt (h : 4 * n < offsetLimit) : reserve n = .ok () := if_pos h

theorem read_of_lt {α : Type} {xs : Array α} {i : Nat} (h : i < xs.size) :
    read xs i = .ok xs[i] := by
  rw [read_eq_ok, Array.getElem?_eq_getElem h]

/-- Each step of a product of positive sizes is at most the whole. -/
theorem product_of_lt {sizes : List Nat} (hpos : ∀ n ∈ sizes, 0 < n) (h : sizes.prod < sizeLimit) :
    product sizes = .ok sizes.prod := by
  suffices hfrom : ∀ n : Nat, n * sizes.prod < sizeLimit →
      sizes.foldlM mul n = .ok (n * sizes.prod) by
    simpa [product] using hfrom 1 (by simpa using h)
  clear h
  induction sizes with
  | nil =>
    intro n _
    simp [pure, Except.pure]
  | cons a sizes ih =>
    intro n hn
    rw [List.forall_mem_cons] at hpos
    rw [List.prod_cons, ← Nat.mul_assoc] at hn
    have hrest : 0 < sizes.prod := List.prod_pos_iff_forall_pos_nat.2 hpos.2
    have hfirst : n * a < sizeLimit := Nat.lt_of_le_of_lt (Nat.le_mul_of_pos_right _ hrest) hn
    rw [List.foldlM_cons, mul_of_lt hfirst, List.prod_cons, ← Nat.mul_assoc]
    exact ih hpos.2 (n * a) hn

/-- A product that has a result is exact. -/
theorem product_eq_ok {sizes : List Nat} (h : product sizes = .ok n) : n = sizes.prod := by
  suffices hfrom : ∀ a : Nat, sizes.foldlM mul a = .ok n → n = a * sizes.prod by
    simpa using hfrom 1 h
  clear h
  induction sizes with
  | nil =>
    rintro a ⟨⟩
    simp
  | cons b sizes ih =>
    intro a ha
    obtain ⟨c, hc, hrest⟩ := bind_eq_ok.1 (List.foldlM_cons.symm.trans ha)
    rw [ih c hrest, mul_eq_ok hc, List.prod_cons, Nat.mul_assoc]

theorem product_three (ha : 0 < a) (hb : 0 < b) (hc : 0 < c) (h : a * b * c < sizeLimit) :
    product [a, b, c] = .ok (a * b * c) := by
  have hprod : [a, b, c].prod = a * b * c := by simp [Nat.mul_assoc]
  rw [← hprod] at h ⊢
  exact product_of_lt (by simp [ha, hb, hc]) h

theorem product_three_lt (h : product [a, b, c] = .ok n) : n < sizeLimit := by
  have hmul : ∀ {x y m : Nat}, mul x y = .ok m → m < sizeLimit := by
    intro x y m hm
    unfold mul size at hm
    split at hm
    next hlt =>
      cases hm
      exact hlt
    next => cases hm
  obtain ⟨_, -, h⟩ := bind_eq_ok.1 h
  obtain ⟨_, -, h⟩ := bind_eq_ok.1 h
  obtain ⟨_, hlast, h⟩ := bind_eq_ok.1 h
  cases h
  exact hmul hlast

theorem product_three_eq_ok (h : product [a, b, c] = .ok n) : n = a * b * c := by
  rw [product_eq_ok h]
  simp [Nat.mul_assoc]

end Inference.Checked
