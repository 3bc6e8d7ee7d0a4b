import Inference.Kernel.Tensor
import Inference.Proofs.Yields
/-! Loops that write an array place by place. Where the value for each place is settled beforehand,
only the set of places that are written counts, and not the order. -/
namespace Inference

variable {value : Nat → Single} {here there : Nat → Prop} {out next last : Array Single}

/-- The places of a set have the values that are meant for them, and the others are as they were. -/
structure Filled (value : Nat → Single) (here : Nat → Prop) (out next : Array Single) : Prop where
  size : next.size = out.size
  inside : ∀ n < out.size, here n → next[n]? = some (value n)
  outside : ∀ n, ¬here n → next[n]? = out[n]?

namespace Filled

theorem nothing (value : Nat → Single) (out : Array Single) : Filled value (fun _ => False) out out :=
  ⟨rfl, fun _ _ h => h.elim, fun _ _ => rfl⟩

theorem trans (h : Filled value here out next) (h' : Filled value there next last) :
    Filled value (fun n => here n ∨ there n) out last := by
  refine ⟨h'.size.trans h.size, fun n hn hboth => ?_, fun n hn => ?_⟩
  · by_cases hthere : there n
    · exact h'.inside n (h.size ▸ hn) hthere
    · rw [h'.outside n hthere]
      exact h.inside n hn (hboth.resolve_right hthere)
  · obtain ⟨hhere, hthere⟩ := not_or.1 hn
    rw [h'.outside n hthere, h.outside n hhere]

theorem congr (h : Filled value here out next) (hsame : ∀ n, here n ↔ there n) :
    Filled value there out next := by
  obtain rfl : here = there := funext fun n => propext (hsame n)
  exact h

/-- What is written where determines the result. -/
theorem unique (h : Filled value here out next) (h' : Filled value here out last) : next = last := by
  apply Array.ext_getElem?
  intro n
  by_cases hhere : here n
  · by_cases hn : n < out.size
    · rw [h.inside n hn hhere, h'.inside n hn hhere]
    · have hn := Nat.le_of_not_lt hn
      rw [Array.getElem?_eq_none (h.size ▸ hn), Array.getElem?_eq_none (h'.size ▸ hn)]
  · rw [h.outside n hhere, h'.outside n hhere]

/-- All places are written. -/
theorem eq_map_range (h : Filled value here out next) (hall : ∀ n < out.size, here n) :
    next = (Array.range out.size).map value := by
  apply Array.ext_getElem?
  intro n
  by_cases hn : n < out.size
  · rw [h.inside n hn (hall n hn)]
    simp [hn]
  · rw [Array.getElem?_eq_none (h.size ▸ Nat.le_of_not_lt hn)]
    simp [hn]

theorem write {n : Nat} (hn : n < out.size) :
    Yields (Filled value (· = n) out) (Checked.write out n (value n)) := by
  refine ⟨out.set n (value n), dif_pos hn, by simp, ?_, fun i hi => ?_⟩
  · rintro _ - rfl
    simp [hn]
  · exact Array.getElem?_set_ne hn (Ne.symm hi)

/-- What the steps of a loop write, the loop writes. -/
theorem foldlM {κ : Type} {ks : List κ} (places : κ → Nat → Prop)
    {f : Array Single → κ → Except Fault (Array Single)}
    (h : ∀ k ∈ ks, ∀ now : Array Single, now.size = out.size →
      Yields (Filled value (places k) now) (f now k)) :
    Yields (Filled value (fun n => ∃ k ∈ ks, places k n) out) (ks.foldlM f out) := by
  induction ks generalizing out with
  | nil => exact .ok ((nothing value out).congr fun n => by simp)
  | cons k ks ih =>
    rw [List.foldlM_cons]
    refine (h k List.mem_cons_self out rfl).bind fun next hnext => ?_
    have hrest : Yields (Filled value (fun n => ∃ k ∈ ks, places k n) next) (ks.foldlM f next) :=
      ih fun k' hk' now hnow => h k' (List.mem_cons_of_mem k hk') now (hnow.trans hnext.size)
    exact hrest.mono fun last hlast => (hnext.trans hlast).congr fun n => by simp

end Filled
end Inference
