import Inference.Kernel.Tensor
import Inference.Proofs.ModelFile.WellFormed
import Inference.Proofs.Yields
/-! The shapes of images: what dims and what byte length they have, and which of them pass the
check. -/
namespace Inference

namespace Shape

variable {height width channels : Nat}

theorem axis_eq {n : Nat} (h : IsSize n) : (Int32.ofNat n).toNatClampNeg = n :=
  Int32.toNatClampNeg_ofNat_of_lt h.2

theorem axis_pos {n : Nat} (h : IsSize n) : 0 < Int32.ofNat n := by
  have hpos := h.1
  have hlt := h.2
  rw [Int32.lt_iff_toInt_lt, Int32.toInt_ofNat_of_lt hlt]
  simpa using hpos

section

variable (hheight : IsSize height) (hwidth : IsSize width) (hchannels : IsSize channels)

include hheight hwidth hchannels

theorem oversized?_eq_none : (Shape.mk 1 height width channels).oversized? = none := by
  have hh := hheight.2
  have hw := hwidth.2
  have hc := hchannels.2
  simp only [oversized?, axes, List.find?_eq_none, List.mem_cons, List.not_mem_nil, or_false,
    decide_eq_true_eq, forall_eq_or_imp, forall_eq]
  omega

theorem toDims_positive : (Shape.mk 1 height width channels).toDims.Positive := by
  simp only [Dims.Positive, Dims.axes, toDims, List.forall_mem_cons]
  exact ⟨by decide, axis_pos hheight, axis_pos hwidth, axis_pos hchannels,
    List.forall_mem_nil _⟩

theorem ofDims_toDims : ofDims (Shape.mk 1 height width channels).toDims =
    ⟨1, height, width, channels⟩ := by
  simp only [ofDims, toDims, axis_eq hheight, axis_eq hwidth, axis_eq hchannels]
  rfl

/-- The byte length of an image, if it is one of a tensor. -/
theorem byteLength?_eq : (Shape.mk 1 height width channels).toDims.byteLength? =
    if 4 * (height * width * channels) ≤ 2147483647 then some (4 * (height * width * channels))
    else none := by
  have hvolume : (Shape.mk 1 height width channels).toDims.volume = height * width * channels := by
    rw [Dims.volume_of_batch rfl]
    simp only [toDims, axis_eq hheight, axis_eq hwidth, axis_eq hchannels]
  rw [Dims.byteLength?_eq, hvolume]
  simp only [toDims_positive hheight hwidth hchannels, true_and]

end

/-! ### Shapes of dims -/

theorem oversized?_ofDims (d : Dims) : (ofDims d).oversized? = none := by
  have hle : ∀ a : Int32, a.toNatClampNeg ≤ 2147483647 :=
    fun a => Nat.le_of_lt_succ a.toNatClampNeg_lt
  simp [oversized?, axes, ofDims, hle]

theorem toDims_ofDims {d : Dims} (h : d.Positive) : (ofDims d).toDims = d := by
  have hsame : ∀ a : Int32, 0 < a → Int32.ofNat a.toNatClampNeg = a := by
    intro a ha
    have hlt := a.toNatClampNeg_lt
    refine toNatClampNeg_inj (axis_pos ⟨toNatClampNeg_pos ha, hlt⟩) ?_
    exact Int32.toNatClampNeg_ofNat_of_lt hlt
  simp only [Dims.Positive, Dims.axes, List.forall_mem_cons] at h
  obtain ⟨hbatch, hheight, hwidth, hchannels, -⟩ := h
  simp only [ofDims, toDims, hsame _ hbatch, hsame _ hheight, hsame _ hwidth, hsame _ hchannels]

/-- Axes below zero become zero, and leave no position either. -/
theorem byteLength?_ofDims (d : Dims) : (ofDims d).toDims.byteLength? = d.byteLength? := by
  have hvolume : (ofDims d).toDims.volume = d.volume := by
    simp only [Dims.volume, Dims.axes, toDims, ofDims, List.map_cons,
      Int32.toNatClampNeg_ofNat_of_lt (Int32.toNatClampNeg_lt _)]
  simp only [Dims.byteLength?_eq, Dims.positive_iff, hvolume]

/-- The shapes of tensors pass the check and no others. -/
theorem check_eq_ok_iff : check ⟨1, height, width, channels⟩ = .ok () ↔
    (IsSize height ∧ IsSize width ∧ IsSize channels) ∧
      4 * (height * width * channels) ≤ 2147483647 := by
  constructor
  · intro h
    unfold check at h
    split at h
    next => cases h
    next hsize =>
      split at h
      next hlength =>
        have haxes := List.find?_eq_none.1 hsize
        simp only [axes, List.mem_cons, forall_eq_or_imp, decide_eq_true_eq] at haxes
        obtain ⟨-, hheight, hwidth, hchannels, -⟩ := haxes
        obtain ⟨length, hlength⟩ := Option.isSome_iff_exists.1 hlength
        obtain ⟨hpos, -, -⟩ := Dims.byteLength?_eq_some.1 hlength
        -- a size that a word can hold is positive as soon as the word is
        have hexact : ∀ n : Nat, ¬2147483647 < n → 0 < Int32.ofNat n → IsSize n := by
          intro n hn hword
          have hsame : (Int32.ofNat n).toNatClampNeg = n :=
            Int32.toNatClampNeg_ofNat_of_lt (by omega)
          have hsome := toNatClampNeg_pos hword
          exact ⟨hsame ▸ hsome, by omega⟩
        simp only [Dims.Positive, Dims.axes, toDims, List.forall_mem_cons] at hpos
        obtain ⟨-, hheight', hwidth', hchannels', -⟩ := hpos
        have hh := hexact _ hheight hheight'
        have hw := hexact _ hwidth hwidth'
        have hc := hexact _ hchannels hchannels'
        refine ⟨⟨hh, hw, hc⟩, ?_⟩
        rw [byteLength?_eq hh hw hc] at hlength
        by_contra hlong
        rw [if_neg hlong] at hlength
        cases hlength
      next => cases h
  · rintro ⟨⟨hh, hw, hc⟩, hle⟩
    unfold check
    simp only [oversized?_eq_none hh hw hc, byteLength?_eq hh hw hc, if_pos hle, Option.isSome_some,
      if_true]

theorem check_avoids {Bad : KernelError → Prop} (haxis : ∀ size, ¬Bad (.oversizedAxis size))
    (houtput : ∀ s, ¬Bad (.oversizedOutput s)) (s : Shape) : Avoids Bad s.check := by
  unfold check
  split
  · exact .error (haxis _)
  · split
    · exact .ok ()
    · exact .error (houtput s)

theorem check_faultless (s : Shape) : Faultless s.check :=
  check_avoids (fun _ => not_false) (fun _ => not_false) s

end Shape

end Inference
