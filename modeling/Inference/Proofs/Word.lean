import Inference.Single
/-! Words of 32 bits: the bytes they are written in, and the sizes that signed ones stand for. -/
namespace Inference

namespace LittleEndian

theorem decode_encode (w : UInt32) :
    decode w.toUInt8 (w >>> 8).toUInt8 (w >>> 16).toUInt8 (w >>> 24).toUInt8 = w := by
  apply UInt32.toBitVec_inj.1
  ext i hi
  have hbits : ∀ k, k ≤ i → w.toBitVec.getLsbD (k + (i - k)) = w.toBitVec[i] := by
    intro k hk
    rw [Nat.add_sub_cancel' hk, BitVec.getLsbD_eq_getElem hi]
  have hfirst := hbits 0 (Nat.zero_le i)
  simp only [Nat.zero_add, Nat.sub_zero] at hfirst
  simp only [decode, UInt32.toBitVec_or, UInt32.toBitVec_shiftLeft, UInt8.toBitVec_toUInt32,
    UInt32.toBitVec_toUInt8, UInt32.toBitVec_shiftRight]
  -- a bit comes from the one byte that its place lies in
  by_cases h8 : i < 8
  · have h16 : i < 16 := by omega
    have h24 : i < 24 := by omega
    simp [h8, h16, h24, hfirst]
  · by_cases h16 : i < 16
    · have hbyte : i - 8 < 8 := by omega
      have h24 : i < 24 := by omega
      simp [h8, h16, h24, hbyte, hbits 8 (by omega)]
    · have hpast : ¬i - 8 < 8 := by omega
      by_cases h24 : i < 24
      · have hbyte : i - 16 < 8 := by omega
        simp [h8, h16, h24, hpast, hbyte, hbits 16 (by omega)]
      · have hpast' : ¬i - 16 < 8 := by omega
        have hbyte : i - 24 < 8 := by omega
        simp [h8, h16, h24, hpast, hpast', hbyte, hbits 24 (by omega)]

theorem decodeAll_encode (ws : List UInt32) (words : Array UInt32) :
    decodeAll (ws.flatMap encode) words = words ++ ws.toArray := by
  induction ws generalizing words with
  | nil => simp [decodeAll]
  | cons w ws ih =>
    have hfirst : (w :: ws).flatMap encode = w.toUInt8 :: (w >>> 8).toUInt8 ::
        (w >>> 16).toUInt8 :: (w >>> 24).toUInt8 :: ws.flatMap encode := rfl
    rw [hfirst, decodeAll, ih, decode_encode]
    simp

/-- The bytes of a word are the ones that it was put together from. -/
theorem encode_decode (a b c d : UInt8) : encode (decode a b c d) = [a, b, c, d] := by
  have hfirst : (decode a b c d).toUInt8 = a := by
    apply UInt8.toBitVec_inj.1
    ext i hi
    simp [decode]
  have hsecond : (decode a b c d >>> 8).toUInt8 = b := by
    apply UInt8.toBitVec_inj.1
    ext i hi
    have hplace : 8 + i < 16 ∧ 8 + i < 24 ∧ 8 + i < 32 ∧ ¬8 + i < 8 ∧ i < 32 := by omega
    simp [decode, hplace, BitVec.getLsbD_eq_getElem hi]
  have hthird : (decode a b c d >>> 16).toUInt8 = c := by
    apply UInt8.toBitVec_inj.1
    ext i hi
    have hplace : 16 + i < 24 ∧ 16 + i < 32 ∧ ¬16 + i < 16 ∧ 8 ≤ 16 + i ∧ 8 ≤ 16 + i - 8 ∧
        i < 32 := by omega
    simp [decode, hplace, BitVec.getLsbD_eq_getElem hi]
  have hfourth : (decode a b c d >>> 24).toUInt8 = d := by
    apply UInt8.toBitVec_inj.1
    ext i hi
    have hplace : 24 + i < 32 ∧ ¬24 + i < 24 ∧ 8 ≤ 24 + i ∧ 8 ≤ 24 + i - 8 ∧ 8 ≤ 24 + i - 16 ∧
        i < 32 := by omega
    simp [decode, hplace, BitVec.getLsbD_eq_getElem hi]
  rw [encode, hfirst, hsecond, hthird, hfourth]

/-- Of whole words less than one is none. -/
theorem eq_nil_of_short {bytes : List UInt8} {n : Nat}
    (hshort : ∀ a b c d rest, bytes = a :: b :: c :: d :: rest → False)
    (h : bytes.length = n * 4) : bytes = [] ∧ n = 0 := by
  match bytes, hshort with
  | [], _ =>
    simp only [List.length_nil] at h
    exact ⟨rfl, by omega⟩
  | a :: b :: c :: d :: rest, hshort => exact absurd rfl (hshort a b c d rest)
  | [_], _ | [_, _], _ | [_, _, _], _ =>
    simp only [List.length_cons, List.length_nil] at h
    omega

/-- Whole words are decoded to as many, which are written in the same bytes. -/
theorem encode_decodeAll {bytes : List UInt8} (words : Array UInt32) {n : Nat}
    (h : bytes.length = n * 4) : (decodeAll bytes words).size = words.size + n ∧
      (decodeAll bytes words).toList.flatMap encode = words.toList.flatMap encode ++ bytes := by
  induction bytes, words using decodeAll.induct generalizing n with
  | case1 words a b c d rest ih =>
    simp only [List.length_cons] at h
    have hrest : rest.length = (n - 1) * 4 := by omega
    obtain ⟨hsize, hbytes⟩ := ih hrest
    rw [decodeAll]
    constructor
    · rw [hsize, Array.size_push]
      omega
    · rw [hbytes]
      simp [encode_decode]
  | case2 bytes words hshort =>
    obtain ⟨rfl, rfl⟩ := eq_nil_of_short hshort h
    simp [decodeAll]

/-- Words are decoded one after the other. -/
theorem decodeAll_append {front : List UInt8} (rest : List UInt8) (words : Array UInt32) {n : Nat}
    (h : front.length = n * 4) :
    decodeAll (front ++ rest) words = decodeAll rest (decodeAll front words) := by
  induction front, words using decodeAll.induct generalizing n with
  | case1 words a b c d front ih =>
    simp only [List.length_cons] at h
    have hfront : front.length = (n - 1) * 4 := by omega
    exact ih hfront
  | case2 front words hshort =>
    obtain ⟨rfl, rfl⟩ := eq_nil_of_short hshort h
    rfl

theorem prefix_decodeAll (bytes : List UInt8) (words : Array UInt32) :
    words.toList <+: (decodeAll bytes words).toList := by
  induction bytes, words using decodeAll.induct with
  | case1 words a b c d rest ih =>
    rw [Array.toList_push] at ih
    exact (List.prefix_append _ _).trans ih
  | case2 bytes words hshort =>
    unfold decodeAll
    split
    next a b c d rest => exact absurd rfl (hshort a b c d rest)
    next => exact List.prefix_rfl

/-- The first words are written in the first bytes, whatever comes after them. -/
theorem encode_take_decodeAll (bytes : List UInt8) {n : Nat} (h : n * 4 ≤ bytes.length) :
    n ≤ (decodeAll bytes).size ∧
      ((decodeAll bytes).toList.take n).flatMap encode = bytes.take (n * 4) := by
  have hfront : (bytes.take (n * 4)).length = n * 4 := List.length_take_of_le h
  obtain ⟨hsize, hbytes⟩ := encode_decodeAll #[] hfront
  simp only [Array.size_empty, Nat.zero_add, List.flatMap_nil, List.nil_append] at hsize hbytes
  have hprefix : (decodeAll (bytes.take (n * 4))).toList <+: (decodeAll bytes).toList := by
    have happend := decodeAll_append (bytes.drop (n * 4)) #[] hfront
    rw [List.take_append_drop] at happend
    rw [happend]
    exact prefix_decodeAll _ _
  have hle := hprefix.length_le
  have htake := List.prefix_iff_eq_take.1 hprefix
  simp only [Array.length_toList, hsize] at hle htake
  exact ⟨hle, htake ▸ hbytes⟩

end LittleEndian

/-- A choice found by its code has just that code. -/
theorem eq_ofNat_of_find? {α : Type} {codeOf : α → Nat} {choices : List α} {i : Int32} {a : α}
    (h : choices.find? (fun c => (codeOf c : Int) == i.toInt) = some a) : i = .ofNat (codeOf a) := by
  have hcode : (codeOf a : Int) = i.toInt := by simpa using List.find?_some h
  rw [← Int32.ofInt_toInt i, ← hcode]
  rfl

theorem toNatClampNeg_pos_iff {a : Int32} : 0 < a.toNatClampNeg ↔ 0 < a := by
  rw [Int32.lt_iff_toInt_lt]
  change 0 < a.toInt.toNat ↔ 0 < a.toInt
  omega

theorem toNatClampNeg_pos {a : Int32} (h : 0 < a) : 0 < a.toNatClampNeg :=
  toNatClampNeg_pos_iff.2 h

theorem toNatClampNeg_inj {a b : Int32} (ha : 0 < a) (h : a.toNatClampNeg = b.toNatClampNeg) :
    a = b := by
  have hpos : 0 < a.toInt := Int32.lt_iff_toInt_lt.1 ha
  have hint : a.toInt.toNat = b.toInt.toNat := h
  exact Int32.toInt_inj.1 (by omega)

end Inference
