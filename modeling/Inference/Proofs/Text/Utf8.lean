import Inference.Text.Utf8
/-! Text that is read as UTF-8 from its own bytes comes back as it was. -/
namespace Inference.Text.Utf8

variable {n k a : Nat} {low high : UInt8} {p : Pending} {rest : List UInt8}

/-- The first byte of a character, in numbers. -/
theorem start_ofNat (h : n < 256) :
    start (.ofNat n) =
      if n < 0x80 then .inl (.ofNat n)
      else if n < 0xc2 then .inl replacement
      else if n < 0xe0 then .inr ⟨1, 0x80, 0xbf, n - 0xc0⟩
      else if n < 0xf0 then
        .inr ⟨2, if n = 0xe0 then 0xa0 else 0x80, if n = 0xed then 0x9f else 0xbf, n - 0xe0⟩
      else if n < 0xf5 then
        .inr ⟨3, if n = 0xf0 then 0x90 else 0x80, if n = 0xf4 then 0x8f else 0xbf, n - 0xf0⟩
      else .inl replacement := by
  have hvalue : (UInt8.ofNat n).toNat = n := UInt8.toNat_ofNat_of_lt' h
  simp only [start, UInt8.lt_iff_toNat_lt, ← UInt8.toNat_inj, hvalue]
  rfl

/-- A byte that can come next and is the last of its character. -/
theorem decodeFrom_last (h : n < 256) (hlow : low.toNat ≤ n) (hhigh : n ≤ high.toNat) :
    decodeFrom (some ⟨1, low, high, a⟩) (.ofNat n :: rest) =
      .ofNat (a * 64 + (n - 0x80)) :: decodeFrom none rest := by
  have hvalue : (UInt8.ofNat n).toNat = n := UInt8.toNat_ofNat_of_lt' h
  have hnext : low ≤ .ofNat n ∧ .ofNat n ≤ high := by
    rw [UInt8.le_iff_toNat_le, UInt8.le_iff_toNat_le, hvalue]
    exact ⟨hlow, hhigh⟩
  simp only [decodeFrom, if_pos hnext, Nat.le_refl, if_true, hvalue]

/-- A byte that can come next and is followed by others. -/
theorem decodeFrom_next (h : n < 256) (hlow : low.toNat ≤ n) (hhigh : n ≤ high.toNat) :
    decodeFrom (some ⟨k + 2, low, high, a⟩) (.ofNat n :: rest) =
      decodeFrom (some ⟨k + 1, 0x80, 0xbf, a * 64 + (n - 0x80)⟩) rest := by
  have hvalue : (UInt8.ofNat n).toNat = n := UInt8.toNat_ofNat_of_lt' h
  have hnext : low ≤ .ofNat n ∧ .ofNat n ≤ high := by
    rw [UInt8.le_iff_toNat_le, UInt8.le_iff_toNat_le, hvalue]
    exact ⟨hlow, hhigh⟩
  have hmissing : ¬k + 2 ≤ 1 := by omega
  simp only [decodeFrom, if_pos hnext, if_neg hmissing, hvalue]
  rfl

theorem decodeFrom_first (h : start (.ofNat n) = .inr p) :
    decodeFrom none (.ofNat n :: rest) = decodeFrom (some p) rest := by
  simp only [decodeFrom, h]

theorem start_one (h : n < 0x80) : start (.ofNat n) = .inl (.ofNat n) := by
  rw [start_ofNat (by omega), if_pos h]

theorem start_two (hlow : 0xc2 ≤ n) (hhigh : n < 0xe0) :
    start (.ofNat n) = .inr ⟨1, 0x80, 0xbf, n - 0xc0⟩ := by
  rw [start_ofNat (by omega), if_neg (by omega), if_neg (by omega), if_pos hhigh]

theorem start_three (hlow : 0xe0 ≤ n) (hhigh : n < 0xf0) :
    start (.ofNat n) = .inr ⟨2, if n = 0xe0 then 0xa0 else 0x80,
      if n = 0xed then 0x9f else 0xbf, n - 0xe0⟩ := by
  rw [start_ofNat (by omega), if_neg (by omega), if_neg (by omega), if_neg (by omega), if_pos hhigh]

theorem start_four (hlow : 0xf0 ≤ n) (hhigh : n < 0xf5) :
    start (.ofNat n) = .inr ⟨3, if n = 0xf0 then 0x90 else 0x80,
      if n = 0xf4 then 0x8f else 0xbf, n - 0xf0⟩ := by
  rw [start_ofNat (by omega), if_neg (by omega), if_neg (by omega), if_neg (by omega),
    if_neg (by omega), if_pos hhigh]

/-- A character is read back from its own bytes. -/
theorem decodeFrom_utf8EncodeChar (c : Char) (rest : List UInt8) :
    decodeFrom none (String.utf8EncodeChar c ++ rest) = c :: decodeFrom none rest := by
  have hvalid : c.val.toNat < 0xd800 ∨ 0xdfff < c.val.toNat ∧ c.val.toNat < 0x110000 := c.valid
  have hscalar : ∀ {k : Nat}, k = c.val.toNat → Char.ofNat k = c := by
    rintro k rfl
    exact Char.ofNat_toNat c
  unfold String.utf8EncodeChar
  generalize c.val.toNat = v at hvalid hscalar ⊢
  by_cases h1 : v ≤ 0x7f
  · have hstart := start_one (show v < 0x80 by omega)
    simp only [h1, if_true, List.cons_append, List.nil_append, decodeFrom, hstart, hscalar rfl]
  · by_cases h2 : v ≤ 0x7ff
    · simp only [h1, h2, if_true, if_false, List.cons_append, List.nil_append]
      rw [decodeFrom_first (start_two (by omega) (by omega)),
        decodeFrom_last (by omega) (show 0x80 ≤ _ by omega) (show _ ≤ 0xbf by omega), hscalar]
      omega
    · by_cases h3 : v ≤ 0xffff
      · simp only [h1, h2, h3, if_true, if_false, List.cons_append, List.nil_append]
        rw [decodeFrom_first (start_three (by omega) (by omega)), decodeFrom_next (by omega) ?_ ?_,
          decodeFrom_last (by omega) (show 0x80 ≤ _ by omega) (show _ ≤ 0xbf by omega), hscalar]
        · omega
        · split
          · change 0xa0 ≤ _
            omega
          · change 0x80 ≤ _
            omega
        · split
          · change _ ≤ 0x9f
            omega
          · change _ ≤ 0xbf
            omega
      · simp only [h1, h2, h3, if_false, List.cons_append, List.nil_append]
        rw [decodeFrom_first (start_four (by omega) (by omega)), decodeFrom_next (by omega) ?_ ?_,
          decodeFrom_next (by omega) (show 0x80 ≤ _ by omega) (show _ ≤ 0xbf by omega),
          decodeFrom_last (by omega) (show 0x80 ≤ _ by omega) (show _ ≤ 0xbf by omega), hscalar]
        · omega
        · split
          · change 0x90 ≤ _
            omega
          · change 0x80 ≤ _
            omega
        · split
          · change _ ≤ 0x8f
            omega
          · change _ ≤ 0xbf
            omega

theorem decodeFrom_flatMap (cs : List Char) :
    decodeFrom none (cs.flatMap String.utf8EncodeChar) = cs := by
  induction cs with
  | nil => rfl
  | cons c cs ih => rw [List.flatMap_cons, decodeFrom_utf8EncodeChar, ih]

theorem toList_loop (b : ByteArray) (i : Nat) (bytes : List UInt8) :
    ByteArray.toList.loop b i bytes = bytes.reverse ++ b.data.toList.drop i := by
  fun_induction ByteArray.toList.loop b i bytes with
  | case1 i bytes hi ih =>
    have hlt : i < b.data.toList.length := hi
    have hget : b.get! i = b.data.toList[i] := getElem!_pos b.data i hi
    rw [ih, List.reverse_cons, List.append_assoc, List.singleton_append, hget,
      ← List.drop_eq_getElem_cons hlt]
  | case2 i bytes hi =>
    have hge : b.data.toList.length ≤ i := Nat.le_of_not_lt hi
    rw [List.drop_eq_nil_of_le hge, List.append_nil]

theorem toUTF8_toList (s : String) : s.toUTF8.toList = s.toList.flatMap String.utf8EncodeChar := by
  rw [ByteArray.toList, toList_loop, String.toUTF8_eq_toByteArray, ← String.utf8Encode_toList]
  exact List.toList_data_toByteArray

/-- Text is read back from its own bytes. -/
theorem decode_toUTF8 (s : String) : decode s.toUTF8.toList = s := by
  rw [decode, toUTF8_toList, decodeFrom_flatMap, String.ofList_toList]

end Inference.Text.Utf8
