import Inference.Proofs.Text.Utf8
/-! What damaged text is read as: the characters that are whole are kept, and each part that cannot be
completed is replaced. -/
namespace Inference.Text.Utf8

/-- First bytes of a character, or all of them. -/
def Begins (part : List UInt8) : Prop := ∃ c : Char, part <+: String.utf8EncodeChar c

/-- A part of a text with which reading gets stuck: some first bytes of a character, or a byte that is
none of these, with which the bytes behind it do not go on. -/
structure Damaged (part rest : List UInt8) : Prop where
  begun : Begins part ∨ part.length = 1
  ne_nil : part ≠ []
  incomplete : ∀ c, part ≠ String.utf8EncodeChar c
  stuck : ∀ b ∈ rest.head?, ¬Begins (part ++ [b])

/-- Bytes, the characters that they are read as, and how many bytes longer these are. -/
inductive ReadAs : List UInt8 → List Char → Nat → Prop
  | nil : ReadAs [] [] 0
  | whole (c : Char) {rest : List UInt8} {cs : List Char} {growth : Nat} (h : ReadAs rest cs growth) :
    ReadAs (String.utf8EncodeChar c ++ rest) (c :: cs) growth
  | damaged {part rest : List UInt8} {cs : List Char} {growth : Nat} (hpart : Damaged part rest)
      (h : ReadAs rest cs growth) :
    ReadAs (part ++ rest) (replacement :: cs) (growth + (3 - part.length))

theorem Begins.of_prefix {part whole : List UInt8} (h : Begins whole) (hpart : part <+: whole) :
    Begins part := by
  obtain ⟨c, hc⟩ := h
  exact ⟨c, hpart.trans hc⟩

theorem Damaged.length_le {part rest : List UInt8} (h : Damaged part rest) : part.length ≤ 3 := by
  obtain ⟨c, hc⟩ | hone := h.begun
  · have hne : part.length ≠ (String.utf8EncodeChar c).length :=
      fun heq => h.incomplete c (hc.eq_of_length heq)
    have hle := hc.length_le
    have hfour := c.utf8Size_le_four
    rw [String.length_utf8EncodeChar] at hne hle
    omega
  · omega

/-- Text has the bytes of what it is read from, and those that damage adds. -/
theorem ReadAs.length_eq {bytes : List UInt8} {cs : List Char} {growth : Nat}
    (h : ReadAs bytes cs growth) :
    (cs.flatMap String.utf8EncodeChar).length = bytes.length + growth := by
  induction h with
  | nil => rfl
  | whole c h ih =>
    rw [List.flatMap_cons, List.length_append, List.length_append, ih]
    omega
  | @damaged part rest cs growth hpart h ih =>
    have hle := hpart.length_le
    have hthree : (String.utf8EncodeChar replacement).length = 3 := by decide
    rw [List.flatMap_cons, List.length_append, List.length_append, ih, hthree]
    omega

/-- A character that is read up to some byte, and what is pending then. -/
inductive Open : List UInt8 → Pending → Prop
  | two {n : Nat} (hlow : 0xc2 ≤ n) (hhigh : n < 0xe0) : Open [.ofNat n] ⟨1, 0x80, 0xbf, n - 0xc0⟩
  | three {n : Nat} (hlow : 0xe0 ≤ n) (hhigh : n < 0xf0) : Open [.ofNat n]
      ⟨2, if n = 0xe0 then 0xa0 else 0x80, if n = 0xed then 0x9f else 0xbf, n - 0xe0⟩
  | four {n : Nat} (hlow : 0xf0 ≤ n) (hhigh : n < 0xf5) : Open [.ofNat n]
      ⟨3, if n = 0xf0 then 0x90 else 0x80, if n = 0xf4 then 0x8f else 0xbf, n - 0xf0⟩
  | lastOfThree {a : Nat} (hlow : 0x20 ≤ a) (hhigh : a < 0x400) (hgap : a < 0x360 ∨ 0x380 ≤ a) :
    Open [.ofNat (a / 64 + 0xe0), .ofNat (a % 64 + 0x80)] ⟨1, 0x80, 0xbf, a⟩
  | nextOfFour {a : Nat} (hlow : 0x10 ≤ a) (hhigh : a < 0x110) :
    Open [.ofNat (a / 64 + 0xf0), .ofNat (a % 64 + 0x80)] ⟨2, 0x80, 0xbf, a⟩
  | lastOfFour {a : Nat} (hlow : 0x400 ≤ a) (hhigh : a < 0x4400) :
    Open [.ofNat (a / 4096 + 0xf0), .ofNat (a / 64 % 64 + 0x80), .ofNat (a % 64 + 0x80)]
      ⟨1, 0x80, 0xbf, a⟩

/-- The bytes of a character, in numbers. -/
theorem utf8EncodeChar_ofNat {v : Nat} (h : v < 0xd800 ∨ 0xdfff < v ∧ v < 0x110000) :
    String.utf8EncodeChar (.ofNat v) =
      if v ≤ 0x7f then [.ofNat v]
      else if v ≤ 0x7ff then [.ofNat (v / 64 % 32 + 0xc0), .ofNat (v % 64 + 0x80)]
      else if v ≤ 0xffff then
        [.ofNat (v / 4096 % 16 + 0xe0), .ofNat (v / 64 % 64 + 0x80), .ofNat (v % 64 + 0x80)]
      else
        [.ofNat (v / 262144 % 8 + 0xf0), .ofNat (v / 4096 % 64 + 0x80), .ofNat (v / 64 % 64 + 0x80),
          .ofNat (v % 64 + 0x80)] := by
  have hvalue : (Char.ofNat v).val.toNat = v := by
    unfold Char.ofNat
    rw [dif_pos h]
    rfl
  unfold String.utf8EncodeChar
  rw [hvalue]

/-- The least second byte, which is greater behind one of the first bytes. -/
theorem low_le {n k first : Nat} {low low' : UInt8} (hlow : low' ≤ low)
    (h : (if n = first then low else low').toNat ≤ k) :
    low'.toNat ≤ k ∧ (n = first → low.toNat ≤ k) := by
  split at h
  · exact ⟨Nat.le_trans hlow h, fun _ => h⟩
  next hn => exact ⟨h, fun heq => absurd heq hn⟩

/-- The greatest second byte, which is less behind another first byte. -/
theorem le_high {n k first : Nat} {high high' : UInt8} (hhigh : high ≤ high')
    (h : k ≤ (if n = first then high else high').toNat) :
    k ≤ high'.toNat ∧ (n = first → k ≤ high.toNat) := by
  split at h
  · exact ⟨Nat.le_trans h hhigh, fun _ => h⟩
  next hn => exact ⟨h, fun heq => absurd heq hn⟩

/-- A byte that can come next completes the character, or it is one more byte of it. -/
theorem Open.accept {part : List UInt8} {p : Pending} (h : Open part p) {b : UInt8}
    (hlow : p.low ≤ b) (hhigh : b ≤ p.high) :
    if p.missing ≤ 1 then
      part ++ [b] = String.utf8EncodeChar (.ofNat (p.scalar * 64 + (b.toNat - 0x80)))
    else Open (part ++ [b]) ⟨p.missing - 1, 0x80, 0xbf, p.scalar * 64 + (b.toNat - 0x80)⟩ := by
  obtain ⟨k, hk, rfl⟩ : ∃ k < 256, b = .ofNat k := ⟨b.toNat, b.toNat_lt, UInt8.ofNat_toNat.symm⟩
  have hvalue : (UInt8.ofNat k).toNat = k := UInt8.toNat_ofNat_of_lt' hk
  rw [UInt8.le_iff_toNat_le, hvalue] at hlow hhigh
  rw [hvalue]
  cases h with
  | @two n hn hn' =>
    have hlow : 0x80 ≤ k := hlow
    have hhigh : k ≤ 0xbf := hhigh
    dsimp only
    rw [if_pos (Nat.le_refl 1), utf8EncodeChar_ofNat (by omega), if_neg (by omega),
      if_pos (by omega)]
    simp only [List.cons_append, List.nil_append, List.cons.injEq, and_true]
    exact ⟨congrArg _ (by omega), congrArg _ (by omega)⟩
  | @three n hn hn' =>
    have hlow : 0x80 ≤ k ∧ (n = 0xe0 → 0xa0 ≤ k) := low_le (by decide) hlow
    have hhigh : k ≤ 0xbf ∧ (n = 0xed → k ≤ 0x9f) := le_high (by decide) hhigh
    have hopen : Open _ ⟨1, 0x80, 0xbf, (n - 0xe0) * 64 + (k - 0x80)⟩ :=
      .lastOfThree (by omega) (by omega) (by omega)
    rw [show ((n - 0xe0) * 64 + (k - 0x80)) / 64 + 0xe0 = n by omega,
      show ((n - 0xe0) * 64 + (k - 0x80)) % 64 + 0x80 = k by omega] at hopen
    exact hopen
  | @lastOfThree a ha ha' hgap =>
    have hlow : 0x80 ≤ k := hlow
    have hhigh : k ≤ 0xbf := hhigh
    dsimp only
    rw [if_pos (Nat.le_refl 1), utf8EncodeChar_ofNat (by omega), if_neg (by omega),
      if_neg (by omega), if_pos (by omega)]
    simp only [List.cons_append, List.nil_append, List.cons.injEq, and_true]
    exact ⟨congrArg _ (by omega), congrArg _ (by omega), congrArg _ (by omega)⟩
  | @four n hn hn' =>
    have hlow : 0x80 ≤ k ∧ (n = 0xf0 → 0x90 ≤ k) := low_le (by decide) hlow
    have hhigh : k ≤ 0xbf ∧ (n = 0xf4 → k ≤ 0x8f) := le_high (by decide) hhigh
    have hopen : Open _ ⟨2, 0x80, 0xbf, (n - 0xf0) * 64 + (k - 0x80)⟩ :=
      .nextOfFour (by omega) (by omega)
    rw [show ((n - 0xf0) * 64 + (k - 0x80)) / 64 + 0xf0 = n by omega,
      show ((n - 0xf0) * 64 + (k - 0x80)) % 64 + 0x80 = k by omega] at hopen
    exact hopen
  | @nextOfFour a ha ha' =>
    have hlow : 0x80 ≤ k := hlow
    have hhigh : k ≤ 0xbf := hhigh
    have hopen : Open _ ⟨1, 0x80, 0xbf, a * 64 + (k - 0x80)⟩ :=
      .lastOfFour (by omega) (by omega)
    rw [show (a * 64 + (k - 0x80)) / 4096 = a / 64 by omega,
      show (a * 64 + (k - 0x80)) / 64 % 64 = a % 64 by omega,
      show (a * 64 + (k - 0x80)) % 64 + 0x80 = k by omega] at hopen
    exact hopen
  | @lastOfFour a ha ha' =>
    have hlow : 0x80 ≤ k := hlow
    have hhigh : k ≤ 0xbf := hhigh
    dsimp only
    rw [if_pos (Nat.le_refl 1), utf8EncodeChar_ofNat (by omega), if_neg (by omega),
      if_neg (by omega), if_neg (by omega)]
    simp only [List.cons_append, List.nil_append, List.cons.injEq, and_true]
    exact ⟨congrArg _ (by omega), congrArg _ (by omega), congrArg _ (by omega),
      congrArg _ (by omega)⟩

theorem Open.low_le_high {part : List UInt8} {p : Pending} (h : Open part p) : p.low ≤ p.high := by
  have hall : (0x80 : UInt8) ≤ 0xbf := by decide
  cases h with
  | @three n =>
    by_cases hn : n = 0xe0
    · subst hn
      decide
    · dsimp only
      rw [if_neg hn]
      split <;> decide
  | @four n =>
    by_cases hn : n = 0xf0
    · subst hn
      decide
    · dsimp only
      rw [if_neg hn]
      split <;> decide
  | _ => exact hall

/-- What is pending can be completed, whatever has been read of it. -/
theorem Open.begins {part : List UInt8} {p : Pending} (h : Open part p) : Begins part := by
  generalize hmissing : p.missing = missing
  induction missing using Nat.strongRecOn generalizing part p with
  | ind missing ih =>
    subst hmissing
    have hnext := h.accept (UInt8.le_refl p.low) h.low_le_high
    split at hnext
    next =>
      refine ⟨.ofNat (p.scalar * 64 + (p.low.toNat - 0x80)), ?_⟩
      rw [← hnext]
      exact List.prefix_append part [p.low]
    next hmore =>
      have hbegins : Begins (part ++ [p.low]) := ih (p.missing - 1) (by omega) hnext rfl
      exact hbegins.of_prefix (List.prefix_append part [p.low])

/-- A byte is a character, or it begins one, or it does neither. -/
theorem start_cases (b : UInt8) : (∃ c, start b = .inl c ∧ [b] = String.utf8EncodeChar c) ∨
    start b = .inl replacement ∨ ∃ p, start b = .inr p ∧ Open [b] p := by
  obtain ⟨n, hn, rfl⟩ : ∃ n < 256, b = .ofNat n := ⟨b.toNat, b.toNat_lt, UInt8.ofNat_toNat.symm⟩
  rw [start_ofNat hn]
  by_cases hone : n < 0x80
  · rw [if_pos hone]
    refine .inl ⟨_, rfl, ?_⟩
    rw [utf8EncodeChar_ofNat (by omega), if_pos (by omega)]
  rw [if_neg hone]
  by_cases hnone : n < 0xc2
  · exact .inr (.inl (if_pos hnone))
  rw [if_neg hnone]
  by_cases htwo : n < 0xe0
  · exact .inr (.inr ⟨_, if_pos htwo, .two (by omega) htwo⟩)
  rw [if_neg htwo]
  by_cases hthree : n < 0xf0
  · exact .inr (.inr ⟨_, if_pos hthree, .three (by omega) hthree⟩)
  rw [if_neg hthree]
  by_cases hfour : n < 0xf5
  · exact .inr (.inr ⟨_, if_pos hfour, .four (by omega) hfour⟩)
  · exact .inr (.inl (if_neg hfour))

section

variable {p : Pending} {b : UInt8} {part rest : List UInt8}

theorem decodeFrom_of_refused (h : ¬(p.low ≤ b ∧ b ≤ p.high)) :
    decodeFrom (some p) (b :: rest) = replacement :: decodeFrom none (b :: rest) := by
  simp only [decodeFrom, if_neg h]

theorem decodeFrom_of_accepted (h : p.low ≤ b ∧ b ≤ p.high) :
    decodeFrom (some p) (b :: rest) =
      if p.missing ≤ 1 then .ofNat (p.scalar * 64 + (b.toNat - 0x80)) :: decodeFrom none rest
      else decodeFrom (some ⟨p.missing - 1, 0x80, 0xbf, p.scalar * 64 + (b.toNat - 0x80)⟩) rest := by
  simp only [decodeFrom, if_pos h]

/-- Something is read where something is pending or to come. -/
theorem decodeFrom_some_ne_nil (p : Pending) (bytes : List UInt8) : decodeFrom (some p) bytes ≠ [] := by
  induction bytes generalizing p with
  | nil => exact List.cons_ne_nil _ _
  | cons b rest ih =>
    by_cases hb : p.low ≤ b ∧ b ≤ p.high
    · rw [decodeFrom_of_accepted hb]
      split
      · exact List.cons_ne_nil _ _
      · exact ih _
    · rw [decodeFrom_of_refused hb]
      exact List.cons_ne_nil _ _

theorem decodeFrom_cons_ne_nil (b : UInt8) (rest : List UInt8) :
    decodeFrom none (b :: rest) ≠ [] := by
  unfold decodeFrom
  split
  · exact List.cons_ne_nil _ _
  · exact decodeFrom_some_ne_nil _ rest

/-- What is read as two characters is no part of one. -/
theorem not_begins (hread : ∀ more, ∃ c cs, decodeFrom none (part ++ more) = c :: cs ∧ cs ≠ []) :
    ¬Begins part := by
  rintro ⟨c, more, hc⟩
  obtain ⟨first, cs, hread, hmore⟩ := hread more
  have hone := decodeFrom_utf8EncodeChar c []
  rw [List.append_nil, ← hc, hread] at hone
  exact hmore (List.cons.inj hone).2

/-- First bytes of a character that have been read, and what is pending then. -/
structure Pends (part : List UInt8) (p : Pending) : Prop where
  numbers : Open part p
  reads : ∀ rest, decodeFrom none (part ++ rest) = decodeFrom (some p) rest

theorem Pends.damaged (h : Pends part p) (hrest : ∀ b ∈ rest.head?, ¬(p.low ≤ b ∧ b ≤ p.high)) :
    Damaged part rest := by
  refine ⟨.inl h.numbers.begins, ?_, fun c hc => ?_, fun b hb => not_begins fun more => ?_⟩
  · rintro rfl
    cases h.numbers
  · -- one more byte that goes on with the part is read as no more than one character
    have htwo := h.reads [p.low]
    rw [hc, decodeFrom_utf8EncodeChar,
      decodeFrom_of_accepted ⟨UInt8.le_refl p.low, h.numbers.low_le_high⟩] at htwo
    split at htwo
    · exact decodeFrom_cons_ne_nil _ _ (List.cons.inj htwo).2
    · exact decodeFrom_cons_ne_nil _ _ (List.cons.inj htwo).2
  · refine ⟨replacement, decodeFrom none (b :: more), ?_, decodeFrom_cons_ne_nil b more⟩
    rw [List.append_assoc, h.reads]
    exact decodeFrom_of_refused (hrest b hb)

theorem decodeFrom_of_start_inl {c : Char} (h : start b = .inl c) :
    decodeFrom none (b :: rest) = c :: decodeFrom none rest := by
  simp only [decodeFrom, h]

theorem decodeFrom_of_start_inr (h : start b = .inr p) :
    decodeFrom none (b :: rest) = decodeFrom (some p) rest := by
  simp only [decodeFrom, h]

/-- A byte that is neither a character nor the beginning of one. -/
theorem damaged_single (h : start b = .inl replacement) (rest : List UInt8) :
    Damaged [b] rest := by
  refine ⟨.inr rfl, List.cons_ne_nil _ _, fun c hc => ?_, fun b' _ => not_begins fun more => ?_⟩
  · have hone := decodeFrom_utf8EncodeChar c []
    rw [List.append_nil, ← hc, decodeFrom_of_start_inl h] at hone
    obtain ⟨rfl, -⟩ := List.cons.inj hone
    have hlength : 1 = (String.utf8EncodeChar replacement).length := congrArg List.length hc
    exact absurd hlength (by decide)
  · exact ⟨_, _, decodeFrom_of_start_inl h, decodeFrom_cons_ne_nil b' more⟩

theorem Pends.accept (h : Pends part p) (hb : p.low ≤ b ∧ b ≤ p.high) (hmissing : ¬p.missing ≤ 1) :
    Pends (part ++ [b]) ⟨p.missing - 1, 0x80, 0xbf, p.scalar * 64 + (b.toNat - 0x80)⟩ := by
  have hnext := h.numbers.accept hb.1 hb.2
  rw [if_neg hmissing] at hnext
  refine ⟨hnext, fun more => ?_⟩
  rw [List.append_assoc, h.reads, List.singleton_append, decodeFrom_of_accepted hb, if_neg hmissing]

/-- Whatever is read, its characters are those that are whole and one for each part with which reading
gets stuck; so it goes on where something is pending. -/
theorem readAs_decodeFrom (bytes : List UInt8) :
    (∃ growth, ReadAs bytes (decodeFrom none bytes) growth) ∧
    ∀ part p, Pends part p → ∃ growth, ReadAs (part ++ bytes) (decodeFrom (some p) bytes) growth := by
  induction bytes with
  | nil =>
    refine ⟨⟨0, .nil⟩, fun part p h => ⟨0 + (3 - part.length), ?_⟩⟩
    exact .damaged (h.damaged nofun) .nil
  | cons b rest ih =>
    obtain ⟨⟨growth, hrest⟩, hpending⟩ := ih
    have hfirst : ∃ growth, ReadAs (b :: rest) (decodeFrom none (b :: rest)) growth := by
      obtain ⟨c, hstart, hc⟩ | hstart | ⟨p, hstart, hopen⟩ := start_cases b
      · rw [decodeFrom_of_start_inl hstart, ← List.singleton_append, hc]
        exact ⟨growth, .whole c hrest⟩
      · rw [decodeFrom_of_start_inl hstart, ← List.singleton_append]
        exact ⟨_, .damaged (damaged_single hstart rest) hrest⟩
      · rw [decodeFrom_of_start_inr hstart]
        exact hpending [b] p ⟨hopen, fun _ => decodeFrom_of_start_inr hstart⟩
    refine ⟨hfirst, fun part p h => ?_⟩
    by_cases hb : p.low ≤ b ∧ b ≤ p.high
    · rw [List.append_cons]
      by_cases hmissing : p.missing ≤ 1
      · have hwhole := h.numbers.accept hb.1 hb.2
        rw [if_pos hmissing] at hwhole
        rw [decodeFrom_of_accepted hb, if_pos hmissing, hwhole]
        exact ⟨growth, .whole _ hrest⟩
      · rw [decodeFrom_of_accepted hb, if_neg hmissing]
        exact hpending _ _ (h.accept hb hmissing)
    · -- the byte that does not go on is read once more, as a first one
      obtain ⟨growth, hfirst⟩ := hfirst
      rw [decodeFrom_of_refused hb]
      have hrefused : ∀ b' ∈ (b :: rest).head?, ¬(p.low ≤ b' ∧ b' ≤ p.high) := by
        rintro _ ⟨⟩
        exact hb
      exact ⟨_, .damaged (h.damaged hrefused) hfirst⟩

end

section

variable {bytes : List UInt8} {cs : List Char} {growth : Nat}

/-- No part of a text becomes more than three times as long. -/
theorem ReadAs.growth_le (h : ReadAs bytes cs growth) : growth ≤ 2 * bytes.length := by
  induction h with
  | nil => exact Nat.le_refl 0
  | whole c h ih =>
    rw [List.length_append]
    omega
  | @damaged part rest cs growth hpart h ih =>
    have hpos := List.length_pos_iff.2 hpart.ne_nil
    rw [List.length_append]
    omega

/-- Damage adds no zeros. -/
theorem ReadAs.ne_zero (h : ReadAs bytes cs growth) (hbytes : ∀ b ∈ bytes, b ≠ 0) :
    ∀ b ∈ cs.flatMap String.utf8EncodeChar, b ≠ 0 := by
  induction h with
  | nil => exact nofun
  | whole c h ih =>
    obtain ⟨hc, hrest⟩ := List.forall_mem_append.1 hbytes
    rw [List.flatMap_cons]
    exact List.forall_mem_append.2 ⟨hc, ih hrest⟩
  | damaged hpart h ih =>
    obtain ⟨-, hrest⟩ := List.forall_mem_append.1 hbytes
    have hreplacement : ∀ b ∈ String.utf8EncodeChar replacement, b ≠ 0 := by decide +kernel
    rw [List.flatMap_cons]
    exact List.forall_mem_append.2 ⟨hreplacement, ih hrest⟩

theorem ReadAs.eq_nil (h : ReadAs [] cs growth) : cs = [] := by
  generalize hbytes : ([] : List UInt8) = bytes at h
  cases h with
  | nil => rfl
  | whole c => exact absurd (List.append_eq_nil_iff.1 hbytes.symm).1 String.utf8EncodeChar_ne_nil
  | damaged hpart => exact absurd (List.append_eq_nil_iff.1 hbytes.symm).1 hpart.ne_nil

/-- A character that is cut off in the middle is one part with which reading gets stuck. -/
theorem decodeFrom_cut {part more : List UInt8} {c : Char}
    (h : part ++ more = String.utf8EncodeChar c) (hpart : part ≠ []) (hmore : more ≠ []) :
    decodeFrom none part = [replacement] := by
  obtain ⟨⟨growth, hread⟩, -⟩ := readAs_decodeFrom part
  generalize decodeFrom none part = cs at hread
  cases hread with
  | nil => exact absurd rfl hpart
  | @whole c' rest cs growth hrest =>
    -- no character begins with another one
    have hone := decodeFrom_utf8EncodeChar c []
    rw [List.append_nil, ← h, List.append_assoc, decodeFrom_utf8EncodeChar] at hone
    cases hbehind : rest ++ more with
    | nil => exact absurd (List.append_eq_nil_iff.1 hbehind).2 hmore
    | cons b bytes =>
      rw [hbehind] at hone
      exact absurd (List.cons.inj hone).2 (decodeFrom_cons_ne_nil b bytes)
  | @damaged part' rest cs growth hdamaged hrest =>
    cases rest with
    | nil => rw [hrest.eq_nil]
    | cons b rest =>
      refine absurd ⟨c, rest ++ more, ?_⟩ (hdamaged.stuck b rfl)
      simp only [← h, List.append_assoc, List.cons_append, List.nil_append]

/-- The characters of which all or some bytes are among the first ones. -/
def cut : Nat → List Char → List Char
  | _, [] => []
  | n, c :: cs =>
    if n = 0 then []
    else if c.utf8Size ≤ n then c :: cut (n - c.utf8Size) cs
    else [replacement]

theorem decodeFrom_take (n : Nat) (cs : List Char) :
    decodeFrom none ((cs.flatMap String.utf8EncodeChar).take n) = cut n cs := by
  induction cs generalizing n with
  | nil => rw [List.flatMap_nil, List.take_nil]; rfl
  | cons c cs ih =>
    rw [List.flatMap_cons, List.take_append, String.length_utf8EncodeChar, cut]
    by_cases hzero : n = 0
    · rw [if_pos hzero, hzero, Nat.zero_sub]
      rfl
    rw [if_neg hzero]
    by_cases hwhole : c.utf8Size ≤ n
    · have hall : (String.utf8EncodeChar c).length ≤ n := by
        rwa [String.length_utf8EncodeChar]
      rw [if_pos hwhole, List.take_of_length_le hall, decodeFrom_utf8EncodeChar, ih]
    · have hlong : n < (String.utf8EncodeChar c).length := by
        rw [String.length_utf8EncodeChar]
        omega
      rw [if_neg hwhole, Nat.sub_eq_zero_of_le (Nat.le_of_not_le hwhole), List.take_zero,
        List.append_nil]
      refine decodeFrom_cut (List.take_append_drop n _) ?_ ?_
      · apply List.ne_nil_of_length_pos
        rw [List.length_take]
        omega
      · apply List.ne_nil_of_length_pos
        rw [List.length_drop]
        omega

/-- What is cut off is missed, unless it is a part of the last character and that is a replacement
already. -/
theorem cut_eq_self_iff (n : Nat) (cs : List Char) : cut n cs = cs ↔
    (cs.flatMap String.utf8EncodeChar).length ≤ n ∨
      ∃ init, cs = init ++ [replacement] ∧ (init.flatMap String.utf8EncodeChar).length < n := by
  induction cs generalizing n with
  | nil => exact iff_of_true rfl (.inl (Nat.zero_le n))
  | cons c cs ih =>
    have hlength : ∀ (c : Char) (cs : List Char), ((c :: cs).flatMap String.utf8EncodeChar).length =
        c.utf8Size + (cs.flatMap String.utf8EncodeChar).length := by
      intro c cs
      rw [List.flatMap_cons, List.length_append, String.length_utf8EncodeChar]
    rw [hlength, cut]
    by_cases hzero : n = 0
    · have hpos := c.utf8Size_pos
      rw [if_pos hzero]
      refine iff_of_false (List.cons_ne_nil c cs).symm ?_
      rintro (hle | ⟨init, -, hlt⟩) <;> omega
    rw [if_neg hzero]
    by_cases hwhole : c.utf8Size ≤ n
    · rw [if_pos hwhole, List.cons_inj_right, ih]
      constructor
      · rintro (hle | ⟨init, rfl, hlt⟩)
        · exact .inl (by omega)
        · refine .inr ⟨c :: init, rfl, ?_⟩
          rw [hlength]
          omega
      · rintro (hle | ⟨_ | ⟨d, init⟩, heq, hlt⟩)
        · exact .inl (by omega)
        · obtain ⟨-, rfl⟩ := List.cons.inj heq
          exact .inl (Nat.zero_le _)
        · obtain ⟨rfl, rfl⟩ := List.cons.inj heq
          rw [hlength] at hlt
          exact .inr ⟨init, rfl, by omega⟩
    · rw [if_neg hwhole]
      constructor
      · intro heq
        exact .inr ⟨[], heq.symm, Nat.pos_of_ne_zero hzero⟩
      · rintro (hle | ⟨_ | ⟨d, init⟩, heq, hlt⟩)
        · omega
        · exact heq.symm
        · obtain ⟨rfl, -⟩ := List.cons.inj heq
          rw [hlength] at hlt
          omega

end

end Inference.Text.Utf8
