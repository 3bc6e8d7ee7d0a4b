import Inference.Proofs.ModelFile.Reading
import Inference.Proofs.ModelFile.WellFormed
/-! What a reader takes from the front of the bytes was written for the value that it gives. -/
namespace Inference.Reader

open ModelFile (Writer.nat Writer.int Writer.singles)

/-- Whatever the reader takes stands in this relation to the value that it gives. -/
def Takes {α : Type} (reader : Reader α) (R : α → List UInt8 → Prop) : Prop :=
  ∀ bytes a rest, reader bytes = .ok (a, rest) → ∃ taken, bytes = taken ++ rest ∧ R a taken

section

variable {α β : Type} {reader : Reader α} {R R' : α → List UInt8 → Prop}

theorem Takes.mono (h : Takes reader R) (hmono : ∀ a bs, R a bs → R' a bs) : Takes reader R' := by
  intro bytes a rest hread
  obtain ⟨taken, hbytes, hrel⟩ := h bytes a rest hread
  exact ⟨taken, hbytes, hmono a taken hrel⟩

theorem Takes.pure {a : α} (h : R a []) : Takes (Pure.pure a) R := by
  intro bytes b rest hread
  cases hread
  exact ⟨[], rfl, h⟩

theorem Takes.throw (e : LoadError) : Takes (MonadExcept.throw e : Reader α) R := by
  intro bytes a rest hread
  cases hread

/-- What is read next has its bytes behind those taken so far. -/
theorem Takes.bind {f : α → Reader β} {Q : β → List UInt8 → Prop} (h : Takes reader R)
    (hf : ∀ a bs, R a bs → Takes (f a) fun b cs => Q b (bs ++ cs)) : Takes (reader >>= f) Q := by
  intro bytes b rest hread
  obtain ⟨a, middle, hfirst, hlast⟩ := bind_run_eq_ok.1 hread
  obtain ⟨bs, rfl, hrel⟩ := h bytes a middle hfirst
  obtain ⟨cs, rfl, hnext⟩ := hf a bs hrel middle b rest hlast
  exact ⟨bs ++ cs, (List.append_assoc ..).symm, hnext⟩

/-- What follows a check is read where its condition fails. -/
theorem Takes.check {c : Prop} [Decidable c] {cause : FormatError} {k : PUnit → Reader α}
    (h : ¬c → Takes reader R) : Takes (if c then fail cause >>= k else reader) R := by
  intro bytes a rest hread
  obtain ⟨hc, hread⟩ := check_run_eq_ok.1 hread
  exact h hc bytes a rest hread

/-- A reader that takes as many bytes as there are takes them all. -/
theorem Takes.all (h : Takes reader R) {bytes rest : List UInt8} {a : α}
    (hread : reader bytes = .ok (a, rest)) (hlength : ∀ bs, R a bs → bytes.length ≤ bs.length) :
    R a bytes := by
  obtain ⟨taken, hbytes, hrel⟩ := h bytes a rest hread
  have hshort := hlength taken hrel
  rw [hbytes, List.length_append] at hshort
  have hnil : rest = [] := List.eq_nil_of_length_eq_zero (by omega)
  rw [hbytes, hnil, List.append_nil]
  exact hrel

end

theorem word_takes : Takes word fun w bs => bs = LittleEndian.encode w := by
  intro bytes w rest hread
  unfold word at hread
  split at hread
  next a b c d rest =>
    cases hread
    exact ⟨[a, b, c, d], rfl, (LittleEndian.encode_decode a b c d).symm⟩
  next => cases hread

theorem int_takes : Takes int fun i bs => bs = Writer.int i :=
  word_takes.bind fun w bs hword => .pure (by simpa [Writer.int] using hword)

theorem single_takes : Takes single fun x bs => bs = LittleEndian.encode x.bits :=
  word_takes.bind fun w bs hword => .pure (by simpa using hword)

/-- The word for yes is known by not being zero alone. -/
theorem flag_takes : Takes flag fun b bs =>
    if b then ∃ yes : UInt32, yes ≠ 0 ∧ bs = LittleEndian.encode yes else bs = Writer.nat 0 := by
  refine int_takes.bind fun i bs hint => .pure ?_
  rw [List.append_nil, hint]
  by_cases hzero : i = 0
  · subst hzero
    rfl
  · have hword : i.toUInt32 ≠ 0 := fun h => hzero (congrArg UInt32.toInt32 h)
    simp only [ne_eq, hzero, not_false_eq_true, decide_true, if_true]
    exact ⟨i.toUInt32, hword, rfl⟩

theorem bytes_takes (n : Nat) : Takes (bytes n) fun bs cs => bs = cs ∧ bs.length = n := by
  intro all bs rest hread
  unfold bytes at hread
  split at hread
  next hroom =>
    cases hread
    exact ⟨all.take n, (List.take_append_drop n all).symm, rfl,
      List.length_take_of_le hroom⟩
  next => cases hread

/-- A word that is not negative is written as the size that it stands for. -/
theorem int_eq_nat {i : Int32} (h : 0 ≤ i) :
    Writer.int i = Writer.nat i.toNatClampNeg ∧ i.toNatClampNeg < 2 ^ 31 := by
  have hint : 0 ≤ i.toInt := Int32.le_iff_toInt_le.1 h
  have hsize : ((i.toNatClampNeg : Nat) : Int) = i.toInt := Int.toNat_of_nonneg hint
  have hback : i = Int32.ofNat i.toNatClampNeg := calc
    i = Int32.ofInt i.toInt := (Int32.ofInt_toInt i).symm
    _ = Int32.ofInt (i.toNatClampNeg : Nat) := by rw [hsize]
    _ = Int32.ofNat i.toNatClampNeg := rfl
  constructor
  · exact congrArg Writer.int hback
  · exact i.toNatClampNeg_lt

theorem count_takes (field : String) :
    Takes (count field) fun n bs => n < 2 ^ 31 ∧ bs = Writer.nat n := by
  refine int_takes.bind fun i bs hint => .check fun hnonneg => .pure ?_
  obtain ⟨hwritten, hsize⟩ := int_eq_nat (Int32.not_lt.1 hnonneg)
  rw [List.append_nil, hint, hwritten]
  exact ⟨hsize, rfl⟩

theorem positive_takes (field : String) :
    Takes (positive field) fun n bs => IsSize n ∧ bs = Writer.nat n := by
  refine (count_takes field).bind fun n bs ⟨hsize, hbytes⟩ => .check fun hpos => .pure ?_
  rw [List.append_nil]
  exact ⟨⟨Nat.pos_of_ne_zero hpos, hsize⟩, hbytes⟩

theorem operandIndex_takes (operands : Nat) :
    Takes (operandIndex operands) fun n bs => n < operands ∧ bs = Writer.nat n := by
  refine int_takes.bind fun i bs hint => ?_
  split
  next hindex =>
    refine .pure ?_
    rw [List.append_nil, hint, (int_eq_nat hindex.1).1]
    exact ⟨hindex.2, rfl⟩
  next => exact .throw _

theorem code_takes {α : Type} {ofCode? : Int32 → Option α} (codeOf : α → Nat)
    {unknown : Int32 → FormatError} (h : ∀ i a, ofCode? i = some a → i = .ofNat (codeOf a)) :
    Takes (code ofCode? unknown) fun a bs =>
      (∃ i, ofCode? i = some a) ∧ bs = Writer.nat (codeOf a) := by
  refine int_takes.bind fun i bs hint => ?_
  split
  next a hcode =>
    refine .pure ⟨⟨i, hcode⟩, ?_⟩
    rw [List.append_nil, hint, h i a hcode]
    rfl
  next => exact .throw _

theorem singles_takes (count : Nat) :
    Takes (singles count) fun xs bs => xs.size = count ∧ bs = Writer.singles xs := by
  refine .check fun _ => (bytes_takes (count * 4)).bind fun bs _ ⟨hsame, hlength⟩ => .pure ?_
  obtain ⟨hsize, hwords⟩ := LittleEndian.encode_decodeAll #[] hlength
  subst hsame
  constructor
  · rw [Array.size_map, hsize]
    simp
  · rw [List.append_nil, Writer.singles, Array.toList_map, List.flatMap_map, hwords]
    rfl

end Inference.Reader
