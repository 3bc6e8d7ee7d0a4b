import Inference.ModelFile.Writer
import Inference.Proofs.Concur
import Inference.Proofs.Word
import Mathlib.Algebra.Order.Ring.Nat
/-! Readers run on bytes, and the bytes that a reader takes whatever follows them. -/
namespace Inference.Reader

open ModelFile (Writer.nat Writer.int Writer.singles)

/-- The reader takes just these bytes, whatever follows them, for the value. -/
def Reads {α : Type} (reader : Reader α) (bytes : List UInt8) (a : α) : Prop :=
  ∀ rest, reader (bytes ++ rest) = .ok (a, rest)

section

variable {α β : Type} {reader : Reader α} {bs cs rest : List UInt8} {a : α} {b : β} {n : Nat}

theorem bind_run (reader : Reader α) (f : α → Reader β) (bs : List UInt8) :
    (reader >>= f) bs = reader bs >>= fun p => f p.1 p.2 := rfl

theorem bind_run_eq_ok {f : α → Reader β} : (reader >>= f) bs = .ok (b, rest) ↔
    ∃ a middle, reader bs = .ok (a, middle) ∧ f a middle = .ok (b, rest) := by
  rw [bind_run, bind_eq_ok, Prod.exists]

theorem check_run_eq_ok {c : Prop} [Decidable c] {cause : FormatError} {k : PUnit → Reader α} :
    (if c then fail cause >>= k else reader) bs = .ok (a, rest) ↔ ¬c ∧ reader bs = .ok (a, rest) := by
  by_cases hc : c
  · rw [if_pos hc]
    exact ⟨nofun, fun h => absurd hc h.1⟩
  · rw [if_neg hc]
    exact ⟨fun h => ⟨hc, h⟩, And.right⟩

theorem Reads.pure (a : α) : Reads (Pure.pure a) [] a := fun _ => rfl

theorem Reads.bind {f : α → Reader β} (h : Reads reader bs a) (hf : Reads (f a) cs b) :
    Reads (reader >>= f) (bs ++ cs) b := by
  intro rest
  have hfirst := h (cs ++ rest)
  rw [← List.append_assoc] at hfirst
  exact bind_run_eq_ok.2 ⟨a, cs ++ rest, hfirst, hf rest⟩

/-- What follows a reader that is the last to take bytes. -/
theorem Reads.bind_nil {f : α → Reader β} (h : Reads reader bs a) (hf : Reads (f a) [] b) :
    Reads (reader >>= f) bs b := by
  have hboth := h.bind hf
  rwa [List.append_nil] at hboth

theorem word_reads (w : UInt32) : Reads word (LittleEndian.encode w) w := by
  intro rest
  have hbytes : LittleEndian.encode w ++ rest = w.toUInt8 :: (w >>> 8).toUInt8 ::
      (w >>> 16).toUInt8 :: (w >>> 24).toUInt8 :: rest := rfl
  rw [hbytes, word, LittleEndian.decode_encode]

theorem int_reads (i : Int32) : Reads int (Writer.int i) i :=
  (word_reads i.toUInt32).bind_nil (.pure _)

theorem nat_reads (n : Nat) : Reads int (Writer.nat n) (.ofNat n) :=
  (word_reads (.ofNat n)).bind_nil (.pure _)

theorem single_reads (x : Single) : Reads single (LittleEndian.encode x.bits) x :=
  (word_reads x.bits).bind_nil (.pure _)

theorem flag_reads_yes {w : UInt32} (h : w ≠ 0) : Reads flag (LittleEndian.encode w) true := by
  have hint : Reads int (LittleEndian.encode w) w.toInt32 := (word_reads w).bind_nil (.pure _)
  have hne : w.toInt32 ≠ 0 := by
    intro hzero
    exact h (congrArg Int32.toUInt32 hzero)
  refine hint.bind_nil ?_
  rw [decide_eq_true hne]
  exact .pure _

theorem flag_reads_no : Reads flag (Writer.nat 0) false :=
  (nat_reads 0).bind_nil (.pure _)

theorem bytes_reads (bs : List UInt8) : Reads (bytes bs.length) bs bs := by
  intro rest
  simp [bytes]

theorem ofNat_nonneg (h : n < 2 ^ 31) : 0 ≤ Int32.ofNat n := by
  rw [Int32.le_iff_toInt_le, Int32.toInt_ofNat_of_lt h]
  exact Int.natCast_nonneg n

theorem count_reads (field : String) (h : n < 2 ^ 31) : Reads (count field) (Writer.nat n) n := by
  have hnonneg : ¬Int32.ofNat n < 0 := Int32.not_lt.2 (ofNat_nonneg h)
  refine (nat_reads n).bind_nil ?_
  rw [if_neg hnonneg, Int32.toNatClampNeg_ofNat_of_lt h]
  exact .pure _

theorem positive_reads (field : String) (hpos : 0 < n) (h : n < 2 ^ 31) :
    Reads (positive field) (Writer.nat n) n := by
  refine (count_reads field h).bind_nil ?_
  rw [if_neg (by omega)]
  exact .pure _

theorem operandIndex_reads {operands : Nat} (hoperands : operands < 2 ^ 31) (h : n < operands) :
    Reads (operandIndex operands) (Writer.nat n) n := by
  have hn : n < 2 ^ 31 := Nat.lt_trans h hoperands
  refine (nat_reads n).bind_nil ?_
  rw [Int32.toNatClampNeg_ofNat_of_lt hn, if_pos ⟨ofNat_nonneg hn, h⟩]
  exact .pure _

theorem code_reads {ofCode? : Int32 → Option α} {unknown : Int32 → FormatError}
    (h : ofCode? (.ofNat n) = some a) : Reads (code ofCode? unknown) (Writer.nat n) a := by
  refine (nat_reads n).bind_nil ?_
  rw [h]
  exact .pure _

theorem length_singles (xs : Array Single) : (Writer.singles xs).length = xs.size * 4 := by
  simp only [Writer.singles, List.length_flatMap, LittleEndian.length_encode, List.map_const',
    List.sum_replicate_nat, Array.length_toList]

theorem singles_reads {xs : Array Single} (h : 4 * xs.size < Checked.sizeLimit) :
    Reads (singles xs.size) (Writer.singles xs) xs := by
  have hbytes : Writer.singles xs = (xs.toList.map Single.bits).flatMap LittleEndian.encode := by
    rw [Writer.singles, List.flatMap_map]
  have hwords : (LittleEndian.decodeAll (Writer.singles xs)).map Single.mk = xs := by
    have hsame : Single.mk ∘ Single.bits = id := rfl
    rw [hbytes, LittleEndian.decodeAll_encode, Array.empty_append, List.map_toArray, List.map_map,
      hsame, List.map_id, Array.toArray_toList]
  unfold singles
  rw [if_neg (by omega)]
  have hread := bytes_reads (Writer.singles xs)
  rw [length_singles] at hread
  refine hread.bind_nil ?_
  rw [hwords]
  exact .pure _

end
end Inference.Reader
