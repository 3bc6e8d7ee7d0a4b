import Inference.Proofs.ModelFile.Reading
import Inference.Proofs.ModelFile.WellFormed
import Inference.Proofs.Text.Utf8
/-! The operand records fill the table with the operands they were written for, in whatever order
they come. -/
namespace Inference.ModelFile

open Reader

variable {o : Operand} {field : List UInt8}

theorem decodeName_eq (h : o.WellFormed)
    (hfield : field.takeWhile (· ≠ 0) = o.name.toUTF8.toList) : decodeName field = o.name := by
  rw [decodeName, hfield, List.take_of_length_le h.nameLength, Text.Utf8.decode_toUTF8]

theorem dims_reads (d : Dims) : Reads dims (d.axes.flatMap Writer.int) d := by
  have haxes : d.axes.flatMap Writer.int = Writer.int d.batch ++ (Writer.int d.height ++
      (Writer.int d.width ++ Writer.int d.channels)) := by
    simp [Dims.axes]
  rw [haxes]
  refine (int_reads d.batch).bind ((int_reads d.height).bind ((int_reads d.width).bind ?_))
  exact (int_reads d.channels).bind_nil (.pure _)

theorem operand_reads (h : o.WellFormed)
    (hfield : field.takeWhile (· ≠ 0) = o.name.toUTF8.toList) (hlength : field.length < 2 ^ 31) :
    Reads operand (Writer.nat field.length ++ (field ++ (Writer.nat o.kind.code ++
      (Writer.nat o.dataType.code ++ o.dims.axes.flatMap Writer.int)))) o := by
  refine (count_reads _ hlength).bind ((bytes_reads field).bind ?_)
  rw [decodeName_eq h hfield]
  refine (code_reads (OperandKind.ofCode?_code o.kind)).bind ?_
  refine (code_reads (DataType.ofCode?_code o.dataType)).bind ?_
  refine (dims_reads o.dims).bind_nil ?_
  have hbatch : ¬(o.kind = .input ∧ o.dims.batch ≠ 1) := fun hboth => hboth.2 (h.batch hboth.1)
  rw [if_neg hbatch]
  obtain ⟨name, kind, dataType, d, nhwc, length, data⟩ := o
  obtain rfl : nhwc = true := h.nhwc
  obtain rfl : data = none := h.data
  by_cases hpos : d.Positive
  · obtain rfl : length = 4 * d.volume := h.length.trans (if_pos hpos)
    have hbytes : d.byteLength? = some (4 * d.volume) := by
      rw [Dims.byteLength?_eq, if_pos ⟨hpos, h.fits hpos⟩]
    rw [if_pos hpos]
    simp only [hbytes]
    exact .pure _
  · obtain rfl : length = 0 := h.length.trans (if_neg hpos)
    rw [if_neg hpos]
    exact .pure _

variable {g : Graph} {s : Spelling} {table : Array (Option Operand)} {index : Nat}
  {order seen : List Nat}

/-- The table has the operands whose records have been seen, and no others. -/
structure Holds (g : Graph) (seen : List Nat) (table : Array (Option Operand)) : Prop where
  size : table.size = g.operands.size
  entry : ∀ i < g.operands.size, i ∈ seen → table[i]? = some g.operands[i]?
  free : ∀ i < g.operands.size, i ∉ seen → table[i]? = some none

theorem holds_empty (g : Graph) : Holds g [] (.replicate g.operands.size none) := by
  refine ⟨by simp, ?_, ?_⟩
  · intro i _ hi
    cases hi
  · intro i hi _
    rw [Array.getElem?_replicate, if_pos hi]

/-- One record, whose index is new, enters its operand. -/
theorem operandRecord_reads (hg : g.WellFormed) (hs : s.Fits g) (h : Holds g seen table)
    (hindex : index < g.operands.size) (hnew : index ∉ seen) :
    ∃ next, Reads (operandRecord table)
      ((g.operands[index]?.map (Writer.operand index (s.field index))).getD []) next ∧
      Holds g (index :: seen) next := by
  have hat : g.operands[index]? = some g.operands[index] := Array.getElem?_eq_getElem hindex
  have hoperand : g.operands[index].WellFormed := hg.operands _ (Array.getElem_mem hindex)
  have hrecord : ¬(table[index]?.bind id).isSome := by simp [h.free index hindex hnew]
  have htable : table.size < 2 ^ 31 := by
    rw [h.size]
    exact hg.operandCount
  refine ⟨table.setIfInBounds index (some g.operands[index]), ?_, ?_, ?_, ?_⟩
  · simp only [hat, Option.map_some, Option.getD_some, Writer.operand, List.append_assoc]
    refine (operandIndex_reads htable (by rwa [h.size])).bind ?_
    refine (operand_reads hoperand (hs.name index _ hat) (hs.fieldLength index hindex)).bind_nil ?_
    rw [if_neg hrecord]
    exact .pure _
  · rw [Array.size_setIfInBounds, h.size]
  · intro i hi hseen
    by_cases hsame : index = i
    · subst hsame
      rw [Array.getElem?_setIfInBounds_self_of_lt (by rwa [h.size]), hat]
    · rw [Array.getElem?_setIfInBounds_ne hsame]
      exact h.entry i hi ((List.mem_cons.1 hseen).resolve_left (Ne.symm hsame))
  · intro i hi hseen
    obtain ⟨hne, hold⟩ := not_or.1 (mt List.mem_cons.2 hseen)
    rw [Array.getElem?_setIfInBounds_ne (Ne.symm hne)]
    exact h.free i hi hold

/-- The records enter their operands in any order that names none of them twice. -/
theorem operandRecords_reads (hg : g.WellFormed) (hs : s.Fits g) (h : Holds g seen table)
    {steps : List Nat} (hsteps : steps.length = order.length) (hnodup : order.Nodup)
    (hnew : ∀ i ∈ order, i < g.operands.size ∧ i ∉ seen) :
    ∃ full, Reads (steps.foldlM (fun table _ => operandRecord table) table)
      (order.flatMap fun i => (g.operands[i]?.map (Writer.operand i (s.field i))).getD []) full ∧
      Holds g (order.reverse ++ seen) full := by
  induction order generalizing steps seen table with
  | nil =>
    obtain rfl := List.length_eq_zero_iff.1 hsteps
    exact ⟨table, .pure _, h⟩
  | cons i order ih =>
    obtain ⟨step, steps, rfl⟩ := List.exists_cons_of_length_eq_add_one hsteps
    obtain ⟨hfresh, hnodup⟩ := List.nodup_cons.1 hnodup
    obtain ⟨hi, hold⟩ := hnew i List.mem_cons_self
    obtain ⟨next, hread, hnext⟩ := operandRecord_reads hg hs h hi hold
    have hothers : ∀ j ∈ order, j < g.operands.size ∧ j ∉ i :: seen := by
      intro j hj
      obtain ⟨hlt, hnot⟩ := hnew j (List.mem_cons_of_mem i hj)
      refine ⟨hlt, fun hmem => ?_⟩
      rcases List.mem_cons.1 hmem with rfl | hmem
      · exact hfresh hj
      · exact hnot hmem
    obtain ⟨full, hreads, hfull⟩ := ih hnext (by simpa using hsteps) hnodup hothers
    refine ⟨full, ?_, ?_⟩
    · rw [List.foldlM_cons, List.flatMap_cons]
      exact hread.bind hreads
    · rwa [List.reverse_cons, List.append_assoc]

theorem complete_eq (h : Holds g seen table) (hall : ∀ i < g.operands.size, i ∈ seen) :
    complete table = .ok g.operands := by
  have hfull : table = g.operands.map some := by
    apply Array.ext_getElem?
    intro i
    by_cases hi : i < g.operands.size
    · rw [h.entry i hi (hall i hi)]
      simp [hi]
    · have hout : table.size ≤ i := by
        rw [h.size]
        omega
      rw [Array.getElem?_eq_none hout, Array.getElem?_eq_none (by simpa using hi)]
  have hnone : table.findIdx? Option.isNone = none := by
    rw [hfull]
    simp
  have hvalues : table.filterMap id = g.operands := by
    have hsome : id ∘ some = (some : Operand → Option Operand) := rfl
    rw [hfull, Array.filterMap_map, hsome, Array.filterMap_some]
  rw [complete, hnone, hvalues]

end Inference.ModelFile
