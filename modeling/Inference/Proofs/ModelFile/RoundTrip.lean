import Mathlib.Algebra.Order.BigOperators.Group.List
import Mathlib.Algebra.Order.Ring.Nat
import Inference.Proofs.ModelFile.Record
import Inference.Proofs.ModelFile.Table
/-! A written file is read as the graph it was written for. -/
namespace Inference.ModelFile

open Reader

variable {g : Graph} {s : Spelling} {operands : Nat}

section

variable {α : Type} {next : Reader α} {bs : List UInt8} {a : α}

theorem ensureRecords_reads {count size : Nat} (record : String) (hroom : count * size ≤ bs.length)
    (hnext : Reads next bs a) :
    Reads (do
        ensureRecords count size record
        next) bs a := by
  intro rest
  have hall : count * size ≤ (bs ++ rest).length := by
    rw [List.length_append]
    omega
  have hensure : ensureRecords count size record (bs ++ rest) = .ok ((), bs ++ rest) := if_pos hall
  have hrun : (do
      ensureRecords count size record
      next : Reader α) (bs ++ rest) =
      ensureRecords count size record (bs ++ rest) >>= fun p => next p.2 := rfl
  rw [hrun, hensure]
  exact hnext rest

end

theorem minLayerRecord_le (yes : Nat → UInt32) (l : Layer) :
    minLayerRecord ≤ (Writer.layer yes l).length := by
  have hkind : (Writer.nat l.kind.code).length = minLayerRecord := rfl
  rw [Writer.layer, List.length_append, hkind]
  omega

theorem mul_minLayerRecord_le (yes : Nat → Nat → UInt32) (index : Nat) (ls : List Layer) :
    ls.length * minLayerRecord ≤ (Writer.layers yes index ls).length := by
  induction ls generalizing index with
  | nil => simp
  | cons l ls ih =>
    have hrecord := minLayerRecord_le (yes index) l
    have hothers := ih (index + 1)
    rw [Writer.layers, List.length_append, List.length_cons, Nat.succ_mul]
    omega

theorem minOperandRecord_le (index : Nat) (field : List UInt8) (o : Operand) :
    minOperandRecord ≤ (Writer.operand index field o).length := by
  have hwords : (Writer.operand index field o).length = minOperandRecord + field.length := by
    simp [Writer.operand, Writer.nat, Writer.int, Dims.axes, LittleEndian.length_encode,
      minOperandRecord]
    omega
  omega

theorem mul_minOperandRecord_le {os : Array Operand} {order : List Nat} (field : Nat → List UInt8)
    (horder : order.Perm (List.range os.size)) : os.size * minOperandRecord ≤
      (order.flatMap fun i => (os[i]?.map (Writer.operand i (field i))).getD []).length := by
  have hcount : order.length = os.size := by rw [horder.length_eq, List.length_range]
  have hin : ∀ i ∈ order, i < os.size := fun i hi => List.mem_range.1 (horder.mem_iff.1 hi)
  have hrecords : ∀ n ∈ order.map fun i =>
      ((os[i]?.map (Writer.operand i (field i))).getD []).length, minOperandRecord ≤ n := by
    intro n hn
    obtain ⟨i, hi, rfl⟩ := List.mem_map.1 hn
    rw [Array.getElem?_eq_getElem (hin i hi)]
    exact minOperandRecord_le i (field i) _
  have hsum := List.card_nsmul_le_sum _ _ hrecords
  rw [List.length_map, hcount, ← List.length_flatMap] at hsum
  exact hsum

theorem layers_reads (hoperands : operands < 2 ^ 31) {ls : List Layer}
    (h : ∀ l ∈ ls, l.WellFormed operands) {yes : Nat → Nat → UInt32} (hyes : ∀ i j, yes i j ≠ 0)
    (index : Nat) (hlength : (Writer.layers yes index ls).length < Checked.sizeLimit) :
    Reads (times ls.length (layer operands)) (Writer.layers yes index ls) ls := by
  have hsteps : (List.range ls.length).length = ls.length := List.length_range
  unfold times
  generalize List.range ls.length = steps at hsteps
  induction ls generalizing index steps with
  | nil =>
    obtain rfl := List.length_eq_zero_iff.1 hsteps
    exact .pure _
  | cons l ls ih =>
    obtain ⟨step, steps, rfl⟩ := List.exists_cons_of_length_eq_add_one hsteps
    rw [Writer.layers, List.length_append] at hlength
    have hfirst := layer_reads hoperands (h l List.mem_cons_self) (hyes index) (by omega)
    have hothers := ih (fun l' hl => h l' (List.mem_cons_of_mem l hl)) (index + 1) (by omega) steps
      (by simpa using hsteps)
    rw [List.mapM_cons]
    exact hfirst.bind (hothers.bind_nil (.pure _))

theorem body_reads (hg : g.WellFormed) (hs : s.Fits g)
    (hlength : (encodeBody g s).length < Checked.sizeLimit) :
    Reads (body g.layers.length g.operands.size) (encodeBody g s) (g.layers, g.operands) := by
  have hboth : (Writer.layers s.yes 0 g.layers).length ≤ (encodeBody g s).length := by
    simp [encodeBody]
  have hlayers := layers_reads hg.operandCount hg.layers hs.yes 0 (by omega)
  have hcount : (List.range g.operands.size).length = s.order.length := by
    rw [hs.order.length_eq]
  have hnodup : s.order.Nodup := hs.order.nodup_iff.2 List.nodup_range
  have hin : ∀ i, i ∈ s.order ↔ i < g.operands.size :=
    fun i => hs.order.mem_iff.trans List.mem_range
  obtain ⟨full, hreads, hfull⟩ := operandRecords_reads hg hs (holds_empty g) hcount hnodup
    fun i hi => ⟨(hin i).1 hi, List.not_mem_nil⟩
  have hcomplete : complete full = .ok g.operands := by
    refine complete_eq hfull fun i hi => ?_
    simpa using (hin i).2 hi
  have hroom : g.layers.length * minLayerRecord ≤ (encodeBody g s).length :=
    Nat.le_trans (mul_minLayerRecord_le s.yes 0 g.layers) hboth
  refine ensureRecords_reads "layer" hroom (hlayers.bind ?_)
  refine ensureRecords_reads "operand" (mul_minOperandRecord_le s.field hs.order) ?_
  refine hreads.bind_nil ?_
  rw [hcomplete]
  exact .pure _

theorem header_reads (v : Int32) : Reads header (encodeHeader v) v := by
  have hmagic : Reads (bytes magic.length) magic magic := bytes_reads magic
  rw [encodeHeader, List.append_assoc]
  refine hmagic.bind ?_
  rw [if_neg (by simp)]
  refine (int_reads majorVersion).bind ?_
  rw [if_neg (by simp)]
  exact int_reads v

theorem trailer_reads {layers : Nat} (hlayers : layers < 2 ^ 31) (hoperands : operands < 2 ^ 31) :
    Reads trailer (encodeTrailer layers operands) (layers, operands) :=
  (count_reads _ hlayers).bind ((count_reads _ hoperands).bind_nil (.pure _))

theorem length_encode (g : Graph) (s : Spelling) :
    (encode g s).length = headerSize + (encodeBody g s).length + trailerSize := by
  have hheader : (encodeHeader g.minorVersion).length = headerSize := rfl
  have htrailer : (encodeTrailer g.layers.length g.operands.size).length = trailerSize := rfl
  rw [encode, List.length_append, List.length_append, hheader, htrailer]

theorem take_encode (g : Graph) (s : Spelling) :
    (encode g s).take headerSize = encodeHeader g.minorVersion := by
  have hheader : (encodeHeader g.minorVersion).length = headerSize := rfl
  rw [encode, List.append_assoc, ← hheader, List.take_left]

theorem inner_encode (g : Graph) (s : Spelling) :
    ((encode g s).drop headerSize).take ((encode g s).length - trailerSize - headerSize) =
      encodeBody g s := by
  have hheader : (encodeHeader g.minorVersion).length = headerSize := rfl
  have hinside : (encode g s).length - trailerSize - headerSize = (encodeBody g s).length := by
    have hlength := length_encode g s
    omega
  rw [hinside, encode, List.append_assoc, ← hheader, List.drop_left, List.take_left]

theorem drop_encode (g : Graph) (s : Spelling) :
    (encode g s).drop ((encode g s).length - trailerSize) =
      encodeTrailer g.layers.length g.operands.size := by
  have hheader : (encodeHeader g.minorVersion).length = headerSize := rfl
  have hbefore : (encode g s).length - trailerSize =
      (encodeHeader g.minorVersion ++ encodeBody g s).length := by
    have hlength := length_encode g s
    rw [List.length_append, hheader]
    omega
  rw [hbefore, encode, List.drop_left]

/-- Reading undoes writing, however the file is spelled. -/
theorem parse_encode (hg : g.WellFormed) (hs : s.Fits g)
    (hsize : (encode g s).length < Checked.sizeLimit) : parse (encode g s) = .ok g := by
  have hlength := length_encode g s
  have hlong : ¬(encode g s).length < headerSize + trailerSize := by omega
  have hminor := header_reads g.minorVersion []
  have hcounts := trailer_reads hg.layerCount hg.operandCount []
  have hbody := body_reads hg hs (by omega) []
  rw [List.append_nil] at hminor hcounts hbody
  unfold parse
  simp only [inner_encode, drop_encode, take_encode, hminor, hcounts, if_neg hlong]
  dsimp only [bind, Except.bind]
  rw [hbody]
  rfl

/-- One more than the input, by a layer whose second side is a value. -/
def increment : Graph where
  minorVersion := 9
  layers := [⟨.mathBinary ⟨.add, .tensor, .scalar ⟨0x3f800000⟩⟩, [0], 1⟩]
  operands :=
    #[{ name := "x", kind := .input, dataType := .float, dims := ⟨1, 2, 2, 3⟩, length := 48 },
      { name := "y", kind := .output, dataType := .float, dims := ⟨-1, 2, 2, 3⟩ }]

/-- The last record first, a name that goes on behind its zero, and a yes that is not one. -/
def incrementBackwards : Spelling where
  order := [1, 0]
  field index := if index = 0 then [0x78, 0, 0xff] else [0x79]
  yes _ _ := 2

theorem increment_wellFormed : increment.WellFormed := by
  refine ⟨by decide, by decide, ?_, ?_⟩
  · intro l hl
    obtain rfl := List.mem_singleton.1 hl
    exact ⟨rfl, by decide, by decide, by decide, trivial⟩
  · intro o ho
    rcases List.mem_cons.1 (Array.mem_toList_iff.2 ho) with rfl | ho
    · exact ⟨by decide +kernel, by decide +kernel, by decide, by decide +kernel, by decide +kernel,
        rfl, rfl⟩
    · obtain rfl := List.mem_singleton.1 ho
      exact ⟨by decide +kernel, by decide +kernel, by decide, by decide +kernel, by decide +kernel,
        rfl, rfl⟩

theorem incrementBackwards_fits : incrementBackwards.Fits increment := by
  refine ⟨by decide, ?_, by decide, fun _ _ => (by decide : (2 : UInt32) ≠ 0)⟩
  intro i o ho
  rcases i with _ | _ | i
  · obtain rfl := Option.some.inj ho
    decide +kernel
  · obtain rfl := Option.some.inj ho
    decide +kernel
  · cases ho

theorem parse_increment_backwards :
    increment.WellFormed ∧ incrementBackwards.Fits increment ∧
      (encode increment incrementBackwards).length < Checked.sizeLimit ∧
      parse (encode increment incrementBackwards) = .ok increment :=
  ⟨increment_wellFormed, incrementBackwards_fits, by decide +kernel,
    parse_encode increment_wellFormed incrementBackwards_fits (by decide +kernel)⟩

end Inference.ModelFile
