import Inference.Proofs.ModelFile.Taking
/-! What is taken for the operands is a record of each of them, in some order. -/
namespace Inference.ModelFile

open Reader

theorem dims_takes : Takes dims fun d bs => bs = d.axes.flatMap Writer.int := by
  refine int_takes.bind fun batch _ hbs => ?_
  subst hbs
  refine int_takes.bind fun height _ hbs => ?_
  subst hbs
  refine int_takes.bind fun width _ hbs => ?_
  subst hbs
  refine int_takes.bind fun channels _ hbs => .pure ?_
  subst hbs
  simp [Dims.axes]

/-- An operand as it is read from a record with this name field. -/
structure FromField (field : List UInt8) (o : Operand) : Prop where
  name : decodeName field = o.name
  fieldLength : field.length < 2 ^ 31
  loaded : o.Loaded

theorem operand_takes (index : Nat) : Takes operand fun o bs =>
    ∃ field, FromField field o ∧ Writer.nat index ++ bs = Writer.operand index field o := by
  refine (count_takes _).bind fun count _ ⟨hcount, hbs⟩ => ?_
  subst hbs
  refine (bytes_takes count).bind fun field _ ⟨hsame, hlength⟩ => ?_
  subst hsame hlength
  refine (code_takes OperandKind.code fun _ _ => eq_ofNat_of_find?).bind fun kind _ ⟨_, hbs⟩ => ?_
  subst hbs
  refine (code_takes DataType.code fun _ _ => eq_ofNat_of_find?).bind fun dataType _ ⟨_, hbs⟩ => ?_
  subst hbs
  refine dims_takes.bind fun dims _ hbs => .check fun hbatch => ?_
  subst hbs
  have hone : kind = .input → dims.batch = 1 := by
    intro hkind
    by_contra hne
    exact hbatch ⟨hkind, hne⟩
  split
  next hpos =>
    split
    next length hbytes =>
      rw [Dims.byteLength?_eq] at hbytes
      obtain ⟨⟨-, hfits⟩, hvolume⟩ := Option.ite_none_right_eq_some.1 hbytes
      have hlength : length = if dims.Positive then 4 * dims.volume else 0 := by
        rw [if_pos hpos]
        exact (Option.some.inj hvolume).symm
      refine .pure ⟨field, ⟨rfl, hcount, hone, fun _ => hfits, hlength, rfl, rfl⟩, ?_⟩
      simp [Writer.operand]
    next => exact .throw _
  next hpos =>
    have hfits : dims.Positive → 4 * dims.volume ≤ 2147483647 := fun h => absurd h hpos
    refine .pure ⟨field, ⟨rfl, hcount, hone, hfits, (if_neg hpos).symm, rfl, rfl⟩, ?_⟩
    simp [Writer.operand]

variable {table full : Array (Option Operand)} {operands : Array Operand}

/-- A record is entered under an index of the table that had none. -/
theorem operandRecord_takes (table : Array (Option Operand)) :
    Takes (operandRecord table) fun next bs => ∃ index field o, table[index]? = some none ∧
      next = table.setIfInBounds index (some o) ∧ FromField field o ∧
        bs = Writer.operand index field o := by
  refine (operandIndex_takes table.size).bind fun index _ ⟨hindex, hbs⟩ => ?_
  subst hbs
  refine (operand_takes index).bind fun o bs ⟨field, ho, hbytes⟩ => .check fun hnew => .pure ?_
  have hfree : table[index]? = some none := by
    rw [Array.getElem?_eq_getElem hindex] at hnew ⊢
    simpa using hnew
  rw [List.append_nil]
  exact ⟨index, field, o, hfree, rfl, ho, hbytes⟩

/-- The record of an entry of a table. -/
def entryRecord (table : Array (Option Operand)) (field : Nat → List UInt8) (index : Nat) :
    List UInt8 :=
  ((table[index]?.bind id).map (Writer.operand index (field index))).getD []

/-- The records are entered one after the other, each under an index of its own. -/
theorem operandRecords_takes (steps : List Nat) (table : Array (Option Operand)) :
    Takes (steps.foldlM (fun table _ => operandRecord table) table) fun full bs =>
      full.size = table.size ∧ ∃ (order : List Nat) (field : Nat → List UInt8), order.Nodup ∧
        (∀ i, i ∉ order → full[i]? = table[i]?) ∧
        (∀ i ∈ order, table[i]? = some none ∧
          ∃ o, full[i]? = some (some o) ∧ FromField (field i) o) ∧
        bs = order.flatMap (entryRecord full field) := by
  induction steps generalizing table with
  | nil => exact .pure ⟨rfl, [], fun _ => [], List.nodup_nil, fun _ _ => rfl, nofun, rfl⟩
  | cons step steps ih =>
    rw [List.foldlM_cons]
    refine (operandRecord_takes table).bind
      fun next bs ⟨index, bytes, o, hfree, hnext, ho, hbs⟩ => ?_
    refine (ih next).mono fun full cs ⟨hsize, order, field, hnodup, hothers, hentries, hcs⟩ => ?_
    have hindex : index < table.size := (Array.getElem?_eq_some_iff.1 hfree).1
    have hset : next[index]? = some (some o) := by
      rw [hnext, Array.getElem?_setIfInBounds_self_of_lt hindex]
    have hkept : ∀ i, i ≠ index → next[i]? = table[i]? := by
      intro i hi
      rw [hnext, Array.getElem?_setIfInBounds_ne (Ne.symm hi)]
    have hnew : index ∉ order := by
      intro hmem
      have hnone := (hentries index hmem).1
      rw [hset] at hnone
      cases hnone
    have hfull : full[index]? = some (some o) := (hothers index hnew).trans hset
    have hne : ∀ i ∈ order, i ≠ index := by
      rintro i hi rfl
      exact hnew hi
    have hsame : full.size = table.size := by rw [hsize, hnext, Array.size_setIfInBounds]
    refine ⟨hsame, index :: order, fun i => if i = index then bytes else field i,
      List.nodup_cons.2 ⟨hnew, hnodup⟩, ?_, ?_, ?_⟩
    · intro i hi
      obtain ⟨hfirst, hrest⟩ := not_or.1 (mt List.mem_cons.2 hi)
      rw [hothers i hrest, hkept i hfirst]
    · intro i hi
      rcases List.mem_cons.1 hi with rfl | hi
      · exact ⟨hfree, o, hfull, by simpa using ho⟩
      · obtain ⟨hnone, p, hp, hfield⟩ := hentries i hi
        rw [hkept i (hne i hi)] at hnone
        exact ⟨hnone, p, hp, by simpa [hne i hi] using hfield⟩
    · have hsame : ∀ i ∈ order, entryRecord full (fun i => if i = index then bytes else field i) i =
          entryRecord full field i := by
        intro i hi
        simp only [entryRecord, if_neg (hne i hi)]
      have hfirst :
          entryRecord full (fun i => if i = index then bytes else field i) index = bs := by
        simp [entryRecord, hfull, hbs]
      rw [List.flatMap_cons, hfirst, List.flatMap_def, List.map_congr_left hsame,
        ← List.flatMap_def, hcs]

/-- A table that is complete holds just its operands. -/
theorem eq_map_some_of_complete (h : complete table = .ok operands) :
    table = operands.map some := by
  unfold complete at h
  split at h
  next => cases h
  next hnone =>
    cases h
    have hall : ∀ x ∈ table.toList, x.isSome := by
      intro x hx
      have hx := Array.findIdx?_eq_none_iff.1 hnone x (Array.mem_toList_iff.1 hx)
      simpa using hx
    have hvalues : ∀ xs : List (Option Operand), (∀ x ∈ xs, x.isSome) →
        (xs.filterMap id).map some = xs := by
      intro xs hxs
      induction xs with
      | nil => rfl
      | cons x xs ih =>
        obtain ⟨o, rfl⟩ := Option.isSome_iff_exists.1 (hxs x List.mem_cons_self)
        have hrest := ih fun y hy => hxs y (List.mem_cons_of_mem _ hy)
        exact congrArg (some o :: ·) hrest
    apply Array.toList_inj.1
    rw [Array.toList_map, Array.toList_filterMap, hvalues _ hall]

theorem complete_takes (full : Array (Option Operand)) :
    Takes (liftM (complete full) : Reader (Array Operand)) fun os bs =>
      full = os.map some ∧ bs = [] := by
  intro bytes os rest hread
  cases hall : complete full with
  | error e =>
    rw [hall] at hread
    cases hread
  | ok os' =>
    rw [hall] at hread
    cases hread
    exact ⟨[], rfl, eq_map_some_of_complete hall, rfl⟩

/-- The records of all operands are taken, each once. -/
theorem operands_takes (count : Nat) : Takes (do
    let table ← (List.range count).foldlM (fun table _ => operandRecord table)
      (Array.replicate count none)
    complete table) fun os bs => os.size = count ∧ (∀ o ∈ os, o.Loaded) ∧
      ∃ (order : List Nat) (field : Nat → List UInt8), order.Perm (List.range count) ∧
        (∀ i o, os[i]? = some o → decodeName (field i) = o.name ∧ (field i).length < 2 ^ 31) ∧
        bs = order.flatMap fun i => (os[i]?.map (Writer.operand i (field i))).getD [] := by
  refine (operandRecords_takes _ _).bind fun full bs hrecords => ?_
  obtain ⟨hsize, order, field, hnodup, hothers, hentries, hbs⟩ := hrecords
  refine (complete_takes full).mono fun os cs ⟨hfull, hcs⟩ => ?_
  subst hfull hcs
  have hcount : os.size = count := by simpa using hsize
  have hempty :
      ∀ i, (Array.replicate count (none : Option Operand))[i]? = some none ↔ i < count := by
    intro i
    simp [Array.getElem?_replicate]
  have hmem : ∀ i, i ∈ order ↔ i < count := by
    intro i
    constructor
    · intro hi
      exact (hempty i).1 (hentries i hi).1
    · intro hi
      by_contra hnot
      have hnone := (hothers i hnot).trans ((hempty i).2 hi)
      simp at hnone
  have hfield : ∀ i o, os[i]? = some o → FromField (field i) o := by
    intro i o ho
    have hlt : i < count := by
      rw [← hcount]
      exact (Array.getElem?_eq_some_iff.1 ho).1
    obtain ⟨-, p, hp, hfrom⟩ := hentries i ((hmem i).2 hlt)
    rw [Array.getElem?_map, ho, Option.map_some] at hp
    cases hp
    exact hfrom
  refine ⟨hcount, ?_, order, field, ?_, ?_, ?_⟩
  · intro o ho
    obtain ⟨i, hi⟩ := Array.getElem?_of_mem ho
    exact (hfield i o hi).loaded
  · rw [List.perm_ext_iff_of_nodup hnodup List.nodup_range]
    intro i
    rw [hmem, List.mem_range]
  · intro i o ho
    exact ⟨(hfield i o ho).name, (hfield i o ho).fieldLength⟩
  · rw [List.append_nil, hbs]
    have hrecord : entryRecord (os.map some) field = fun i =>
        (os[i]?.map (Writer.operand i (field i))).getD [] := by
      funext i
      simp only [entryRecord, Array.getElem?_map]
      cases os[i]? <;> rfl
    rw [hrecord]

end Inference.ModelFile
