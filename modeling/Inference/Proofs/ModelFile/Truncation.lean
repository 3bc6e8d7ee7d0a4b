import Inference.Proofs.ModelFile.Extent
import Inference.Proofs.ModelFile.Widening
/-! What is left of a model file whose end is cut off. A trailer has no mark of its own, so whatever
the cut leaves at the end is taken for the counts of records. If these count just the records before
them, the rest is a file of its own, which is read as a graph with fewer records or with other ones. -/
namespace Inference.Reader

variable {α : Type} {reader : Reader α} {bytes rest : List UInt8} {a : α}

/-- Bytes behind those that are read are left as they are. -/
theorem SelfDelimiting.append (h : SelfDelimiting reader) (hread : reader bytes = .ok (a, rest))
    (more : List UInt8) : reader (bytes ++ more) = .ok (a, rest ++ more) := by
  obtain ⟨taken, rfl, hdelimits⟩ := h.delimits bytes a rest hread
  rw [List.append_assoc]
  exact hdelimits.reads (rest ++ more)

/-- Of two repetitions on the same bytes the shorter one reads the beginning of what the longer one
reads. -/
theorem mapM_prefix {few many : List Nat} {as bs : List α} {bytes rest rest' : List UInt8}
    (hle : few.length ≤ many.length) (has : (few.mapM fun _ => reader) bytes = .ok (as, rest))
    (hbs : (many.mapM fun _ => reader) bytes = .ok (bs, rest')) :
    as <+: bs ∧ (few.length = many.length → as = bs ∧ rest = rest') := by
  induction few generalizing many as bs bytes with
  | nil =>
    rw [List.mapM_nil] at has
    cases has
    refine ⟨List.nil_prefix, fun hsame => ?_⟩
    obtain rfl := List.length_eq_zero_iff.1 hsame.symm
    rw [List.mapM_nil] at hbs
    cases hbs
    exact ⟨rfl, rfl⟩
  | cons step few ih =>
    obtain ⟨step', many, rfl⟩ :=
      List.exists_cons_of_length_pos (Nat.lt_of_lt_of_le (Nat.succ_pos _) hle)
    rw [List.mapM_cons] at has hbs
    obtain ⟨a, middle, hfirst, has⟩ := bind_run_eq_ok.1 has
    obtain ⟨b, _, hfirst', hbs⟩ := bind_run_eq_ok.1 hbs
    obtain ⟨as', _, has, hlast⟩ := bind_run_eq_ok.1 has
    obtain ⟨bs', _, hbs, hlast'⟩ := bind_run_eq_ok.1 hbs
    cases hfirst.symm.trans hfirst'
    cases hlast
    cases hlast'
    obtain ⟨hbegins, hsame⟩ := ih (Nat.le_of_succ_le_succ hle) has hbs
    refine ⟨List.cons_prefix_cons.2 ⟨rfl, hbegins⟩, fun hlength => ?_⟩
    obtain ⟨rfl, rfl⟩ := hsame (Nat.succ.inj hlength)
    exact ⟨rfl, rfl⟩

/-- Of the layers that are read from the front of the same bytes some begin the others. -/
theorem layers_prefix {few many m n : Nat} {as bs : List Layer} {part rest rest' more : List UInt8}
    (has : times few (layer m) part = .ok (as, rest))
    (hbs : times many (layer n) (part ++ more) = .ok (bs, rest')) :
    (as <+: bs ∨ bs <+: as) ∧ (few = many → as = bs ∧ rest' = rest ++ more) := by
  -- both readings are brought to the same bytes and to the greater number of operands
  have hlonger := (times_delimits layer_delimits few).append has more
  have has := layers_widens (Nat.le_max_left m n) few _ _ _ hlonger
  have hbs := layers_widens (Nat.le_max_right m n) many _ _ _ hbs
  rcases Nat.le_total few many with hle | hle
  · obtain ⟨hbegins, hsame⟩ := mapM_prefix (by simpa using hle) has hbs
    refine ⟨.inl hbegins, fun hcount => ?_⟩
    obtain ⟨heq, hrest⟩ := hsame (by simpa using hcount)
    exact ⟨heq, hrest.symm⟩
  · obtain ⟨hbegins, hsame⟩ := mapM_prefix (by simpa using hle) hbs has
    refine ⟨.inr hbegins, fun hcount => ?_⟩
    obtain ⟨heq, hrest⟩ := hsame (by simpa using hcount.symm)
    exact ⟨heq.symm, hrest⟩

/-- An index is read the same for any number of operands that it is within. -/
theorem operandIndex_agree {m n i j : Nat} {part rest rest' more : List UInt8}
    (hi : operandIndex m part = .ok (i, rest)) (hj : operandIndex n (part ++ more) = .ok (j, rest')) :
    j = i ∧ rest' = rest ++ more := by
  have hlonger := (operandIndex_delimits m).append hi more
  have hi := operandIndex_widens (Nat.le_max_left m n) _ _ _ hlonger
  have hj := operandIndex_widens (Nat.le_max_right m n) _ _ _ hj
  cases hi.symm.trans hj
  exact ⟨rfl, rfl⟩

end Inference.Reader

namespace Inference.ModelFile

open Reader

/-- The tables have the same operands under the same indexes; they may differ in size. -/
def SameEntries (xs ys : Array (Option Operand)) : Prop :=
  ∀ i : Nat, xs[i]?.bind id = ys[i]?.bind id

theorem SameEntries.set {xs ys : Array (Option Operand)} (h : SameEntries xs ys) {i : Nat}
    (hx : i < xs.size) (hy : i < ys.size) (o : Operand) :
    SameEntries (xs.setIfInBounds i (some o)) (ys.setIfInBounds i (some o)) := by
  intro j
  by_cases hj : i = j
  · subst hj
    rw [Array.getElem?_setIfInBounds_self_of_lt hx, Array.getElem?_setIfInBounds_self_of_lt hy]
  · rw [Array.getElem?_setIfInBounds_ne hj, Array.getElem?_setIfInBounds_ne hj]
    exact h j

theorem getElem?_of_bind {xs : Array (Option Operand)} {i : Nat} {o : Operand} :
    xs[i]?.bind id = some o ↔ xs[i]? = some (some o) := by
  cases xs[i]? with
  | none => simp
  | some entry => simp

theorem operandRecord_agree {xs ys next next' : Array (Option Operand)}
    {part rest rest' more : List UInt8} (h : SameEntries xs ys)
    (hx : operandRecord xs part = .ok (next, rest))
    (hy : operandRecord ys (part ++ more) = .ok (next', rest')) :
    SameEntries next next' ∧ rest' = rest ++ more := by
  obtain ⟨i, middle, hi, hx⟩ := bind_run_eq_ok.1 hx
  obtain ⟨j, middle', hj, hy⟩ := bind_run_eq_ok.1 hy
  obtain ⟨-, -, hlt, -⟩ := operandIndex_takes _ _ _ _ hi
  obtain ⟨-, -, hlt', -⟩ := operandIndex_takes _ _ _ _ hj
  obtain ⟨rfl, rfl⟩ := operandIndex_agree hi hj
  obtain ⟨o, _, ho, hx⟩ := bind_run_eq_ok.1 hx
  obtain ⟨o', _, ho', hy⟩ := bind_run_eq_ok.1 hy
  cases (operand_delimits.append ho more).symm.trans ho'
  obtain ⟨-, hx⟩ := check_run_eq_ok.1 hx
  obtain ⟨-, hy⟩ := check_run_eq_ok.1 hy
  cases hx
  cases hy
  exact ⟨h.set hlt hlt' o, rfl⟩

/-- Entries stay. -/
theorem operandRecords_kept {steps : List Nat} {table full : Array (Option Operand)}
    {bytes rest : List UInt8} {i : Nat} {o : Operand}
    (h : (steps.foldlM (fun table _ => operandRecord table) table : Reader _) bytes =
      .ok (full, rest)) (hi : table[i]? = some (some o)) : full[i]? = some (some o) := by
  obtain ⟨_, -, -, order, _, -, hothers, hentries, -⟩ :=
    operandRecords_takes steps table _ _ _ h
  by_cases hmem : i ∈ order
  · have hfree := (hentries i hmem).1
    rw [hi] at hfree
    cases hfree
  · rw [hothers i hmem, hi]

/-- If one of two readings of records ends with what the other one goes on behind, it has read fewer
records, and the other one has read these too. -/
theorem operandRecords_agree {few many : List Nat} {xs ys full full' : Array (Option Operand)}
    {part more : List UInt8} (hmore : more ≠ []) (h : SameEntries xs ys)
    (hx : (few.foldlM (fun table _ => operandRecord table) xs : Reader _) part = .ok (full, []))
    (hy : (many.foldlM (fun table _ => operandRecord table) ys : Reader _) (part ++ more) =
      .ok (full', [])) :
    few.length < many.length ∧
      ∀ (i : Nat) (o : Operand), full[i]? = some (some o) → full'[i]? = some (some o) := by
  induction few generalizing many xs ys part with
  | nil =>
    rw [List.foldlM_nil] at hx
    cases hx
    cases many with
    | nil =>
      rw [List.foldlM_nil] at hy
      cases hy
      exact absurd rfl hmore
    | cons step many =>
      refine ⟨Nat.succ_pos _, fun i o hi => operandRecords_kept hy ?_⟩
      rw [← getElem?_of_bind, ← h i, getElem?_of_bind]
      exact hi
  | cons step few ih =>
    cases many with
    | nil =>
      rw [List.foldlM_nil] at hy
      have hnil : part ++ more = [] := congrArg Prod.snd (Except.ok.inj hy)
      exact absurd (List.append_eq_nil_iff.1 hnil).2 hmore
    | cons step' many =>
      rw [List.foldlM_cons] at hx hy
      obtain ⟨next, rest, hfirst, hx⟩ := bind_run_eq_ok.1 hx
      obtain ⟨next', rest', hfirst', hy⟩ := bind_run_eq_ok.1 hy
      obtain ⟨hnext, rfl⟩ := operandRecord_agree h hfirst hfirst'
      obtain ⟨hlength, hentries⟩ := ih hnext hx hy
      exact ⟨Nat.succ_lt_succ hlength, hentries⟩

theorem ensureRecords_eq_ok {count size : Nat} {record : String} {bytes rest : List UInt8}
    {u : Unit} (h : ensureRecords count size record bytes = .ok (u, rest)) : rest = bytes := by
  obtain ⟨taken, hbytes, hnil⟩ := ensureRecords_takes count size record _ _ _ h
  rw [hbytes, hnil, List.nil_append]

/-- The records of a body: the layers, then a table of operands that is complete. -/
theorem body_eq_ok {layers operands : Nat} {bytes rest : List UInt8} {ls : List Layer}
    {os : Array Operand} (h : body layers operands bytes = .ok ((ls, os), rest)) :
    ls.length = layers ∧ os.size = operands ∧
      ∃ middle, times layers (layer operands) bytes = .ok (ls, middle) ∧
        ((List.range operands).foldlM (fun table _ => operandRecord table)
          (Array.replicate operands none) : Reader _) middle = .ok (os.map some, rest) := by
  obtain ⟨-, -, hls, hos, -⟩ := body_takes 0 layers operands _ _ _ h
  obtain ⟨_, start, hensure, h⟩ := bind_run_eq_ok.1 h
  rw [ensureRecords_eq_ok hensure] at h
  obtain ⟨_, middle, hlayers, h⟩ := bind_run_eq_ok.1 h
  obtain ⟨_, _, hensure, h⟩ := bind_run_eq_ok.1 h
  rw [ensureRecords_eq_ok hensure] at h
  obtain ⟨full, _, hrecords, h⟩ := bind_run_eq_ok.1 h
  obtain ⟨_, _, hcomplete, h⟩ := bind_run_eq_ok.1 h
  obtain ⟨taken, hmiddle, hfull, hnil⟩ := complete_takes full _ _ _ hcomplete
  cases h
  rw [hfull, hmiddle, hnil] at hrecords
  exact ⟨hls, hos, middle, hlayers, hrecords⟩

/-- How a graph that is read from the beginning of a file stands to the graph of the file: of the
layers of the two some begin the others, and where the layers are as many, operands are lacking. -/
structure Shortened (g h : Graph) : Prop where
  minorVersion : h.minorVersion = g.minorVersion
  layers : h.layers <+: g.layers ∨ g.layers <+: h.layers
  operands : h.layers.length = g.layers.length → h.layers = g.layers ∧
    h.operands.size < g.operands.size ∧ ∀ i < h.operands.size, h.operands[i]? = g.operands[i]?

variable {file part inner more : List UInt8} {g h : Graph} {ls ls' : List Layer}
  {os os' : Array Operand}

theorem bodies_shortened {m n m' n' : Nat} (hmore : more ≠ [])
    (hg : body m n (inner ++ more) = .ok ((ls, os), []))
    (hh : body m' n' inner = .ok ((ls', os'), [])) :
    (ls' <+: ls ∨ ls <+: ls') ∧ (ls'.length = ls.length → ls' = ls ∧
      os'.size < os.size ∧ ∀ i < os'.size, os'[i]? = os[i]?) := by
  obtain ⟨hm, hn, rest, hlayers, hrecords⟩ := body_eq_ok hg
  obtain ⟨hm', hn', rest', hlayers', hrecords'⟩ := body_eq_ok hh
  obtain ⟨hbegins, hsame⟩ := layers_prefix hlayers' hlayers
  refine ⟨hbegins, fun hcount => ?_⟩
  obtain ⟨hls, rfl⟩ := hsame (by rw [← hm, ← hm', hcount])
  have hempty : SameEntries (Array.replicate n' none) (Array.replicate n none) := by
    intro i
    simp only [Array.getElem?_replicate]
    split <;> split <;> rfl
  obtain ⟨hlength, hentries⟩ := operandRecords_agree hmore hempty hrecords' hrecords
  have hkept : ∀ (i : Nat) (o : Operand), os'[i]? = some o → os[i]? = some o := by
    intro i o hi
    have hentry := hentries i o (by rw [Array.getElem?_map, hi, Option.map_some])
    rw [Array.getElem?_map, Option.map_eq_some_iff] at hentry
    obtain ⟨_, ho, hsome⟩ := hentry
    cases hsome
    exact ho
  refine ⟨hls, by simpa [hn, hn'] using hlength, fun i hi => ?_⟩
  have hat : os'[i]? = some os'[i] := Array.getElem?_eq_getElem hi
  rw [hat, hkept i _ hat]

/-- The beginning of a file that is long enough to have three parts of its own has the header of the
file, and the records of the file go on where its own end. -/
theorem exists_parts_of_prefix (hpart : part <+: file) (hne : part ≠ file)
    (hlong : headerSize + trailerSize ≤ part.length) : ∃ front inner more back back',
      front.length = headerSize ∧ back.length = trailerSize ∧ back'.length = trailerSize ∧
        more ≠ [] ∧ part = front ++ inner ++ back' ∧ file = front ++ (inner ++ more) ++ back := by
  obtain ⟨front, inner, back', rfl, hfront, hback'⟩ := exists_parts hlong
  obtain ⟨missing, rfl⟩ := hpart
  have hmissing : missing ≠ [] := by
    rintro rfl
    exact hne (List.append_nil _).symm
  have hpos := List.length_pos_of_ne_nil hmissing
  let behind := back' ++ missing
  have hbehind : behind.length = trailerSize + missing.length := by
    rw [List.length_append, hback']
  refine ⟨front, inner, behind.take missing.length, behind.drop missing.length, back', hfront, ?_,
    hback', ?_, rfl, ?_⟩
  · rw [List.length_drop]
    omega
  · apply List.ne_nil_of_length_pos
    rw [List.length_take]
    omega
  · rw [List.append_assoc front (inner ++ _), List.append_assoc inner, List.take_append_drop,
      List.append_assoc, List.append_assoc]

/-- A beginning of a file that is read is refused, or it is a file of its own: it spells a graph that
has been shortened. -/
theorem parse_prefix (hg : parse file = .ok g) (hpart : part <+: file) (hne : part ≠ file) :
    (∃ e, parse part = .error e) ∨ ∃ h, parse part = .ok h ∧ Shortened g h ∧ h ≠ g ∧
      h.Loaded ∧ ∃ s : Spelling, s.Names h ∧ encode h s = part := by
  cases hh : parse part with
  | error e => exact .inl ⟨e, rfl⟩
  | ok h =>
    obtain ⟨s, hs, hspelled⟩ := spelled_of_parse hh
    obtain ⟨hlong, -⟩ := parse_eq_ok hh
    obtain ⟨front, inner, more, back, back', hfront, hback, hback', hmore, rfl, rfl⟩ :=
      exists_parts_of_prefix hpart hne hlong
    obtain ⟨_, _, _, _, hheader, -, hbody⟩ := parts_of_parse hfront hback hg
    obtain ⟨_, _, _, _, hheader', -, hbody'⟩ := parts_of_parse hfront hback' hh
    obtain ⟨hlayers, hoperands⟩ := bodies_shortened hmore hbody hbody'
    have hminor : h.minorVersion = g.minorVersion :=
      congrArg Prod.fst (Except.ok.inj (hheader'.symm.trans hheader))
    refine .inr ⟨h, rfl, ⟨hminor, hlayers, hoperands⟩, ?_, loaded_of_parse hh, s, hs, hspelled⟩
    -- the same graph would have fewer operands than it has
    rintro rfl
    exact Nat.lt_irrefl _ (hoperands rfl).2.1

/-- There and back. Nothing reads the third operand, whose index and name are just such numbers as
the layers and the other operands. -/
def relay : Graph where
  minorVersion := 0
  layers := [⟨.identity, [0], 1⟩, ⟨.identity, [1], 0⟩]
  operands :=
    #[{ name := "x", kind := .input, dataType := .float, dims := ⟨1, -1, -1, 1⟩ },
      { name := "y", kind := .output, dataType := .float, dims := ⟨-1, -1, -1, -1⟩ },
      { name := "zz", kind := .intermediate, dataType := .float, dims := ⟨-1, -1, -1, -1⟩ }]

def relayFile : List UInt8 := encode relay (.plain relay)

/-- The cut is behind the eight bytes that begin the record of the third operand. -/
def relayPart : List UInt8 := relayFile.take 121

theorem relayPart_shortened : parse relayFile = .ok relay ∧ relayPart <+: relayFile ∧
    relayPart ≠ relayFile ∧ ∃ h, parse relayPart = .ok h ∧ Shortened relay h ∧ h ≠ relay := by
  have hread : parse relayFile = .ok relay := by decide +kernel
  have hpart : relayPart <+: relayFile := List.take_prefix 121 relayFile
  have hne : relayPart ≠ relayFile := by decide +kernel
  refine ⟨hread, hpart, hne, ?_⟩
  rcases parse_prefix hread hpart hne with ⟨e, he⟩ | ⟨h, hh, hshort, hother, -⟩
  · have hloads : (parse relayPart).isOk := by decide +kernel
    rw [he] at hloads
    cases hloads
  · exact ⟨h, hh, hshort, hother⟩

/-- A file that loads although its end is missing. -/
theorem relayPart_loads : parse relayFile = .ok relay ∧ relayPart <+: relayFile ∧
    relayPart ≠ relayFile ∧
    parse relayPart = .ok { relay with operands := relay.operands.extract 0 2 } :=
  ⟨by decide +kernel, List.take_prefix 121 relayFile, by decide +kernel, by decide +kernel⟩

end Inference.ModelFile
