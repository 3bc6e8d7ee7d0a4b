import Inference.Proofs.Concur
import Inference.Proofs.ModelFile.LayerGrammar
import Inference.Proofs.ModelFile.OperandGrammar
/-! Only what a writer puts down is read as a graph, and the graph has what the layers rely on. -/
namespace Inference.ModelFile

open Reader

theorem ensureRecords_takes (count size : Nat) (record : String) :
    Takes (ensureRecords count size record) fun _ bs => bs = [] := by
  intro bytes a rest hread
  unfold ensureRecords at hread
  split at hread
  next =>
    cases hread
    exact ⟨[], rfl, rfl⟩
  next => cases hread

/-- The records between header and trailer are the ones of a graph of which all weights can be
counted. -/
theorem body_takes_addressable (minorVersion : Int32) (layers operands : Nat) :
    Takes (body layers operands) fun both bs =>
      both.1.length = layers ∧ both.2.size = operands ∧
        (∀ l ∈ both.1, l.WellFormed both.2.size ∧ l.params.Addressable) ∧ (∀ o ∈ both.2, o.Loaded) ∧
        ∃ s : Spelling, s.Names ⟨minorVersion, both.1, both.2⟩ ∧
          bs = encodeBody ⟨minorVersion, both.1, both.2⟩ s := by
  refine (ensureRecords_takes _ _ _).bind fun _ _ hbs => ?_
  subst hbs
  refine (layers_takes layers 0).bind fun ls _ ⟨hlayers, hls, yes, hyes, hbs⟩ => ?_
  subst hbs
  refine (ensureRecords_takes _ _ _).bind fun _ _ hbs => ?_
  subst hbs
  rw [← bind_assoc]
  refine (operands_takes operands).bind fun os _ ⟨hcount, hos, order, field, hperm, hfield, hbs⟩ =>
    .pure ⟨hlayers, hcount, ?_, hos, ⟨order, field, yes⟩, ?_, ?_⟩
  · rw [hcount]
    exact hls
  · refine ⟨?_, fun i o ho => (hfield i o ho).1, ?_, hyes⟩
    · rw [hcount]
      exact hperm
    · intro i hi
      exact (hfield i _ (Array.getElem?_eq_getElem hi)).2
  · rw [hbs, encodeBody, List.append_nil]
    rfl

theorem body_takes (minorVersion : Int32) (layers operands : Nat) :
    Takes (body layers operands) fun both bs =>
      both.1.length = layers ∧ both.2.size = operands ∧
        (∀ l ∈ both.1, l.WellFormed both.2.size) ∧ (∀ o ∈ both.2, o.Loaded) ∧
        ∃ s : Spelling, s.Names ⟨minorVersion, both.1, both.2⟩ ∧
          bs = encodeBody ⟨minorVersion, both.1, both.2⟩ s :=
  (body_takes_addressable minorVersion layers operands).mono
    fun _ _ ⟨hlayers, hcount, hls, hos, hspelled⟩ =>
      ⟨hlayers, hcount, fun l hl => (hls l hl).1, hos, hspelled⟩

theorem header_takes : Takes header fun v bs => bs = encodeHeader v := by
  refine (bytes_takes magic.length).bind fun found _ ⟨hsame, _⟩ => .check fun hmagic => ?_
  subst hsame
  obtain rfl := not_not.1 hmagic
  refine int_takes.bind fun major _ hbs => ?_
  subst hbs
  split
  next => exact .throw _
  next hmajor =>
    obtain rfl := not_not.1 hmajor
    refine int_takes.mono fun v bs hbs => ?_
    rw [hbs, encodeHeader, List.append_assoc]

theorem trailer_takes : Takes trailer fun counts bs =>
    counts.1 < 2 ^ 31 ∧ counts.2 < 2 ^ 31 ∧ bs = encodeTrailer counts.1 counts.2 := by
  refine (count_takes _).bind fun layers _ ⟨hlayers, hbs⟩ => ?_
  subst hbs
  refine (count_takes _).bind fun operands _ ⟨hoperands, hbs⟩ => .pure ?_
  subst hbs
  exact ⟨hlayers, hoperands, by simp [encodeTrailer]⟩

variable {file : List UInt8} {g : Graph}

/-- A file that is read falls into header, records and trailer, and no byte of it is left over. -/
theorem parse_eq_ok (h : parse file = .ok g) : headerSize + trailerSize ≤ file.length ∧
    ∃ layers operands behindHeader behindTrailer,
      header (file.take headerSize) = .ok (g.minorVersion, behindHeader) ∧
      trailer (file.drop (file.length - trailerSize)) = .ok ((layers, operands), behindTrailer) ∧
      body layers operands ((file.drop headerSize).take (file.length - trailerSize - headerSize)) =
        .ok ((g.layers, g.operands), []) := by
  unfold parse at h
  obtain ⟨hlong, h⟩ := ite_throw_bind_eq_ok.1 h
  obtain ⟨⟨minor, behindHeader⟩, hheader, h⟩ := bind_eq_ok.1 h
  obtain ⟨⟨⟨layers, operands⟩, behindTrailer⟩, htrailer, h⟩ := bind_eq_ok.1 h
  obtain ⟨⟨⟨ls, os⟩, rest⟩, hbody, h⟩ := bind_eq_ok.1 h
  obtain ⟨hrest, h⟩ := ite_throw_bind_eq_ok.1 h
  cases h
  obtain rfl := not_not.1 hrest
  exact ⟨Nat.le_of_not_lt hlong, layers, operands, behindHeader, behindTrailer, hheader, htrailer,
    hbody⟩

/-- The layers of a graph that is read have sound parameters, and all their weights can be counted. -/
theorem layers_of_parse (h : parse file = .ok g) :
    ∀ l ∈ g.layers, l.WellFormed g.operands.size ∧ l.params.Addressable := by
  obtain ⟨-, layers, operands, _, _, -, -, hbody⟩ := parse_eq_ok h
  obtain ⟨_, -, -, -, hls, -⟩ :=
    body_takes_addressable g.minorVersion layers operands _ _ _ hbody
  exact hls

theorem loaded_of_parse (h : parse file = .ok g) : g.Loaded := by
  obtain ⟨-, layers, operands, _, _, -, htrailer, hbody⟩ := parse_eq_ok h
  obtain ⟨_, -, hlayers, hoperands, -⟩ := trailer_takes _ _ _ htrailer
  obtain ⟨_, -, hlayerCount, hoperandCount, hls, hos, -⟩ :=
    body_takes g.minorVersion layers operands _ _ _ hbody
  simp only at hlayerCount hoperandCount
  subst hlayerCount hoperandCount
  exact ⟨hlayers, hoperands, hls, hos⟩

theorem spelled_of_parse (h : parse file = .ok g) :
    ∃ s : Spelling, s.Names g ∧ encode g s = file := by
  obtain ⟨hlong, layers, operands, _, _, hheader, htrailer, hbody⟩ := parse_eq_ok h
  have hminor : file.take headerSize = encodeHeader g.minorVersion := by
    refine Takes.all header_takes hheader fun bs hbs => ?_
    rw [hbs, List.length_take]
    exact Nat.min_le_left _ _
  obtain ⟨-, -, hcounts⟩ := Takes.all trailer_takes htrailer fun bs ⟨_, _, hbs⟩ => by
    have htwo : bs.length = trailerSize := congrArg List.length hbs
    rw [htwo, List.length_drop]
    omega
  obtain ⟨records, hrecords, hlayerCount, hoperandCount, -, -, s, hnames, hbytes⟩ :=
    body_takes g.minorVersion layers operands _ _ _ hbody
  simp only at hlayerCount hoperandCount
  subst hlayerCount hoperandCount
  refine ⟨s, hnames, ?_⟩
  rw [List.append_nil, hbytes] at hrecords
  have hbehind : file.drop (file.length - trailerSize) =
      (file.drop headerSize).drop (file.length - trailerSize - headerSize) := by
    rw [List.drop_drop]
    congr 1
    omega
  calc encode g s
      = file.take headerSize ++
          ((file.drop headerSize).take (file.length - trailerSize - headerSize) ++
          file.drop (file.length - trailerSize)) := by
        rw [hminor, hrecords, hcounts, encode, List.append_assoc]
    _ = file.take headerSize ++ file.drop headerSize := by rw [hbehind, List.take_append_drop]
    _ = file := List.take_append_drop _ _

/-- Whatever is read as a graph is a file that spells it, and the graph is one that records can
stand for. -/
theorem encode_of_parse (h : parse file = .ok g) :
    g.Loaded ∧ ∃ s : Spelling, s.Names g ∧ encode g s = file :=
  ⟨loaded_of_parse h, spelled_of_parse h⟩

/-- Twice the input and one more. -/
def affine : Graph where
  minorVersion := 3
  layers := [⟨.dense ⟨1, 1, .linear, #[⟨0x40000000⟩], some #[⟨0x3f800000⟩]⟩, [0], 1⟩]
  operands :=
    #[{ name := "x\ufffd", kind := .input, dataType := .float, dims := ⟨1, -1, -1, 1⟩ },
      { name := "y", kind := .output, dataType := .float, dims := ⟨1, 2, 2, 1⟩, length := 16 }]

/-- The last record first, a name with a byte that is no character, and a yes that is not one. -/
def affineFile : List UInt8 :=
  encode affine ⟨[1, 0], fun i => if i = 0 then [0x78, 0xff, 0, 0x41] else [0x79], fun _ _ => 7⟩

theorem encode_affine : parse affineFile = .ok affine ∧
    affine.Loaded ∧ ∃ s : Spelling, s.Names affine ∧ encode affine s = affineFile := by
  have hread : parse affineFile = .ok affine := by decide +kernel
  exact ⟨hread, encode_of_parse hread⟩

end Inference.ModelFile
