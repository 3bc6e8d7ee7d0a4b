import Inference.Proofs.ModelFile.Grammar
import Inference.Proofs.Session.Reuse
/-! Operands by name. A name stands for the first operand that has it, in the graph as in every slot,
and nothing in a model file keeps a later operand from having the name of an earlier one. -/
namespace Inference

open Operand

variable {xs ys : Array Operand} {name : String} {i : Nat}

theorem findOperand?_eq_some_iff : findOperand? xs name = some i ↔
    (∃ o, xs[i]? = some o ∧ o.name = name) ∧
      ∀ j < i, ∀ o, xs[j]? = some o → o.name ≠ name := by
  unfold findOperand?
  rw [Array.findIdx?_eq_some_iff_getElem]
  constructor
  · rintro ⟨hi, hname, hbefore⟩
    refine ⟨⟨xs[i], Array.getElem?_eq_getElem hi, beq_iff_eq.1 hname⟩, fun j hj o ho => ?_⟩
    obtain ⟨hlt, rfl⟩ := Array.getElem?_eq_some_iff.1 ho
    simpa using hbefore j hj
  · rintro ⟨⟨o, ho, hname⟩, hbefore⟩
    obtain ⟨hi, rfl⟩ := Array.getElem?_eq_some_iff.1 ho
    refine ⟨hi, beq_iff_eq.2 hname, fun j hj => ?_⟩
    simpa using hbefore j hj xs[j] (Array.getElem?_eq_getElem _)

/-- No two operands have the same name. -/
def DistinctNames (xs : Array Operand) : Prop := xs.toList.Pairwise fun o p => o.name ≠ p.name

theorem distinctNames_iff : DistinctNames xs ↔
    ∀ (i j : Nat) (o p : Operand), xs[i]? = some o → xs[j]? = some p → i < j →
      o.name ≠ p.name := by
  unfold DistinctNames
  rw [List.pairwise_iff_getElem]
  constructor
  · intro h i j o p ho hp hij
    obtain ⟨hi, rfl⟩ := Array.getElem?_eq_some_iff.1 ho
    obtain ⟨hj, rfl⟩ := Array.getElem?_eq_some_iff.1 hp
    exact h i j hi hj hij
  · intro h i j hi hj hij
    exact h i j _ _ (Array.getElem?_eq_getElem hi) (Array.getElem?_eq_getElem hj) hij

/-- Distinct names are what it takes to reach every operand by its name. -/
theorem distinctNames_iff_found : DistinctNames xs ↔
    ∀ (i : Nat) (o : Operand), xs[i]? = some o → findOperand? xs o.name = some i := by
  rw [distinctNames_iff]
  constructor
  · intro h i o ho
    exact findOperand?_eq_some_iff.2 ⟨⟨o, ho, rfl⟩, fun j hj p hp => h j i p o hp ho hj⟩
  · intro h i j o p ho hp hij hname
    exact (findOperand?_eq_some_iff.1 (h j p hp)).2 i hij o ho hname

namespace ModelFile

variable {g : Graph} {s : Spelling}

/-- A name stands for the operand of the first index whose record has a field for it. -/
theorem Spelling.Names.found_iff (h : s.Names g) : findOperand? g.operands name = some i ↔
    i < g.operands.size ∧ decodeName (s.field i) = name ∧
      ∀ j < i, decodeName (s.field j) ≠ name := by
  rw [findOperand?_eq_some_iff]
  constructor
  · rintro ⟨⟨o, ho, hname⟩, hbefore⟩
    obtain ⟨hi, -⟩ := Array.getElem?_eq_some_iff.1 ho
    refine ⟨hi, (h.name i o ho).trans hname, fun j hj => ?_⟩
    have hat : g.operands[j]? = some g.operands[j] := Array.getElem?_eq_getElem (Nat.lt_trans hj hi)
    rw [h.name j _ hat]
    exact hbefore j hj _ hat
  · rintro ⟨hi, hname, hbefore⟩
    have hat : g.operands[i]? = some g.operands[i] := Array.getElem?_eq_getElem hi
    refine ⟨⟨_, hat, (h.name i _ hat).symm.trans hname⟩, fun j hj o ho => ?_⟩
    rw [← h.name j o ho]
    exact hbefore j hj

theorem Spelling.Names.distinct_iff (h : s.Names g) : DistinctNames g.operands ↔
    ∀ i j, i < j → j < g.operands.size → decodeName (s.field i) ≠ decodeName (s.field j) := by
  rw [distinctNames_iff]
  constructor
  · intro hdistinct i j hij hj
    have hi : g.operands[i]? = some g.operands[i] := Array.getElem?_eq_getElem (Nat.lt_trans hij hj)
    have hj : g.operands[j]? = some g.operands[j] := Array.getElem?_eq_getElem hj
    rw [h.name i _ hi, h.name j _ hj]
    exact hdistinct i j _ _ hi hj hij
  · intro hfields i j o p ho hp hij
    rw [← h.name i o ho, ← h.name j p hp]
    exact hfields i j hij (Array.getElem?_eq_some_iff.1 hp).1

end ModelFile

namespace Model

variable {m : Model}

/-- In the tables of a session a name stands for the same index as in the graph. -/
theorem Kept.findOperand?_eq (h : m.Kept xs) (name : String) :
    findOperand? xs name = findOperand? m.graph.operands name :=
  (TableRel.findOperand?_eq h (fun _ _ _ hop => hop.name) name).symm

theorem find?_eq_bind (xs : Array Operand) (name : String) :
    xs.find? (·.name == name) = (findOperand? xs name).bind (xs[·]?) := by
  rw [Array.find?_eq_bind_findIdx?_getElem?]
  rfl

end Model

namespace Session

variable {m : Model} {s : Session}

/-- What the operations of a session do with a name that stands for an operand index, or for none. -/
structure Resolves (m : Model) (s : Session) (name : String) (found : Option Nat) : Prop where
  /-- The model input that is asked for. -/
  input : m.inputInfo name = match found.bind (m.graph.operands[·]?) with
    | none => .error (.badArgument (.noInput name))
    | some o =>
      if o.kind = .input then .ok ⟨o.dataType, o.dims.height, o.dims.width, o.dims.channels⟩
      else .error (.badArgument (.notInput name))
  /-- The operand that a request or a probe fills. -/
  filled : ∀ slot ∈ s.free, ∀ i o, m.fillable slot.operands name = .ok (i, o) → found = some i
  /-- The operand that a request or a probe on a free slot hands over. -/
  served : ∀ slot ∈ s.free, ∀ plan frame ledger,
    let table := (Model.runLayers m.graph.layers
      (m.fill plan frame ⟨slot.operands, ledger⟩).2).2.operands
    table.find? (·.name == name) = found.bind (table[·]?)
  /-- The operand that a job hands over. -/
  handedOver : ∀ job ∈ s.jobs, ∀ ledger,
    let table := (Model.runLayers m.graph.layers ⟨job.slot.operands, ledger⟩).2.operands
    table.find? (·.name == name) = found.bind (table[·]?)

theorem Reachable.jobs_kept (hs : Reachable m s) {job : Job} (hjob : job ∈ s.jobs) :
    m.Kept job.slot.operands := by
  obtain ⟨commands, rfl⟩ := hs
  obtain ⟨r, -, hkept⟩ := ((Tracked.start m.anyway).run commands).1.jobs job hjob
  exact hkept

theorem Reachable.resolves (hs : Reachable m s) (name : String) :
    s.Resolves m name (findOperand? m.graph.operands name) := by
  have htable : ∀ table : Array Operand, m.Kept table → table.find? (·.name == name) =
      (findOperand? m.graph.operands name).bind (table[·]?) := by
    intro table htable
    rw [Model.find?_eq_bind, htable.findOperand?_eq]
  refine ⟨?_, fun slot hslot i o hfill => ?_, fun slot hslot plan frame ledger => ?_,
    fun job hjob ledger => ?_⟩
  · exact Model.find?_eq_bind m.graph.operands name ▸ rfl
  · rw [← (hs.idle hslot).1.findOperand?_eq]
    exact (Model.fillable_eq_ok.1 hfill).2.1
  · exact htable _ ((hs.idle hslot).1.fill plan frame).runLayers
  · exact htable _ (hs.jobs_kept hjob).runLayers

/-- A name stands for the first operand of which the record has it, in every operation of every
session. So all operands are within reach just if no two records have the same name, once each field
is cut and decoded. -/
theorem names_resolve {file : List UInt8} (h : ModelFile.parse file = .ok m.graph)
    (hs : Reachable m s) : ∃ spelling : ModelFile.Spelling, spelling.Names m.graph ∧
      ModelFile.encode m.graph spelling = file ∧
      (∀ name i, findOperand? m.graph.operands name = some i ↔ i < m.graph.operands.size ∧
        ModelFile.decodeName (spelling.field i) = name ∧
        ∀ j < i, ModelFile.decodeName (spelling.field j) ≠ name) ∧
      (∀ name, s.Resolves m name (findOperand? m.graph.operands name)) ∧
      (DistinctNames m.graph.operands ↔ ∀ i j, i < j → j < m.graph.operands.size →
        ModelFile.decodeName (spelling.field i) ≠ ModelFile.decodeName (spelling.field j)) ∧
      (DistinctNames m.graph.operands ↔ ∀ (i : Nat) (o : Operand),
        m.graph.operands[i]? = some o → findOperand? m.graph.operands o.name = some i) := by
  obtain ⟨spelling, hspelling, hfile⟩ := ModelFile.spelled_of_parse h
  exact ⟨spelling, hspelling, hfile, fun name i => hspelling.found_iff, hs.resolves,
    hspelling.distinct_iff, distinctNames_iff_found⟩

/-- A copy of which output and input have the same name. -/
def twins : Graph where
  minorVersion := 0
  layers := [⟨.identity, [1], 0⟩]
  operands :=
    #[{ name := "x", kind := .output, dataType := .float, dims := ⟨-1, -1, -1, -1⟩ },
      { name := "x", kind := .input, dataType := .float, dims := ⟨1, -1, -1, 1⟩ }]

def twinsFile : List UInt8 := ModelFile.encode twins (.plain twins)

def twinsModel : Model := { Model.copy false with graph := twins }

/-- Only the output goes by the name, and the input by none. -/
theorem twins_resolve : ModelFile.parse twinsFile = .ok twinsModel.graph ∧
    (start twinsModel).Resolves twinsModel "x" (some 0) ∧
    ¬DistinctNames twinsModel.graph.operands := by
  have hread : ModelFile.parse twinsFile = .ok twinsModel.graph := by decide +kernel
  obtain ⟨-, -, -, -, hresolves, -, hfound⟩ :=
    names_resolve (m := twinsModel) (s := start twinsModel) hread ⟨[], rfl⟩
  have hx : findOperand? twinsModel.graph.operands "x" = some 0 := by decide +kernel
  refine ⟨hread, hx ▸ hresolves "x", fun hdistinct => ?_⟩
  have hinput := hfound.1 hdistinct 1 _ rfl
  exact absurd (hx.symm.trans hinput) (by decide)

/-- A file with two operands of one name is read, and the input that it has is not to be found. -/
theorem twins_share_name : ModelFile.parse twinsFile = .ok twins ∧ ¬DistinctNames twins.operands ∧
    findOperand? twins.operands "x" = some 0 ∧
    twinsModel.inputInfo "x" = .error (.badArgument (.notInput "x")) := by
  refine ⟨by decide +kernel, fun hdistinct => ?_, by decide +kernel, by decide +kernel⟩
  exact distinctNames_iff.1 hdistinct 0 1 _ _ rfl rfl (by decide) rfl

end Session
end Inference
