import Inference.Proofs.ModelFile.Grammar
import Inference.Proofs.ModelFile.RoundTrip
/-! Records delimit themselves. A reader takes the same bytes for the same value whatever follows
them, and on less than these it misses some. -/
namespace Inference.Reader

section

variable {α β : Type} {reader : Reader α} {bs cs : List UInt8} {a : α} {b : β}

/-- The reader takes just these bytes for the value, and any beginning of them is too short. -/
structure Delimits (reader : Reader α) (bs : List UInt8) (a : α) : Prop where
  reads : Reads reader bs a
  cut : ∀ part missing, bs = part ++ missing → missing ≠ [] →
    ∃ cause, reader part = .error (.format cause)

theorem Delimits.pure (a : α) : Delimits (Pure.pure a) [] a := by
  refine ⟨.pure a, fun part missing hall hmissing => ?_⟩
  exact absurd (List.append_eq_nil_iff.1 hall.symm).2 hmissing

theorem Delimits.bind {f : α → Reader β} (h : Delimits reader bs a) (hf : Delimits (f a) cs b) :
    Delimits (reader >>= f) (bs ++ cs) b := by
  refine ⟨h.reads.bind hf.reads, fun part missing hall hmissing => ?_⟩
  have hbehind : ∀ behind, cs = behind ++ missing →
      ∃ cause, (reader >>= f) (bs ++ behind) = .error (.format cause) := by
    intro behind hcs
    obtain ⟨cause, hcause⟩ := hf.cut behind missing hcs hmissing
    rw [bind_run, h.reads behind]
    exact ⟨cause, hcause⟩
  -- The bytes end behind those of the first reader, or with them, or before.
  rcases List.append_eq_append_iff.1 hall with ⟨behind, rfl, hcs⟩ | ⟨lacking, hbs, rfl⟩
  · exact hbehind behind hcs
  · by_cases hlacking : lacking = []
    · subst hlacking
      rw [List.append_nil] at hbs
      rw [← hbs, ← List.append_nil bs]
      exact hbehind [] rfl
    · obtain ⟨cause, hcause⟩ := h.cut part lacking hbs hlacking
      rw [bind_run, hcause]
      exact ⟨cause, rfl⟩

/-- The reader delimits whatever it takes. That a file is too long is not for a reader to say. -/
structure SelfDelimiting (reader : Reader α) : Prop where
  delimits : Takes reader fun a bs => Delimits reader bs a
  fits : ∀ bytes parsed size, reader bytes ≠ .error (.sizeMismatch parsed size)

namespace SelfDelimiting

theorem pure (a : α) : SelfDelimiting (Pure.pure a) := ⟨.pure (.pure a), nofun⟩

theorem fail (cause : FormatError) : SelfDelimiting (Reader.fail cause : Reader α) :=
  ⟨.throw _, nofun⟩

theorem bind {f : α → Reader β} (h : SelfDelimiting reader) (hf : ∀ a, SelfDelimiting (f a)) :
    SelfDelimiting (reader >>= f) := by
  constructor
  · exact h.delimits.bind fun a bs ha => (hf a).delimits.mono fun b cs hb => ha.bind hb
  · intro bytes parsed size herror
    rw [bind_run] at herror
    rcases bind_eq_error.1 herror with hfirst | ⟨p, -, hnext⟩
    · exact h.fits bytes parsed size hfirst
    · exact (hf p.1).fits p.2 parsed size hnext

/-- What follows a check is read where its condition fails. -/
theorem check {c : Prop} [Decidable c] {cause : FormatError} {k : PUnit → Reader α}
    (h : SelfDelimiting reader) :
    SelfDelimiting (if c then Reader.fail cause >>= k else reader) := by
  by_cases hc : c
  · rw [if_pos hc]
    exact ⟨fun _ _ _ => nofun, nofun⟩
  · rwa [if_neg hc]

theorem takes (h : SelfDelimiting reader) : Takes reader fun _ _ => True :=
  h.delimits.mono fun _ _ _ => trivial

/-- The look at the room that is left changes nothing for records that fill that room. -/
theorem ensureRecords {count size : Nat} (record : String) (h : SelfDelimiting reader)
    (hroom : Takes reader fun _ bs => count * size ≤ bs.length) :
    SelfDelimiting (do
      ensureRecords count size record
      reader) := by
  have hrun : ∀ bytes, (do
      Reader.ensureRecords count size record
      reader : Reader α) bytes =
        Reader.ensureRecords count size record bytes >>= fun p => reader p.2 := fun _ => rfl
  have hcases : ∀ bytes, Reader.ensureRecords count size record bytes = .ok ((), bytes) ∨
      ∃ cause, Reader.ensureRecords count size record bytes = .error (.format cause) := by
    intro bytes
    unfold Reader.ensureRecords
    split
    · exact .inl rfl
    · exact .inr ⟨_, rfl⟩
  constructor
  · intro bytes a rest hread
    rw [hrun] at hread
    rcases hcases bytes with hok | ⟨cause, herror⟩
    · rw [hok] at hread
      obtain ⟨taken, rfl, hdelimits⟩ := h.delimits bytes a rest hread
      obtain ⟨taken', hsame, hlength⟩ := hroom _ a rest hread
      obtain rfl := List.append_cancel_right hsame
      refine ⟨taken, rfl, ModelFile.ensureRecords_reads record hlength hdelimits.reads, ?_⟩
      intro part missing hall hmissing
      rw [hrun]
      rcases hcases part with hok | ⟨cause, herror⟩
      · rw [hok]
        exact hdelimits.cut part missing hall hmissing
      · rw [herror]
        exact ⟨cause, rfl⟩
    · rw [herror] at hread
      cases hread
  · intro bytes parsed size' hread
    rw [hrun] at hread
    rcases hcases bytes with hok | ⟨cause, herror⟩
    · rw [hok] at hread
      exact h.fits bytes parsed size' hread
    · rw [herror] at hread
      cases hread

end SelfDelimiting
end

/-- A reader of a fixed number of bytes. -/
theorem bytes_delimits (n : Nat) : SelfDelimiting (bytes n) := by
  constructor
  · refine (bytes_takes n).mono fun bs taken ⟨hsame, hlength⟩ => ?_
    subst hsame hlength
    refine ⟨bytes_reads bs, fun part missing hall hmissing => ⟨.endOfData, if_neg ?_⟩⟩
    have hpos := List.length_pos_of_ne_nil hmissing
    rw [hall, List.length_append]
    omega
  · intro bytes parsed size herror
    unfold Reader.bytes at herror
    split at herror <;> cases herror

theorem word_delimits : SelfDelimiting word := by
  constructor
  · refine word_takes.mono fun w bs hbs => ?_
    subst hbs
    refine ⟨word_reads w, fun part missing hall hmissing => ⟨.endOfData, ?_⟩⟩
    have hlength := congrArg List.length hall
    have hpos := List.length_pos_of_ne_nil hmissing
    rw [LittleEndian.length_encode, List.length_append] at hlength
    unfold word
    split
    next => simp at hlength; omega
    next => rfl
  · intro bytes parsed size herror
    unfold word at herror
    split at herror <;> cases herror

theorem int_delimits : SelfDelimiting int := word_delimits.bind fun _ => .pure _

theorem single_delimits : SelfDelimiting single := word_delimits.bind fun _ => .pure _

theorem flag_delimits : SelfDelimiting flag := int_delimits.bind fun _ => .pure _

theorem singles_delimits (count : Nat) : SelfDelimiting (singles count) :=
  .check ((bytes_delimits _).bind fun _ => .pure _)

theorem count_delimits (field : String) : SelfDelimiting (count field) :=
  int_delimits.bind fun _ => .check (.pure _)

theorem positive_delimits (field : String) : SelfDelimiting (positive field) :=
  (count_delimits field).bind fun _ => .check (.pure _)

theorem operandIndex_delimits (operands : Nat) : SelfDelimiting (operandIndex operands) := by
  refine int_delimits.bind fun value => ?_
  split
  · exact .pure _
  · exact .fail _

theorem code_delimits {α : Type} (ofCode? : Int32 → Option α)
    (unknown : Int32 → FormatError) : SelfDelimiting (code ofCode? unknown) := by
  refine int_delimits.bind fun value => ?_
  split
  · exact .pure _
  · exact .fail _

variable {operands : Nat}

theorem ends_delimits (params : LayerParams) : SelfDelimiting (ends operands params) :=
  (operandIndex_delimits operands).bind fun _ =>
    (operandIndex_delimits operands).bind fun _ => .pure _

theorem kernel_delimits (kind : LayerKind) (count : Nat) :
    SelfDelimiting (kernel kind count) :=
  .check (singles_delimits count)

theorem biases_delimits (present : Bool) (count : Nat) :
    SelfDelimiting (biases present count) := by
  cases present with
  | false => exact .pure none
  | true => exact (singles_delimits count).bind fun _ => .pure _

theorem margin_delimits : SelfDelimiting margin :=
  (count_delimits _).bind fun _ => (count_delimits _).bind fun _ => .pure _

theorem conv2d_delimits : SelfDelimiting (conv2d operands) := by
  refine (positive_delimits _).bind fun dilation => ?_
  refine (code_delimits _ _).bind fun padding => ?_
  refine (code_delimits _ _).bind fun activation => ?_
  refine (positive_delimits _).bind fun inputNum => ?_
  refine (positive_delimits _).bind fun outputNum => ?_
  refine (positive_delimits _).bind fun kernelSize => ?_
  refine flag_delimits.bind fun biased => ?_
  refine (kernel_delimits _ _).bind fun weights => ?_
  exact (biases_delimits _ _).bind fun biases => ends_delimits _

theorem dense_delimits : SelfDelimiting (dense operands) := by
  refine (code_delimits _ _).bind fun activation => ?_
  refine (positive_delimits _).bind fun inputNum => ?_
  refine (positive_delimits _).bind fun outputNum => ?_
  refine flag_delimits.bind fun biased => ?_
  refine (kernel_delimits _ _).bind fun weights => ?_
  exact (biases_delimits _ _).bind fun biases => ends_delimits _

theorem mirrorPad_delimits : SelfDelimiting (mirrorPad operands) := by
  refine (code_delimits _ _).bind fun mode => ?_
  refine margin_delimits.bind fun batch => ?_
  refine margin_delimits.bind fun height => ?_
  refine margin_delimits.bind fun width => ?_
  exact margin_delimits.bind fun channels => ends_delimits _

theorem binarySide_delimits : SelfDelimiting (binarySide operands) := by
  refine flag_delimits.bind fun scalar => ?_
  cases scalar with
  | true => exact single_delimits.bind fun _ => .pure _
  | false => exact (operandIndex_delimits operands).bind fun _ => .pure _

theorem mathBinary_delimits : SelfDelimiting (mathBinary operands) := by
  refine (code_delimits _ _).bind fun op => ?_
  refine binarySide_delimits.bind fun left => ?_
  refine binarySide_delimits.bind fun right => ?_
  exact .check ((operandIndex_delimits operands).bind fun output => .pure _)

theorem avgPool_delimits : SelfDelimiting (avgPool operands) := by
  refine (positive_delimits _).bind fun strides => ?_
  refine (code_delimits _ _).bind fun padding => ?_
  exact (positive_delimits _).bind fun kernelSize => ends_delimits _

theorem payload_delimits (kind : LayerKind) : SelfDelimiting (payload operands kind) := by
  cases kind with
  | identity => exact ends_delimits _
  | conv2d => exact conv2d_delimits
  | depthToSpace => exact (positive_delimits _).bind fun block => ends_delimits _
  | mirrorPad => exact mirrorPad_delimits
  | maximum => exact single_delimits.bind fun value => ends_delimits _
  | mathBinary => exact mathBinary_delimits
  | mathUnary => exact (code_delimits _ _).bind fun op => ends_delimits _
  | avgPool => exact avgPool_delimits
  | dense => exact dense_delimits

theorem layer_delimits : SelfDelimiting (layer operands) :=
  (code_delimits _ _).bind payload_delimits

theorem times_delimits {α : Type} {reader : Reader α} (h : SelfDelimiting reader) (n : Nat) :
    SelfDelimiting (times n reader) := by
  unfold times
  induction List.range n with
  | nil => exact .pure []
  | cons step steps ih =>
    rw [List.mapM_cons]
    exact h.bind fun first => ih.bind fun others => .pure _

end Inference.Reader

namespace Inference.ModelFile

open Reader

theorem dims_delimits : SelfDelimiting dims :=
  int_delimits.bind fun _ => int_delimits.bind fun _ => int_delimits.bind fun _ =>
    int_delimits.bind fun _ => .pure _

theorem operand_delimits : SelfDelimiting operand := by
  refine (count_delimits _).bind fun length => ?_
  refine (bytes_delimits length).bind fun field => ?_
  refine (code_delimits _ _).bind fun kind => ?_
  refine (code_delimits _ _).bind fun dataType => ?_
  refine dims_delimits.bind fun dims => .check ?_
  split
  · split
    · exact .pure _
    · exact ⟨.throw _, nofun⟩
  · exact .pure _

theorem operandRecords_delimits (steps : List Nat) (table : Array (Option Operand)) :
    SelfDelimiting (steps.foldlM (fun table _ => operandRecord table) table) := by
  induction steps generalizing table with
  | nil => exact .pure table
  | cons step steps ih =>
    have hrecord : SelfDelimiting (operandRecord table) :=
      (operandIndex_delimits _).bind fun index =>
        operand_delimits.bind fun o => .check (.pure _)
    rw [List.foldlM_cons]
    exact hrecord.bind ih

theorem complete_delimits (table : Array (Option Operand)) :
    SelfDelimiting (liftM (complete table) : Reader (Array Operand)) := by
  unfold complete
  split
  · exact .fail _
  · exact .pure _

end Inference.ModelFile
