import Inference.Proofs.ModelFile.Grammar
/-! The length of an operand through all that is done to it. It belongs to the dims that were granted
last. These are not always the dims of the operand, as dims without a byte length are refused only when
they have already been taken. -/
namespace Inference.Operand

/-- What can be done to an operand. -/
inductive Change where
  | resize (dims : Dims)
  | install (values : Array Single)
  | allocZeroed
  | release
  | descriptor
  deriving DecidableEq

/-- An operand and the count of buffers after a change, also where it fails. -/
def change (s : Operand × Ledger) : Change → Operand × Ledger
  | .resize dims => ((s.1.resize dims).2, s.2)
  | .install values => (s.1.install values s.2).toOption.getD s
  | .allocZeroed => s.1.allocZeroed s.2
  | .release => s.1.release s.2
  | .descriptor => (s.1.descriptor, s.2.release s.1.data)

def run (changes : List Change) (s : Operand × Ledger) : Operand × Ledger := changes.foldl change s

/-- The dims that a change asks for. -/
def Change.dims? : Change → Option Dims
  | .resize dims => some dims
  | _ => none

/-- The dims that were asked for, one after the other. -/
def asked (changes : List Change) : List Dims := changes.filterMap Change.dims?

/-- The byte lengths of those that were granted. -/
def granted (changes : List Change) : List Nat := (asked changes).filterMap Dims.byteLength?

/-- An operand that is new, or from a model file. -/
inductive Initial : Operand → Prop where
  | new (name : String) (kind : OperandKind) (dataType : DataType) (dims : Dims) :
    Initial { name, kind, dataType, dims }
  | loaded {file : List UInt8} {g : Graph} {o : Operand} (hfile : ModelFile.parse file = .ok g)
      (ho : o ∈ g.operands) : Initial o

/-- The length of the dims, or none yet. -/
def Sized (o : Operand) : Prop := o.length = 0 ∨ o.dims.byteLength? = some o.length

instance (o : Operand) : Decidable o.Sized := inferInstanceAs (Decidable (_ ∨ _))

variable {o p : Operand} {changes : List Change}

theorem Initial.sized (h : o.Initial) : o.Sized := by
  cases h with
  | new => exact .inl rfl
  | loaded hfile ho =>
    have hloaded := (ModelFile.loaded_of_parse hfile).operands o ho
    have hlength := hloaded.length
    by_cases hpos : o.dims.Positive
    · rw [if_pos hpos] at hlength
      exact .inr (Dims.byteLength?_eq_some.2 ⟨hpos, hloaded.fits hpos, hlength⟩)
    · rw [if_neg hpos] at hlength
      exact .inl hlength

/-- A change takes the dims that it asks for. -/
theorem change_dims (s : Operand × Ledger) (c : Change) :
    (change s c).1.dims = c.dims?.getD s.1.dims := by
  cases c with
  | resize dims =>
    simp only [change, Operand.resize]
    cases dims.byteLength? <;> rfl
  | install values =>
    simp only [change, Operand.install]
    split <;> rfl
  | allocZeroed | release | descriptor => rfl

/-- It takes their length if they have one. -/
theorem change_length (s : Operand × Ledger) (c : Change) :
    (change s c).1.length = (c.dims?.bind Dims.byteLength?).getD s.1.length := by
  cases c with
  | resize dims =>
    simp only [change, Operand.resize, Change.dims?, Option.bind_some]
    cases dims.byteLength? <;> rfl
  | install values =>
    simp only [change, Operand.install]
    split <;> rfl
  | allocZeroed | release | descriptor => rfl

theorem run_dims (changes : List Change) (s : Operand × Ledger) :
    (run changes s).1.dims = (asked changes).getLastD s.1.dims := by
  induction changes generalizing s with
  | nil => rfl
  | cons c changes ih =>
    have hrest := ih (change s c)
    rw [change_dims] at hrest
    unfold run at hrest ⊢
    rw [List.foldl_cons, hrest, asked, asked, List.filterMap_cons]
    cases c.dims? with
    | none => rfl
    | some dims => exact (List.getLastD_cons ..).symm

theorem run_length (changes : List Change) (s : Operand × Ledger) :
    (run changes s).1.length = (granted changes).getLastD s.1.length := by
  induction changes generalizing s with
  | nil => rfl
  | cons c changes ih =>
    have hrest := ih (change s c)
    rw [change_length] at hrest
    unfold run at hrest ⊢
    rw [List.foldl_cons, hrest, granted, granted, asked, asked, List.filterMap_cons]
    cases c.dims? with
    | none => rfl
    | some dims =>
      rw [Option.bind_some, List.filterMap_cons]
      cases dims.byteLength? with
      | none => rfl
      | some length => exact (List.getLastD_cons ..).symm

/-- A length is a whole number of values. -/
theorem dvd_byteLength {dims : Dims} {length : Nat} (h : dims.byteLength? = some length) :
    4 ∣ length := by
  obtain ⟨-, -, rfl⟩ := Dims.byteLength?_eq_some.1 h
  exact Nat.dvd_mul_right 4 _

theorem Sized.dvd_length (h : o.Sized) : 4 ∣ o.length := by
  obtain hzero | hlength := h
  · rw [hzero]
    exact Nat.dvd_zero 4
  · exact dvd_byteLength hlength

/-- What is known of an operand after changes. -/
structure SizedBy (o : Operand) (changes : List Change) (p : Operand) : Prop where
  /-- The dims are those asked for last, whether they were granted or refused. -/
  dims : p.dims = (asked changes).getLastD o.dims
  /-- The length is that of the dims granted last. -/
  length : p.length = (granted changes).getLastD o.length
  /-- These are not the same just if dims were refused after others had been granted. -/
  sized : p.Sized ↔ p.length = 0 ∨ ∀ dims ∈ (asked changes).getLast?, dims.byteLength?.isSome
  refused : ∀ dims e, (p.resize dims).1 = .error e → (p.resize dims).2 = { p with dims }
  /-- Buffers are taken by the length, whatever the dims are. -/
  installed : ∀ values l q l', p.install values l = .ok (q, l') →
    q = { p with data := some values } ∧ 4 * values.size = p.length
  zeroed : ∀ l, ∃ values, (p.allocZeroed l).1 = { p with data := some values } ∧
    4 * values.size = p.length

/-- In the end the length is that of the dims unless those were refused. -/
theorem sized_iff (h : o.Initial) (hdims : p.dims = (asked changes).getLastD o.dims)
    (hlength : p.length = (granted changes).getLastD o.length) : p.Sized ↔
      p.length = 0 ∨ ∀ dims ∈ (asked changes).getLast?, dims.byteLength?.isSome := by
  unfold Sized
  rw [granted] at hlength
  obtain hnone | ⟨earlier, last, hlast⟩ := List.eq_nil_or_concat (asked changes)
  · rw [hnone] at hdims hlength
    rw [hnone, hdims, hlength]
    exact iff_of_true h.sized (.inr nofun)
  · rw [List.concat_eq_append] at hlast
    rw [hlast, List.getLastD_concat] at hdims
    rw [hlast, List.filterMap_append, List.filterMap_cons, List.filterMap_nil] at hlength
    rw [hlast, hdims, List.getLast?_concat]
    cases hbytes : last.byteLength? with
    | none => simp [hbytes]
    | some length =>
      simp only [hbytes, List.getLastD_concat] at hlength
      simp [hbytes, hlength]

theorem dvd_length (h : o.Initial) (hlength : p.length = (granted changes).getLastD o.length) :
    4 ∣ p.length := by
  have hmem : (granted changes).getLastD o.length ∈ o.length :: granted changes :=
    List.getLastD_mem_cons
  rw [← hlength] at hmem
  obtain hinitial | hgranted := List.mem_cons.1 hmem
  · exact hinitial ▸ h.sized.dvd_length
  · obtain ⟨dims, -, hbytes⟩ := List.mem_filterMap.1 hgranted
    exact dvd_byteLength hbytes

/-- Whatever is done to an operand in whatever order, its dims are the ones asked for last and its
length is that of the dims granted last, and by this length it takes its buffers. -/
theorem sizedBy_run (h : o.Initial) (changes : List Change) (l : Ledger) :
    SizedBy o changes (run changes (o, l)).1 := by
  have hdims := run_dims changes (o, l)
  have hlength := run_length changes (o, l)
  generalize (run changes (o, l)).1 = p at hdims hlength
  have hvalues := dvd_length h hlength
  constructor
  case dims => exact hdims
  case length => exact hlength
  case sized => exact sized_iff h hdims hlength
  case refused =>
    intro dims e he
    unfold Operand.resize at he ⊢
    cases hbytes : dims.byteLength? with
    | none => rfl
    | some length =>
      rw [hbytes] at he
      cases he
  case installed =>
    intro values l q l' hq
    unfold Operand.install at hq
    split at hq
    next hfill =>
      cases hq
      exact ⟨rfl, hfill⟩
    next => cases hq
  case zeroed =>
    intro l
    refine ⟨.replicate (p.length / 4) .zero, rfl, ?_⟩
    rw [Array.size_replicate]
    exact Nat.mul_div_cancel' hvalues

/-- Refused dims behind granted ones, and a buffer for the dims that are no longer there. -/
theorem sizedBy_refused :
    let o : Operand := { name := "x", kind := .input, dataType := .float, dims := ⟨1, -1, -1, 1⟩ }
    let changes : List Change := [.resize ⟨1, 1, 1, 1⟩, .resize ⟨1, 65536, 65536, 1⟩, .allocZeroed]
    o.Initial ∧ SizedBy o changes (run changes (o, {})).1 :=
  ⟨.new .., sizedBy_run (.new ..) _ _⟩

/-- Dims that were refused can stay, with a length and a buffer for other dims beside them. -/
theorem refused_dims_stay :
    ∃ (o : Operand) (dims : Dims) (e : KernelError), o.Initial ∧
      ((change (o, {}) (.resize ⟨1, 1, 1, 1⟩)).1.resize dims).1 = .error e ∧
      let p := (run [.resize ⟨1, 1, 1, 1⟩, .resize dims, .allocZeroed] (o, {})).1
      p.dims = dims ∧ ¬p.Sized ∧ p.data = some #[.zero] :=
  ⟨{ name := "x", kind := .input, dataType := .float, dims := ⟨1, -1, -1, 1⟩ },
    ⟨1, 65536, 65536, 1⟩, .lengthOverflow "x", .new .., by decide +kernel, by decide +kernel⟩

end Inference.Operand
