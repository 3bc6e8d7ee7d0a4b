import Inference.Proofs.ModelFile.Reading
import Inference.Proofs.ModelFile.WellFormed
/-! The record of a layer is read as the layer it was written for. -/
namespace Inference.Reader

open ModelFile (Writer.nat Writer.singles Writer.biases Writer.margin Writer.ends Writer.side
  Writer.payload Writer.layer)

variable {operands : Nat} {l : Layer}

theorem ends_reads (hoperands : operands < 2 ^ 31) (harity : l.inputs.length = 1)
    (hinputs : ∀ i ∈ l.inputs, i < operands) (houtput : l.output < operands) :
    Reads (ends operands l.params) (Writer.ends l) l := by
  obtain ⟨params, inputs, output⟩ := l
  obtain ⟨i, rfl⟩ := List.length_eq_one_iff.1 harity
  have hindexes : Writer.ends ⟨params, [i], output⟩ = Writer.nat i ++ Writer.nat output := by
    simp [Writer.ends]
  rw [hindexes]
  refine (operandIndex_reads hoperands (hinputs i (by simp))).bind ?_
  exact (operandIndex_reads hoperands houtput).bind_nil (.pure _)

theorem margin_reads {m : Margin} (h : m.WellFormed) : Reads margin (Writer.margin m) m :=
  (count_reads _ h.1).bind ((count_reads _ h.2).bind_nil (.pure _))

theorem kernel_reads (kind : LayerKind) {xs : Array Single}
    (h : 4 * xs.size < Checked.sizeLimit) : Reads (kernel kind xs.size) (Writer.singles xs) xs := by
  unfold kernel
  rw [if_neg (by omega)]
  exact singles_reads h

theorem biases_reads {biases : Option (Array Single)} {count : Nat}
    (hcount : ∀ xs ∈ biases, xs.size = count) (h : count < 2 ^ 31) (yes : UInt32) :
    Reads (Reader.biases biases.isSome count) (Writer.biases yes biases).2 biases := by
  cases biases with
  | none => exact .pure _
  | some xs =>
    have hsize : xs.size = count := hcount xs rfl
    rw [← hsize]
    refine (singles_reads ?_).bind_nil (.pure _)
    rw [hsize, Checked.sizeLimit]
    omega

theorem biased_reads {yes : UInt32} (hyes : yes ≠ 0) (biases : Option (Array Single)) :
    Reads flag (Writer.biases yes biases).1 biases.isSome := by
  cases biases with
  | none => exact flag_reads_no
  | some xs => exact flag_reads_yes hyes

/-- The weights of a layer, with the flag for its biases before and the biases behind them. -/
theorem weights_reads {yes : UInt32} (hyes : yes ≠ 0) (kind : LayerKind) {weights : Array Single}
    {biases : Option (Array Single)} {size count : Nat} (hsize : weights.size = size)
    (hbiases : ∀ xs ∈ biases, xs.size = count) (hcount : count < 2 ^ 31)
    (hlength : (Writer.singles weights).length < Checked.sizeLimit)
    {α : Type} {bs : List UInt8} {a : α} {next : Array Single → Option (Array Single) → Reader α}
    (hnext : Reads (next weights biases) bs a) :
    Reads (do
        let biased ← flag
        let weights ← kernel kind size
        let biases ← Reader.biases biased count
        next weights biases)
      ((Writer.biases yes biases).1 ++ (Writer.singles weights ++
        ((Writer.biases yes biases).2 ++ bs))) a := by
  have hkernel : 4 * weights.size < Checked.sizeLimit := by
    rw [length_singles] at hlength
    omega
  subst hsize
  refine (biased_reads hyes biases).bind ((kernel_reads kind hkernel).bind ?_)
  exact (biases_reads hbiases hcount yes).bind hnext

theorem conv2d_reads {p : Conv2d} {inputs : List Nat} {output : Nat} {yes : Nat → UInt32}
    (h : p.WellFormed) (hyes : ∀ j, yes j ≠ 0)
    (hends : Reads (ends operands (.conv2d p)) (Writer.ends ⟨.conv2d p, inputs, output⟩)
      ⟨.conv2d p, inputs, output⟩)
    (hlength : (Writer.payload yes ⟨.conv2d p, inputs, output⟩).length < Checked.sizeLimit) :
    Reads (conv2d operands) (Writer.payload yes ⟨.conv2d p, inputs, output⟩)
      ⟨.conv2d p, inputs, output⟩ := by
  have hweights : (Writer.singles p.kernel).length < Checked.sizeLimit := by
    refine Nat.lt_of_le_of_lt ?_ hlength
    simp only [Writer.payload, List.length_append]
    omega
  simp only [Writer.payload, List.append_assoc]
  refine (positive_reads _ h.dilation.1 h.dilation.2).bind ?_
  refine (code_reads (Padding.ofCode?_code p.padding)).bind ?_
  refine (code_reads (Activation.ofCode?_code p.activation)).bind ?_
  refine (positive_reads _ h.inputNum.1 h.inputNum.2).bind ?_
  refine (positive_reads _ h.outputNum.1 h.outputNum.2).bind ?_
  refine (positive_reads _ h.kernelSize.1 h.kernelSize.2).bind ?_
  exact weights_reads (hyes 0) .conv2d h.kernel h.biases h.outputNum.2 hweights hends

theorem dense_reads {p : Dense} {inputs : List Nat} {output : Nat} {yes : Nat → UInt32}
    (h : p.WellFormed) (hyes : ∀ j, yes j ≠ 0)
    (hends : Reads (ends operands (.dense p)) (Writer.ends ⟨.dense p, inputs, output⟩)
      ⟨.dense p, inputs, output⟩)
    (hlength : (Writer.payload yes ⟨.dense p, inputs, output⟩).length < Checked.sizeLimit) :
    Reads (dense operands) (Writer.payload yes ⟨.dense p, inputs, output⟩)
      ⟨.dense p, inputs, output⟩ := by
  have hweights : (Writer.singles p.kernel).length < Checked.sizeLimit := by
    refine Nat.lt_of_le_of_lt ?_ hlength
    simp only [Writer.payload, List.length_append]
    omega
  simp only [Writer.payload, List.append_assoc]
  refine (code_reads (Activation.ofCode?_code p.activation)).bind ?_
  refine (positive_reads _ h.inputNum.1 h.inputNum.2).bind ?_
  refine (positive_reads _ h.outputNum.1 h.outputNum.2).bind ?_
  exact weights_reads (hyes 0) .dense h.kernel h.biases h.outputNum.2 hweights hends

theorem mirrorPad_reads {p : MirrorPad} {inputs : List Nat} {output : Nat} {yes : Nat → UInt32}
    (h : p.WellFormed)
    (hends : Reads (ends operands (.mirrorPad p)) (Writer.ends ⟨.mirrorPad p, inputs, output⟩)
      ⟨.mirrorPad p, inputs, output⟩) :
    Reads (mirrorPad operands) (Writer.payload yes ⟨.mirrorPad p, inputs, output⟩)
      ⟨.mirrorPad p, inputs, output⟩ := by
  obtain ⟨mode, batch, height, width, channels, constant⟩ := p
  obtain rfl : constant = .zero := h.constant
  simp only [Writer.payload, List.append_assoc]
  refine (code_reads (PadMode.ofCode?_code mode)).bind ?_
  refine (margin_reads h.batch).bind ((margin_reads h.height).bind ?_)
  exact (margin_reads h.width).bind ((margin_reads h.channels).bind hends)

theorem avgPool_reads {p : AvgPool} {inputs : List Nat} {output : Nat} {yes : Nat → UInt32}
    (h : p.WellFormed)
    (hends : Reads (ends operands (.avgPool p)) (Writer.ends ⟨.avgPool p, inputs, output⟩)
      ⟨.avgPool p, inputs, output⟩) :
    Reads (avgPool operands) (Writer.payload yes ⟨.avgPool p, inputs, output⟩)
      ⟨.avgPool p, inputs, output⟩ := by
  have hpadding : poolPadding? (.ofNat p.padding.code) = some p.padding := by
    rw [poolPadding?, Padding.ofCode?_code, Option.filter_some, if_pos (by simpa using h.padding)]
  simp only [Writer.payload, List.append_assoc]
  refine (positive_reads _ h.strides.1 h.strides.2).bind ((code_reads hpadding).bind ?_)
  exact (positive_reads _ h.kernelSize.1 h.kernelSize.2).bind hends

/-- A side takes the first inputs and leaves the others. -/
theorem binarySide_reads (hoperands : operands < 2 ^ 31) {yes : UInt32} (hyes : yes ≠ 0)
    (side : BinarySide) (inputs : List Nat) (harity : side.arity ≤ inputs.length)
    (hinputs : ∀ i ∈ inputs, i < operands) :
    Reads (binarySide operands) (Writer.side yes inputs side).1 (side, inputs.take side.arity) ∧
      (Writer.side yes inputs side).2 = inputs.drop side.arity := by
  cases side with
  | scalar x =>
    refine ⟨(flag_reads_yes hyes).bind ?_, rfl⟩
    exact (single_reads x).bind_nil (.pure _)
  | tensor =>
    cases inputs with
    | nil => simp [BinarySide.arity] at harity
    | cons i inputs =>
      have hindex : ((i :: inputs).take 1).flatMap Writer.nat = Writer.nat i := by simp
      refine ⟨?_, rfl⟩
      simp only [Writer.side, hindex]
      refine flag_reads_no.bind ?_
      exact (operandIndex_reads hoperands (hinputs i (by simp))).bind_nil (.pure _)

theorem mathBinary_reads (hoperands : operands < 2 ^ 31) {p : MathBinary} {inputs : List Nat}
    {output : Nat} {yes : Nat → UInt32} (hyes : ∀ j, yes j ≠ 0)
    (h : Layer.WellFormed operands ⟨.mathBinary p, inputs, output⟩) :
    Reads (mathBinary operands) (Writer.payload yes ⟨.mathBinary p, inputs, output⟩)
      ⟨.mathBinary p, inputs, output⟩ := by
  have harity : inputs.length = p.left.arity + p.right.arity := h.arity
  have hothers : (inputs.drop p.left.arity).length = p.right.arity := by
    rw [List.length_drop]
    omega
  obtain ⟨hleft, hrest⟩ :=
    binarySide_reads hoperands (hyes 0) p.left inputs (by omega) h.inputs
  obtain ⟨hright, -⟩ :=
    binarySide_reads hoperands (hyes 1) p.right (inputs.drop p.left.arity) (by omega)
      fun i hi => h.inputs i (List.mem_of_mem_drop hi)
  have hall : inputs.take p.left.arity ++ (inputs.drop p.left.arity).take p.right.arity = inputs := by
    rw [← hothers, List.take_length, List.take_append_drop]
  have hsome : inputs.isEmpty = false := by simpa using h.someInput
  simp only [Writer.payload, hrest, List.append_assoc]
  refine (code_reads (BinaryOp.ofCode?_code p.op)).bind (hleft.bind (hright.bind ?_))
  simp only [hall, hsome, Bool.false_eq_true, if_false]
  exact (operandIndex_reads hoperands h.output).bind_nil (.pure _)

theorem payload_reads (hoperands : operands < 2 ^ 31) (h : l.WellFormed operands)
    {yes : Nat → UInt32} (hyes : ∀ j, yes j ≠ 0)
    (hlength : (Writer.payload yes l).length < Checked.sizeLimit) :
    Reads (payload operands l.kind) (Writer.payload yes l) l := by
  have hends : l.params.arity = 1 → Reads (ends operands l.params) (Writer.ends l) l :=
    fun hone => ends_reads hoperands (h.arity.trans hone) h.inputs h.output
  obtain ⟨params, inputs, output⟩ := l
  have hparams := h.params
  cases params with
  | identity => exact hends rfl
  | conv2d p => exact conv2d_reads hparams hyes (hends rfl) hlength
  | depthToSpace block => exact (positive_reads _ hparams.1 hparams.2).bind (hends rfl)
  | mirrorPad p => exact mirrorPad_reads hparams (hends rfl)
  | maximum value => exact (single_reads value).bind (hends rfl)
  | mathBinary p => exact mathBinary_reads hoperands hyes h
  | mathUnary op => exact (code_reads (UnaryOp.ofCode?_code op)).bind (hends rfl)
  | avgPool p => exact avgPool_reads hparams (hends rfl)
  | dense p => exact dense_reads hparams hyes (hends rfl) hlength

theorem layer_reads (hoperands : operands < 2 ^ 31) (h : l.WellFormed operands)
    {yes : Nat → UInt32} (hyes : ∀ j, yes j ≠ 0)
    (hlength : (Writer.layer yes l).length < Checked.sizeLimit) :
    Reads (layer operands) (Writer.layer yes l) l := by
  refine (code_reads (LayerKind.ofCode?_code l.kind)).bind ?_
  refine payload_reads hoperands h hyes (Nat.lt_of_le_of_lt ?_ hlength)
  simp [Writer.layer]

end Inference.Reader
