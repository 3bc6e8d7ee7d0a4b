import Inference.Proofs.ModelFile.Taking
/-! What is taken for a layer is a record of that layer, and the layer is well-formed. -/
namespace Inference.Reader

open ModelFile (Writer.nat Writer.singles Writer.biases Writer.margin Writer.ends Writer.side
  Writer.payload Writer.layer Writer.layers)

variable {operands : Nat}

/-- The bytes are what a writer puts down for the layer behind its kind. -/
def Spells (operands : Nat) (kind : LayerKind) (l : Layer) (bs : List UInt8) : Prop :=
  l.kind = kind ∧ l.WellFormed operands ∧ l.params.Addressable ∧
    ∃ yes : Nat → UInt32, (∀ j, yes j ≠ 0) ∧ bs = Writer.payload yes l

theorem ends_takes {params : LayerParams} (harity : params.arity = 1)
    (hparams : params.WellFormed) : Takes (ends operands params) fun l bs =>
      l.params = params ∧ l.WellFormed operands ∧ bs = Writer.ends l := by
  refine (operandIndex_takes operands).bind fun i bs ⟨hi, hinput⟩ => ?_
  refine (operandIndex_takes operands).bind fun o cs ⟨ho, houtput⟩ => .pure ⟨rfl, ?_, ?_⟩
  · refine ⟨harity.symm, by simp, ?_, ho, hparams⟩
    intro j hj
    rw [List.mem_singleton.1 hj]
    exact hi
  · simp [Writer.ends, hinput, houtput]

theorem kernel_takes (kind : LayerKind) (count : Nat) :
    Takes (kernel kind count) fun xs bs =>
      xs.size = count ∧ count < Checked.sizeLimit ∧ bs = Writer.singles xs :=
  .check fun hsize => (singles_takes count).mono fun _ _ ⟨hxs, hbs⟩ =>
    ⟨hxs, Nat.lt_of_not_le hsize, hbs⟩

/-- The weights of a layer come with a flag for its biases before and the biases behind them. -/
theorem weights_takes (kind : LayerKind) (size count : Nat) {α : Type}
    {next : Array Single → Option (Array Single) → Reader α} {R : α → List UInt8 → Prop}
    (hnext : ∀ weights biases (yes : UInt32), yes ≠ 0 → weights.size = size →
      size < Checked.sizeLimit → (∀ xs ∈ biases, xs.size = count) → Takes (next weights biases) fun a cs =>
        R a ((Writer.biases yes biases).1 ++ (Writer.singles weights ++
          ((Writer.biases yes biases).2 ++ cs)))) :
    Takes (do
      let biased ← flag
      let weights ← kernel kind size
      let biases ← Reader.biases biased count
      next weights biases) R := by
  refine flag_takes.bind fun biased bs hflag => ?_
  refine (kernel_takes kind size).bind fun weights _ ⟨hsize, hlimit, hweights⟩ => ?_
  subst hweights
  cases biased with
  | true =>
    obtain ⟨yes, hyes, rfl⟩ := hflag
    have hbiases : Takes (Reader.biases true count) fun biases cs =>
        ∃ xs, biases = some xs ∧ xs.size = count ∧ cs = Writer.singles xs := by
      refine (singles_takes count).bind fun xs cs ⟨hxs, hcs⟩ => .pure ⟨xs, rfl, hxs, ?_⟩
      rw [List.append_nil, hcs]
    refine hbiases.bind fun _ _ ⟨xs, hsome, hxs, hcs⟩ => ?_
    subst hsome hcs
    refine hnext weights (some xs) yes hyes hsize hlimit ?_
    intro xs' hxs'
    cases hxs'
    exact hxs
  | false =>
    obtain rfl : bs = Writer.nat 0 := hflag
    have hnone : Takes (Reader.biases false count) fun biases cs => biases = none ∧ cs = [] :=
      .pure ⟨rfl, rfl⟩
    refine hnone.bind fun _ _ ⟨hbiases, hcs⟩ => ?_
    subst hbiases hcs
    exact hnext weights none 1 (by decide) hsize hlimit nofun

/-- The record of a layer of which the parameters have been taken ends with its operands. -/
theorem ends_spells {params : LayerParams} {taken : List UInt8} (yes : UInt32) (hyes : yes ≠ 0)
    (harity : params.arity = 1) (hparams : params.WellFormed) (hlimit : params.Addressable)
    (hpayload : ∀ inputs output, Writer.payload (fun _ => yes) ⟨params, inputs, output⟩ =
      taken ++ Writer.ends ⟨params, inputs, output⟩) :
    Takes (ends operands params) fun l bs => Spells operands params.kind l (taken ++ bs) := by
  refine (ends_takes harity hparams).mono fun l bs ⟨hsame, hl, hends⟩ => ?_
  obtain ⟨_, inputs, output⟩ := l
  subst hsame hends
  exact ⟨rfl, hl, hlimit, fun _ => yes, fun _ => hyes, (hpayload inputs output).symm⟩

theorem conv2d_takes : Takes (conv2d operands) (Spells operands .conv2d) := by
  refine (positive_takes _).bind fun dilation _ ⟨hdilation, hbs⟩ => ?_
  subst hbs
  refine (code_takes Padding.code fun _ _ => eq_ofNat_of_find?).bind fun padding _ ⟨_, hbs⟩ => ?_
  subst hbs
  refine (code_takes Activation.code fun _ _ => eq_ofNat_of_find?).bind
    fun activation _ ⟨_, hbs⟩ => ?_
  subst hbs
  refine (positive_takes _).bind fun inputNum _ ⟨hinputNum, hbs⟩ => ?_
  subst hbs
  refine (positive_takes _).bind fun outputNum _ ⟨houtputNum, hbs⟩ => ?_
  subst hbs
  refine (positive_takes _).bind fun kernelSize _ ⟨hkernelSize, hbs⟩ => ?_
  subst hbs
  refine weights_takes .conv2d _ _ fun weights biases yes hyes hweights hlimit hbiases => ?_
  have hparams : LayerParams.WellFormed (.conv2d
      ⟨inputNum, outputNum, kernelSize, dilation, padding, activation, weights, biases⟩) :=
    ⟨hinputNum, houtputNum, hkernelSize, hdilation, hweights, hbiases⟩
  have hcounted : weights.size < Checked.sizeLimit := by
    rw [hweights]
    exact hlimit
  simp only [← List.append_assoc]
  exact ends_spells yes hyes rfl hparams hcounted fun inputs output => rfl

theorem dense_takes : Takes (dense operands) (Spells operands .dense) := by
  refine (code_takes Activation.code fun _ _ => eq_ofNat_of_find?).bind
    fun activation _ ⟨_, hbs⟩ => ?_
  subst hbs
  refine (positive_takes _).bind fun inputNum _ ⟨hinputNum, hbs⟩ => ?_
  subst hbs
  refine (positive_takes _).bind fun outputNum _ ⟨houtputNum, hbs⟩ => ?_
  subst hbs
  refine weights_takes .dense _ _ fun weights biases yes hyes hweights _ hbiases => ?_
  have hparams : LayerParams.WellFormed
      (.dense ⟨inputNum, outputNum, activation, weights, biases⟩) :=
    ⟨hinputNum, houtputNum, hweights, hbiases⟩
  simp only [← List.append_assoc]
  exact ends_spells yes hyes rfl hparams trivial fun inputs output => rfl

theorem depthToSpace_takes : Takes (depthToSpace operands) (Spells operands .depthToSpace) := by
  refine (positive_takes _).bind fun block _ ⟨hblock, hbs⟩ => ?_
  subst hbs
  exact ends_spells 1 (by decide) rfl hblock trivial fun inputs output => rfl

theorem margin_takes : Takes margin fun m bs => m.WellFormed ∧ bs = Writer.margin m := by
  refine (count_takes _).bind fun before _ ⟨hbefore, hbs⟩ => ?_
  subst hbs
  refine (count_takes _).bind fun after _ ⟨hafter, hbs⟩ => .pure ?_
  subst hbs
  exact ⟨⟨hbefore, hafter⟩, by simp [Writer.margin]⟩

theorem mirrorPad_takes : Takes (mirrorPad operands) (Spells operands .mirrorPad) := by
  refine (code_takes PadMode.code fun _ _ => eq_ofNat_of_find?).bind fun mode _ ⟨_, hbs⟩ => ?_
  subst hbs
  refine margin_takes.bind fun batch _ ⟨hbatch, hbs⟩ => ?_
  subst hbs
  refine margin_takes.bind fun height _ ⟨hheight, hbs⟩ => ?_
  subst hbs
  refine margin_takes.bind fun width _ ⟨hwidth, hbs⟩ => ?_
  subst hbs
  refine margin_takes.bind fun channels _ ⟨hchannels, hbs⟩ => ?_
  subst hbs
  have hparams :
      LayerParams.WellFormed (.mirrorPad ⟨mode, batch, height, width, channels, .zero⟩) :=
    ⟨hbatch, hheight, hwidth, hchannels, rfl⟩
  simp only [← List.append_assoc]
  exact ends_spells 1 (by decide) rfl hparams trivial fun inputs output => rfl

theorem maximum_takes : Takes (maximum operands) (Spells operands .maximum) := by
  refine single_takes.bind fun value _ hbs => ?_
  subst hbs
  exact ends_spells 1 (by decide) rfl trivial trivial fun inputs output => rfl

theorem mathUnary_takes : Takes (mathUnary operands) (Spells operands .mathUnary) := by
  refine (code_takes UnaryOp.code fun _ _ => eq_ofNat_of_find?).bind fun op _ ⟨_, hbs⟩ => ?_
  subst hbs
  exact ends_spells 1 (by decide) rfl trivial trivial fun inputs output => rfl

theorem poolPadding?_eq_some {i : Int32} {p : Padding} (h : poolPadding? i = some p) :
    i = .ofNat p.code ∧ p ≠ .sameClampToEdge := by
  obtain ⟨hcode, hpool⟩ := Option.filter_eq_some_iff.1 h
  exact ⟨eq_ofNat_of_find? hcode, by simpa using hpool⟩

theorem avgPool_takes : Takes (avgPool operands) (Spells operands .avgPool) := by
  refine (positive_takes _).bind fun strides _ ⟨hstrides, hbs⟩ => ?_
  subst hbs
  refine (code_takes Padding.code fun _ _ h => (poolPadding?_eq_some h).1).bind
    fun padding _ ⟨⟨_, hpadding⟩, hbs⟩ => ?_
  subst hbs
  refine (positive_takes _).bind fun kernelSize _ ⟨hkernelSize, hbs⟩ => ?_
  subst hbs
  have hparams : LayerParams.WellFormed (.avgPool ⟨strides, padding, kernelSize⟩) :=
    ⟨hstrides, hkernelSize, (poolPadding?_eq_some hpadding).2⟩
  simp only [← List.append_assoc]
  exact ends_spells 1 (by decide) rfl hparams trivial fun inputs output => rfl

/-- A side takes its operands, and what a writer puts down for it leaves the others. -/
theorem binarySide_takes : Takes (binarySide operands) fun side bs =>
    side.2.length = side.1.arity ∧ (∀ i ∈ side.2, i < operands) ∧ ∃ yes : UInt32, yes ≠ 0 ∧
      ∀ others, Writer.side yes (side.2 ++ others) side.1 = (bs, others) := by
  refine flag_takes.bind fun scalar bs hflag => ?_
  cases scalar with
  | true =>
    obtain ⟨yes, hyes, rfl⟩ := hflag
    refine single_takes.bind fun x _ hbs => .pure ?_
    subst hbs
    refine ⟨rfl, nofun, yes, hyes, fun others => ?_⟩
    simp [Writer.side]
  | false =>
    obtain rfl : bs = Writer.nat 0 := hflag
    refine (operandIndex_takes operands).bind fun i _ ⟨hi, hbs⟩ => .pure ?_
    subst hbs
    refine ⟨rfl, ?_, 1, by decide, fun others => ?_⟩
    · intro j hj
      rw [List.mem_singleton.1 hj]
      exact hi
    · simp [Writer.side]

theorem mathBinary_takes : Takes (mathBinary operands) (Spells operands .mathBinary) := by
  refine (code_takes BinaryOp.code fun _ _ => eq_ofNat_of_find?).bind fun op _ ⟨_, hbs⟩ => ?_
  subst hbs
  refine binarySide_takes.bind fun left lefts ⟨hleft, hlefts, yes, hyes, hwritten⟩ => ?_
  refine binarySide_takes.bind fun right rights ⟨hright, hrights, yes', hyes', hwritten'⟩ => ?_
  obtain ⟨left, leftInputs⟩ := left
  obtain ⟨right, rightInputs⟩ := right
  refine .check fun hsome => ?_
  refine (operandIndex_takes operands).bind fun output _ ⟨houtput, hbs⟩ => .pure ?_
  subst hbs
  have hl : Layer.WellFormed operands
      ⟨.mathBinary ⟨op, left, right⟩, leftInputs ++ rightInputs, output⟩ := by
    refine ⟨?_, by simpa using hsome, ?_, houtput, trivial⟩
    · rw [List.length_append, hleft, hright]
      rfl
    · intro i hi
      rcases List.mem_append.1 hi with hi | hi
      · exact hlefts i hi
      · exact hrights i hi
  refine ⟨rfl, hl, trivial, fun j => if j = 0 then yes else yes', ?_, ?_⟩
  · intro j
    by_cases hj : j = 0
    · simpa [hj] using hyes
    · simpa [hj] using hyes'
  · have hother := hwritten' []
    rw [List.append_nil] at hother
    simp only [Writer.payload, if_true, hwritten, Nat.one_ne_zero, if_false, hother]
    simp

theorem payload_takes (kind : LayerKind) :
    Takes (payload operands kind) (Spells operands kind) := by
  cases kind with
  | identity =>
    have hends :
        Takes (ends operands .identity) fun l bs => Spells operands .identity l ([] ++ bs) :=
      ends_spells 1 (by decide) rfl trivial trivial fun inputs output => rfl
    exact hends
  | conv2d => exact conv2d_takes
  | depthToSpace => exact depthToSpace_takes
  | mirrorPad => exact mirrorPad_takes
  | maximum => exact maximum_takes
  | mathBinary => exact mathBinary_takes
  | mathUnary => exact mathUnary_takes
  | avgPool => exact avgPool_takes
  | dense => exact dense_takes

theorem layer_takes : Takes (layer operands) fun l bs =>
    (l.WellFormed operands ∧ l.params.Addressable) ∧
    ∃ yes : Nat → UInt32, (∀ j, yes j ≠ 0) ∧ bs = Writer.layer yes l := by
  refine (code_takes LayerKind.code fun _ _ => eq_ofNat_of_find?).bind fun kind _ ⟨_, hbs⟩ => ?_
  subst hbs
  refine (payload_takes kind).mono fun l _ ⟨hkind, hl, hlimit, yes, hyes, hbs⟩ => ?_
  subst hkind hbs
  exact ⟨⟨hl, hlimit⟩, yes, hyes, rfl⟩

/-- Writing layers looks at the words for yes from their index on. -/
theorem layers_congr {f g : Nat → Nat → UInt32} {index : Nat} (h : ∀ i, index ≤ i → f i = g i)
    (ls : List Layer) : Writer.layers f index ls = Writer.layers g index ls := by
  induction ls generalizing index with
  | nil => rfl
  | cons l ls ih =>
    rw [Writer.layers, Writer.layers, h index (Nat.le_refl index),
      ih fun i hi => h i (Nat.le_of_succ_le hi)]

theorem layers_takes (count index : Nat) : Takes (times count (layer operands)) fun ls bs =>
    ls.length = count ∧ (∀ l ∈ ls, l.WellFormed operands ∧ l.params.Addressable) ∧
      ∃ yes : Nat → Nat → UInt32, (∀ i j, yes i j ≠ 0) ∧ bs = Writer.layers yes index ls := by
  have hsteps : (List.range count).length = count := List.length_range
  unfold times
  generalize List.range count = steps at hsteps
  induction steps generalizing count index with
  | nil =>
    rw [List.mapM_nil]
    exact .pure ⟨hsteps, nofun, fun _ _ => 1, fun _ _ => (by decide : (1 : UInt32) ≠ 0), rfl⟩
  | cons step steps ih =>
    rw [List.mapM_cons]
    refine layer_takes.bind fun l _ ⟨hl, yes, hyes, hbs⟩ => ?_
    subst hbs
    refine (ih steps.length (index + 1) rfl).bind
      fun ls _ ⟨hcount, hls, yeses, hyeses, hbs⟩ => .pure ?_
    subst hbs
    refine ⟨by simpa [hcount] using hsteps, ?_, fun i => if i = index then yes else yeses i, ?_, ?_⟩
    · intro l' hl'
      rcases List.mem_cons.1 hl' with rfl | hl'
      · exact hl
      · exact hls l' hl'
    · intro i
      by_cases hi : i = index
      · simpa [hi] using hyes
      · simpa [hi] using hyeses i
    · have hothers : ∀ i, index + 1 ≤ i → (if i = index then yes else yeses i) = yeses i := by
        intro i hi
        rw [if_neg (by omega)]
      rw [Writer.layers, layers_congr hothers, if_pos rfl, List.append_nil]

end Inference.Reader
