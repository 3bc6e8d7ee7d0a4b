import Inference.Proofs.Layer.Faultless
import Inference.Proofs.Layer.Image
/-! What a layer that fails leaves behind. As a rule it finds out before it writes anything, as no
layer makes a tensor that an operand cannot hold; a convolution may, as it computes its output without
a look at how long that is. Then the output operand has already taken the data type and the dims. -/
namespace Inference

namespace Layer

variable {l : Layer} {xs : Array Operand} {s : Store}

/-- The layer is a convolution of an image whose output is too long for an operand. -/
structure Floods (l : Layer) (xs : Array Operand) (p : Conv2d) (i : Image) : Prop where
  params : l.params = .conv2d p
  inRange : l.strayIndex? xs.size = none
  image : l.image xs = .ok i
  overflows : p.Overflows i

section

variable (h : l.params.WellFormed) (hsize : l.params.Addressable)

include h hsize

/-- Other tensors that layers make are no longer than an operand can hold. -/
theorem compute_writable (hfit : AllFit xs) (hcalm : ∀ p i, ¬l.Floods xs p i) :
    Ensures Tensor.Writable (l.compute xs) := by
  unfold compute
  cases hstray : l.strayIndex? xs.size with
  | some i => exact .error _
  | none =>
    have hoperand : ∀ o, l.operand xs = .ok o → o.Fits :=
      fun o ho => hfit o ((operand_faultless hstray).2 o ho)
    have himage := (image_faultless hstray hfit).2
    cases hparams : l.params with
    | identity => exact .bind fun o ho => (hoperand o ho).mapValues_writable _
    | maximum v => exact .bind fun o ho => (hoperand o ho).mapValues_writable _
    | mathUnary op => exact .bind fun o ho => (hoperand o ho).mapValues_writable _
    | conv2d p =>
      -- the only kernel whose output can outgrow its input without a check of the length
      rw [hparams] at h hsize
      refine .bind fun i hi => Conv2d.apply_writable h hsize (himage i hi) fun hover => ?_
      exact hcalm p i ⟨hparams, hstray, hi, hover⟩
    | depthToSpace b =>
      rw [hparams] at h
      exact .bind fun i hi => DepthToSpace.apply_writable h (himage i hi)
    | mirrorPad p =>
      rw [hparams] at h
      exact .bind fun _ _ => .bind fun i hi =>
        MirrorPad.apply_writable h.bounded (himage i hi).whole
    | avgPool p =>
      rw [hparams] at h
      exact .bind fun i hi => AvgPool.apply_writable h (himage i hi)
    | dense p =>
      rw [hparams] at h
      exact .bind fun i hi => Dense.apply_writable h.shaped (himage i hi).whole
    | mathBinary p =>
      refine .bind fun os hos => p.apply_writable os ?_
      refine Ensures.mapM (fun i _ o ho => ?_) os hos
      exact hfit.of_getElem? (Checked.read_eq_ok.1 (lift_eq_ok.1 ho))

/-- What is computed is then also written, so that a layer that fails fails to compute. -/
theorem exec_failure (hfit : AllFit s.operands) (hcalm : ∀ p i, ¬l.Floods s.operands p i)
    {e : KernelError} (hexec : (l.exec s).1 = .error e) : l.compute s.operands = .error e := by
  cases hcompute : l.compute s.operands with
  | error e' =>
    rw [exec_refused hcompute] at hexec
    exact congrArg _ (Except.error.inj hexec)
  | ok t =>
    obtain ⟨o, -, hok⟩ := exec_of_writable hcompute (compute_writable h hsize hfit hcalm t hcompute)
    rw [hok] at hexec
    cases hexec

theorem exec_refused_unchanged (hfit : AllFit s.operands)
    (hcalm : ∀ p i, ¬l.Floods s.operands p i) {e : KernelError} (hexec : (l.exec s).1 = .error e) :
    (l.exec s).2 = s := by
  rw [exec_refused (exec_failure h hsize hfit hcalm hexec)]

end

/-- The length is found to be too great when the data type and the dims are already there. -/
theorem Floods.exec_eq {p : Conv2d} {i : Image} (hfloods : l.Floods s.operands p i)
    (h : l.params.WellFormed) (hsize : l.params.Addressable) (hfit : AllFit s.operands) :
    ∃ o, s.operands[l.output]? = some o ∧ l.exec s = (.error (.lengthOverflow o.name),
      s.set l.output { o with
        dataType := i.dataType
        dims := (Shape.mk 1 (p.rows i) (p.columns i) p.outputNum).toDims }) := by
  obtain ⟨hparams, hstray, himage, hover⟩ := hfloods
  rw [hparams] at h hsize
  have hi := (image_faultless hstray hfit).2 i himage
  have hcompute : l.compute s.operands = .ok (p.result i) := by
    unfold compute
    rw [hstray, hparams]
    exact bind_eq_ok.2 ⟨i, himage,
      hover.apply_eq h hsize hi.whole hi.size_lt (Conv2d.room_of_wellFormed h hi)⟩
  have hlength := hover.byteLength?_eq h hi.whole
  have hsizes := Shape.oversized?_eq_none (Conv2d.isSize_rows hi.whole hover.height)
    (Conv2d.isSize_columns hi.whole hover.width) h.outputNum
  have hlt := (strayIndex?_eq_none_iff.1 hstray).2
  refine ⟨_, Array.getElem?_eq_getElem hlt, ?_⟩
  rw [Layer.exec_eq, hcompute]
  exact (Store.Writes.overlong hsizes (Array.getElem?_eq_getElem hlt) hlength).eq

/-- A layer from a model file, on operands whose values fill their dims: if it fails, then nothing has
changed, unless it is a convolution whose output is too long. That one fails for the length, and of
the output operand its data type and its dims are changed, and nothing else. -/
theorem exec_refusal (h : l.params.WellFormed) (hsize : l.params.Addressable)
    (hfit : AllFit s.operands) :
    ((∀ p i, ¬l.Floods s.operands p i) → ∀ e, (l.exec s).1 = .error e → (l.exec s).2 = s) ∧
    ∀ p i, l.Floods s.operands p i → ∃ o, s.operands[l.output]? = some o ∧
      l.exec s = (.error (.lengthOverflow o.name), s.set l.output { o with
        dataType := i.dataType
        dims := (Shape.mk 1 (p.rows i) (p.columns i) p.outputNum).toDims }) :=
  ⟨fun hcalm _ => exec_refused_unchanged h hsize hfit hcalm,
    fun _ _ hfloods => hfloods.exec_eq h hsize hfit⟩

/-- One filter more than there is room for over `plain`. -/
def flood : Conv2d where
  inputNum := 1
  outputNum := 32769
  kernelSize := 1
  dilation := 1
  padding := .same
  activation := .linear
  kernel := .replicate 32769 .zero
  biases := none

def plain : Image := ⟨128, 128, 1, .float, .replicate 16384 .zero⟩

def plainInput : Operand where
  name := "x"
  kind := .input
  dataType := .float
  dims := ⟨1, 128, 128, 1⟩
  length := 65536
  data := some plain.values

def plainOutput : Operand where
  name := "y"
  kind := .output
  dataType := .float
  dims := ⟨-1, -1, -1, -1⟩

def plainStore : Store where
  operands := #[plainInput, plainOutput]

theorem plain_size : plain.values.size = 16384 := Array.size_replicate

theorem flood_wellFormed : flood.WellFormed :=
  ⟨by decide, by decide, by decide, by decide, Array.size_replicate, nofun⟩

theorem flood_addressable : flood.kernel.size < Checked.sizeLimit :=
  Array.size_replicate.trans_lt (by decide)

theorem plainStore_fits : AllFit plainStore.operands := by
  intro o ho
  obtain rfl | rfl : o = plainInput ∨ o = plainOutput := by simpa [plainStore] using ho
  · rintro values ⟨⟩
    exact ⟨by decide, congrArg (4 * ·) plain_size⟩
  · exact .of_empty rfl

theorem flood_floods : (Layer.mk (.conv2d flood) [0] 1).Floods plainStore.operands flood plain := by
  have hwhole : plain.Whole :=
    ⟨by decide, by decide, by decide, plain_size⟩
  have hcount : plain.values.size < Checked.sizeLimit := plain_size.trans_lt (by decide)
  have hx : plainStore.operands[0]? = some plainInput := rfl
  exact ⟨rfl, strayIndex?_single _ hx (by decide),
    image_single _ hx ⟨rfl, rfl, rfl⟩ hwhole hcount, rfl, by decide, by decide, by decide⟩

theorem exec_flood : ∃ o, plainStore.operands[1]? = some o ∧
    (Layer.mk (.conv2d flood) [0] 1).exec plainStore = (.error (.lengthOverflow o.name),
      plainStore.set 1 { o with dataType := .float, dims := ⟨1, 128, 128, 32769⟩ }) :=
  (exec_refusal (l := .mk (.conv2d flood) [0] 1) flood_wellFormed flood_addressable
    plainStore_fits).2 flood plain flood_floods

/-- A layer may fail and leave other dims behind. -/
theorem exec_flood_changes : ∃ (l : Layer) (s : Store) (e : KernelError), l.params.WellFormed ∧
    l.params.Addressable ∧ AllFit s.operands ∧ (l.exec s).1 = .error e ∧ (l.exec s).2 ≠ s := by
  obtain ⟨o, ho, hexec⟩ := flood_floods.exec_eq flood_wellFormed flood_addressable plainStore_fits
  obtain rfl : plainOutput = o := Option.some.inj ho
  refine ⟨.mk (.conv2d flood) [0] 1, plainStore, .lengthOverflow "y", flood_wellFormed,
    flood_addressable, plainStore_fits, congrArg Prod.fst hexec, fun hsame => ?_⟩
  rw [hexec] at hsame
  have hdims := congrArg (fun s : Store => s.operands[1]?.map (·.dims)) hsame
  revert hdims
  decide

end Layer

end Inference
