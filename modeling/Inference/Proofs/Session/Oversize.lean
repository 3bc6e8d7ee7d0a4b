import Inference.Proofs.Session.Custody
import Inference.Proofs.Session.Exhaustion
import Inference.Proofs.Session.Faultless
import Inference.Proofs.Session.Probing
/-! Probes of any size: the frames of a probe are there as long as 63 bits hold the number of their
bytes. Those that are too large for a tensor are told from there on, and the slot is put back. -/
namespace Inference

/-- Why an operand cannot take the image of a frame of a size, if it cannot. -/
def Operand.sizeError? (o : Operand) (width height : Nat) : Option Error :=
  let count := height * width * o.dims.channels.toNatClampNeg
  if 2147483647 < height then some (.badArgument (.frameHeight height))
  else if 2147483647 < width then some (.badArgument (.frameWidth width))
  else if 0 < count ∧ 4 * count ≤ 2147483647 then none
  else some (.lengthOverflow o.name)

namespace Model

variable {m : Model} {plan : Plan} {f : Frame} {frames : Frames} {s : Store} {o : Operand} {i : Nat}

/-- The byte length of the dims of a frame, if they are those of a tensor. -/
theorem frameDims_byteLength? {channels : Int32} {dims : Dims}
    (h : frameDims f channels = .ok dims) : dims.byteLength? =
      if 0 < f.height * f.width * channels.toNatClampNeg ∧
          4 * (f.height * f.width * channels.toNatClampNeg) ≤ 2147483647 then
        some (4 * (f.height * f.width * channels.toNatClampNeg))
      else none := by
  obtain ⟨hbatch, hheight, hwidth, hchannels⟩ := frameDims_eq_ok h
  have hvolume : dims.volume = f.height * f.width * channels.toNatClampNeg := by
    rw [Dims.volume_of_batch hbatch, hheight, hwidth, hchannels]
  simp only [Dims.byteLength?_eq, Dims.positive_iff, hvolume]

theorem fill_refused {e : Error} (h : m.fillable s.operands plan.input = .error e) :
    (m.fill plan (some f) s).1 = .error e := by
  simp only [fill, placeInput, h, bind, Except.bind]

/-- Where only sizes go through, an input that can be filled at all is filled unless the size of the
frame keeps it from that. -/
theorem fill_sized (hconverts : plan.converts = false)
    (hfillable : m.fillable s.operands plan.input = .ok (i, o)) :
    (m.fill plan (some f) s).1 = (o.sizeError? f.width f.height).elim (.ok ()) .error := by
  have hplace : ∀ dims, frameDims f o.dims.channels = .ok dims →
      m.placeInput s.operands plan.input (some f) = .ok (i, o, f, dims) :=
    fun dims hdims => placeInput_eq_ok.2 ⟨hfillable, rfl, hdims⟩
  have hrefused : ∀ e, frameDims f o.dims.channels = .error e →
      (m.fill plan (some f) s).1 = .error e := by
    intro e hdims
    simp only [fill, placeInput, hfillable, hdims, bind, Except.bind]
  unfold Operand.sizeError?
  by_cases hheight : 2147483647 < f.height
  · rw [if_pos hheight]
    exact hrefused _ (if_pos hheight)
  · by_cases hwidth : 2147483647 < f.width
    · rw [if_neg hheight, if_pos hwidth]
      exact hrefused _ ((if_neg hheight).trans (if_pos hwidth))
    · have hdims : frameDims f o.dims.channels =
          .ok ⟨1, .ofNat f.height, .ofNat f.width, o.dims.channels⟩ :=
        frameDims_eq (by omega) (by omega)
      have hlength := frameDims_byteLength? hdims
      rw [if_neg hheight, if_neg hwidth]
      split at hlength
      next hfits =>
        rw [if_pos hfits]
        refine fill_ok (hplace _ hdims) hlength fun h => ?_
        exact absurd (hconverts.symm.trans h) Bool.false_ne_true
      next hfits =>
        rw [if_neg hfits]
        simp only [fill, hplace _ hdims, Operand.resize, hlength, Option.elim_some]

end Model

namespace Session

variable {m : Model} {s : Session} {input output : String} {width height : Nat}

/-- What is measured on a slot for frames of a size. -/
def measured (m : Model) (input : String) (width height : Nat) (output : String) (s : Session)
    (slot : Slot) : Except Error (Nat × Nat) × Store :=
  measure m (probe input output) (probeFrame width height) ⟨slot.operands, s.ledger⟩

theorem getOutput_of_free {slot : Slot} {free : List Slot} (hwidth : width < Checked.sizeLimit)
    (hbytes : 4 * (width * height) < Checked.offsetLimit) (hfree : s.free = slot :: free) :
    s.getOutput m input width height output =
      ((s.measured m input width height output slot).1,
        { s with free, ledger := (s.measured m input width height output slot).2.ledger }.release
          { slot with operands := (s.measured m input width height output slot).2.operands }) := by
  unfold getOutput
  rw [blankFrame_eq hwidth, if_pos hbytes, hfree]
  rfl

/-- How the size of an output is told for frames that there can be. -/
structure TellsSize (m : Model) (s : Session) (input : String) (width height : Nat)
    (output : String) : Prop where
  /-- The bytes of a frame are counted without overflow. -/
  bytes : Frame.byteCount width height .grayF32 = .ok (4 * (width * height))
  faultless : Faultless (s.getOutput m input width height output).1
  /-- The slot is put back, whatever is told. -/
  returned : ∀ slot free, s.free = slot :: free → ∃ back ledger, back.Vacant ∧
    (s.getOutput m input width height output).2 = { s with free := free ++ [back], ledger }
  /-- A name that no frame can be put under. -/
  refused : ∀ slot ∈ s.free.head?, ∀ e, m.fillable slot.operands input = .error e →
    (s.getOutput m input width height output).1 = .error e
  /-- A frame of which the input cannot take the image. -/
  oversized : ∀ slot ∈ s.free.head?, ∀ i o, m.fillable slot.operands input = .ok (i, o) →
    ∀ e, o.sizeError? width height = some e →
      (s.getOutput m input width height output).1 = .error e
  /-- The image of any other frame is taken. -/
  fitting : ∀ slot ∈ s.free.head?, ∀ i o, m.fillable slot.operands input = .ok (i, o) →
    o.sizeError? width height = none →
      (m.fill (probe input output) (some (probeFrame width height))
        ⟨slot.operands, s.ledger⟩).1 = .ok ()

/-- What is measured on a slot at rest is told, and nothing impossible is asked for on the way. -/
theorem TellsSize.of_lt (hsound : m.Sound) (hempty : ∀ slot ∈ s.free, AllEmpty slot.operands)
    (hwidth : width < Checked.sizeLimit) (hbytes : 4 * (width * height) < Checked.offsetLimit)
    (input output : String) : TellsSize m s input width height output := by
  have hanswer : ∀ slot ∈ s.free.head?, (s.getOutput m input width height output).1 =
      (s.measured m input width height output slot).1 := by
    intro slot hslot
    obtain ⟨free, hfree⟩ := List.head?_eq_some_iff.1 hslot
    rw [getOutput_of_free hwidth hbytes hfree]
  have hunfilled : ∀ slot ∈ s.free.head?, ∀ e,
      (m.fill (probe input output) (some (probeFrame width height))
        ⟨slot.operands, s.ledger⟩).1 = .error e →
      (s.getOutput m input width height output).1 = .error e := by
    intro slot hslot e he
    rw [hanswer slot hslot]
    exact Model.measure_of_fill_error he
  have hsized : ∀ (slot : Slot) i o, m.fillable slot.operands input = .ok (i, o) →
      (m.fill (probe input output) (some (probeFrame width height))
        ⟨slot.operands, s.ledger⟩).1 = (o.sizeError? width height).elim (.ok ()) .error := by
    intro slot i o hfillable
    exact Model.fill_sized rfl hfillable
  constructor
  case bytes =>
    have hlimits : Checked.offsetLimit < Checked.sizeLimit := by decide
    rw [byteCount_grayF32 hwidth, Checked.size, if_pos (by omega)]
  case faultless =>
    have hsizes : (probe input output).converts = true → m.processor = .plain :=
      fun h => absurd h Bool.false_ne_true
    cases hfree : s.free with
    | nil =>
      rw [getOutput_of_exhausted hwidth hbytes hfree]
      exact .error not_false
    | cons slot free =>
      rw [hanswer slot (by simp [hfree])]
      exact Model.measure_faultless hsizes hsound (hempty slot (by simp [hfree])).fit _
  case returned =>
    intro slot free hfree
    rw [getOutput_of_free hwidth hbytes hfree]
    exact ⟨_, _, Slot.vacant_reset _, rfl⟩
  case refused =>
    intro slot hslot e he
    exact hunfilled slot hslot e (Model.fill_refused he)
  case oversized =>
    intro slot hslot i o hfillable e he
    refine hunfilled slot hslot e ?_
    rw [hsized slot i o hfillable, he, Option.elim_some]
  case fitting =>
    intro slot _ i o hfillable hnone
    rw [hsized slot i o hfillable, hnone, Option.elim_none]

/-- A model that is read from a file, in whatever state its session is, tells the size of an output,
or an error, for all frames whose bytes a 63-bit size can count. For larger ones it has no answer. -/
theorem size_told {file : List UInt8} (hfile : ModelFile.parse file = .ok m.graph)
    (hs : Reachable m s) (hwidth : width < Checked.sizeLimit) (height : Nat)
    (input output : String) :
    (4 * (width * height) < Checked.offsetLimit → TellsSize m s input width height output) ∧
      (Checked.offsetLimit ≤ 4 * (width * height) →
        s.getOutput m input width height output = (.error (.fault .overflow), s)) := by
  refine ⟨fun hbytes => ?_, fun hbytes => getOutput_of_too_large hwidth hbytes input output⟩
  have hempty : ∀ slot ∈ s.free, AllEmpty slot.operands := fun _ => hs.free_empty
  exact .of_lt (Model.sound_of_parse hfile) hempty hwidth hbytes input output

/-- A frame that there can be, and that is too large for the input. -/
theorem size_told_of_affine :
    ModelFile.parse ModelFile.affineFile = .ok affine.graph ∧ Reachable affine (start affine) ∧
      65536 < Checked.sizeLimit ∧ TellsSize affine (start affine) "x\ufffd" 65536 65536 "y" ∧
      ((start affine).getOutput affine "x\ufffd" 65536 65536 "y").1 =
        .error (.lengthOverflow "x\ufffd") := by
  have hfile : ModelFile.parse ModelFile.affineFile = .ok affine.graph := by decide +kernel
  have hs : Reachable affine (start affine) := ⟨[], rfl⟩
  have hwidth : 65536 < Checked.sizeLimit := by decide
  have htold : TellsSize affine (start affine) "x\ufffd" 65536 65536 "y" :=
    (size_told hfile hs hwidth 65536 _ _).1 (by decide)
  let x : Operand :=
    { name := "x\ufffd", kind := .input, dataType := .float, dims := ⟨1, -1, -1, 1⟩ }
  have hslot : Slot.fresh affine.graph.operands ∈ (start affine).free.head? := rfl
  have hfillable : affine.fillable (Slot.fresh affine.graph.operands).operands "x\ufffd" =
      .ok (0, x) := by decide +kernel
  exact ⟨hfile, hs, hwidth, htold, htold.oversized _ hslot 0 x hfillable _ rfl⟩

/-- A width that is a 64-bit number, and a frame with more bytes than there can be. -/
theorem size_not_told_of_affine :
    ModelFile.parse ModelFile.affineFile = .ok affine.graph ∧ 2 ^ 61 < Checked.sizeLimit ∧
      ¬Faultless ((start affine).getOutput affine "x\ufffd" (2 ^ 61) 1 "y").1 := by
  have hwidth : 2 ^ 61 < Checked.sizeLimit := by decide
  refine ⟨by decide +kernel, hwidth, fun hfaultless => ?_⟩
  rw [getOutput_of_too_large hwidth (by decide)] at hfaultless
  exact hfaultless _ rfl trivial

end Session
end Inference
