import Inference.Proofs.Frame
import Inference.Proofs.Layer.Form
import Inference.Proofs.Session.Fitting
import Inference.Proofs.Session.Reuse
/-! A probe and a request of the same size take the same path through the layers, although the probe
converts no frames. -/
namespace Inference

open Operand

/-- Layers on operands that differ in the values of equally long buffers alone: they fail at the
same layer with the same error, or not at all, and leave operands that again differ in such values
alone. -/
theorem Model.runLayers_parallel (layers : List Layer) {s t : Store}
    (h : AllSameForm s.operands t.operands) (index : Nat) :
    (runLayers layers s index).1 = (runLayers layers t index).1 ∧
      AllSameForm (runLayers layers s index).2.operands (runLayers layers t index).2.operands := by
  induction layers generalizing s t index with
  | nil => exact ⟨rfl, h⟩
  | cons layer layers ih =>
    obtain ⟨hresult, htable⟩ := layer.exec_parallel h
    simp only [runLayers]
    generalize layer.exec s = x, layer.exec t = y at hresult htable
    obtain ⟨result, s⟩ := x
    obtain ⟨result', t⟩ := y
    cases hresult
    cases result with
    | error e => exact ⟨rfl, htable⟩
    | ok => exact ih htable (index + 1)

namespace Model

variable {m : Model} {plan plan' : Plan} {frames : Frames} {frame f g : Frame} {s : Store}
  {xs : Array Operand} {name : String}

/-- What a frame is loaded into becomes the values of the input. -/
theorem fill_loads {i length : Nat} {o : Operand} {dims : Dims} {tensor : Vector Single (length / 4)}
    (hplace : m.placeInput s.operands plan.input (some f) = .ok (i, o, f, dims))
    (hlength : dims.byteLength? = some length) (hconverts : plan.converts = true)
    (hload : m.processor.load f f.height f.width dims.channels.toNatClampNeg o.dataType
      (Vector.replicate (length / 4) .zero) = .ok tensor) :
    (m.fill plan (some f) s).1 = .ok () ∧ (m.fill plan (some f) s).2.operands =
      s.operands.setIfInBounds i { o with dims, length, data := some tensor.toArray } := by
  simp only [fill, hplace, Operand.resize, hlength, Operand.allocZeroed, hconverts, if_true, hload]
  exact ⟨trivial, Array.setIfInBounds_setIfInBounds _⟩

/-- Frames of one size are placed alike. -/
theorem placeInput_resized {i : Nat} {o : Operand} {dims : Dims}
    (h : m.placeInput xs name (some f) = .ok (i, o, f, dims)) (g : Frame)
    (hwidth : f.width = g.width) (hheight : f.height = g.height) :
    m.placeInput xs name (some g) = .ok (i, o, g, dims) := by
  obtain ⟨hfill, -, hdims⟩ := placeInput_eq_ok.1 h
  refine placeInput_eq_ok.2 ⟨hfill, rfl, ?_⟩
  rw [← hdims]
  simp only [frameDims, hwidth, hheight]

/-- With their inputs filled from frames of one size, two inferences compute tables of one form. -/
theorem compute_parallel (hf : (m.fill plan (some f) s).1 = .ok ())
    (hg : (m.fill plan' (some g) s).1 = .ok ()) (hname : plan.input = plan'.input)
    (hwidth : f.width = g.width) (hheight : f.height = g.height) :
    (m.compute plan (some f) s).1 = (m.compute plan' (some g) s).1 ∧
      AllSameForm (m.compute plan (some f) s).2.operands
        (m.compute plan' (some g) s).2.operands := by
  obtain ⟨i, o, f', dims, length, values, hplace, hlength, hsize, hs⟩ := fill_ok_values hf
  obtain ⟨i', o', g', dims', length', values', hplace', hlength', hsize', hs'⟩ := fill_ok_values hg
  cases (placeInput_eq_ok.1 hplace).2.1
  cases (placeInput_eq_ok.1 hplace').2.1
  have hboth := placeInput_resized hplace g hwidth hheight
  rw [hname, hplace'] at hboth
  cases hboth
  cases hlength.symm.trans hlength'
  have hfilled : AllSameForm (m.fill plan (some f) s).2.operands
      (m.fill plan' (some g) s).2.operands := by
    rw [hs, hs']
    refine (TableRel.refl (fun _ => SameForm.refl) s.operands).set fun _ => ?_
    exact ((SameForm.refl o).redescribe o.dataType dims length).refill (hsize.trans hsize'.symm)
  unfold compute
  generalize m.fill plan (some f) s = x, m.fill plan' (some g) s = y at hf hg hfilled
  obtain ⟨_, t⟩ := x
  obtain ⟨_, t'⟩ := y
  cases hf
  cases hg
  exact runLayers_parallel m.graph.layers hfilled 0

/-- An inference computes, then hands over. -/
theorem serve_eq_compute (m : Model) (plan : Plan) (frames : Frames) (s : Store) :
    m.serve plan frames s =
      match m.compute plan frames.input s with
      | (.error e, s) => (.error e, frames, s)
      | (.ok _, s) =>
        ((m.deliverAll plan s.operands plan.outputs frames).1,
          (m.deliverAll plan s.operands plan.outputs frames).2, s) := by
  unfold serve compute infer
  rcases m.fill plan frames.input s with ⟨_ | _, t⟩
  · rfl
  · rcases runLayers m.graph.layers t with ⟨_ | _, u⟩ <;> rfl

theorem deliverAll_singleton (m : Model) (plan : Plan) (xs : Array Operand) (name : String)
    (frames : Frames) : m.deliverAll plan xs [name] frames = m.deliver plan xs name frames := by
  unfold deliverAll
  rcases m.deliver plan xs name frames with ⟨_ | _, frames⟩ <;> rfl

/-- The outputs of a model that processes frames never go into the input frame. -/
theorem deliver_input_eq (plan : Plan) (xs : Array Operand) (name : String) (frames : Frames)
    (hpurpose : m.purpose = .process) :
    (m.deliver plan xs name frames).2.input = frames.input := by
  unfold deliver
  split
  · rfl
  · cases plan.converts with
    | true =>
      simp only [resultFrame, withResultFrame, hpurpose, if_true]
      split
      · rfl
      · split <;> rfl
    | false =>
      simp only [Bool.false_eq_true, if_false]
      split <;> rfl

theorem deliver_plain_eq (hpurpose : m.purpose = .process) (hprocessor : m.processor = .plain)
    (hconverts : plan.converts = true) {o : Operand} {values : Array Single}
    (hfind : xs.find? (·.name == name) = some o) (hdata : o.data = some values)
    (houtput : frames.output = some f) :
    m.deliver plan xs name frames =
      match f.draw (o.picture values) with
      | .ok drawn => (.ok (), { frames with output := some drawn })
      | .error e => (.error (.frame e), { frames with output := some f }) := by
  have hstore : m.processor.store (o.picture values) f .process =
      match f.draw (o.picture values) with
      | .ok drawn => (.ok (), drawn)
      | .error e => (.error e, f) := by rw [hprocessor]; rfl
  unfold Operand.picture at hstore
  simp only [deliver, hfind, hconverts, if_true, Operand.values, hdata, resultFrame, hpurpose,
    houtput, withResultFrame, Shape.ofDims, hstore]
  unfold Operand.picture
  split <;> rfl

/-- The plain conversion hands a tensor over in a frame of its size. -/
theorem deliver_plain (plan : Plan) (xs : Array Operand) (name : String) (frames : Frames)
    (drawn : Frame) (hpurpose : m.purpose = .process) (hprocessor : m.processor = .plain)
    (hconverts : plan.converts = true) :
    m.deliver plan xs name frames = (.ok (), { frames with output := some drawn }) ↔
      ∃ o values frame, xs.find? (·.name == name) = some o ∧ o.data = some values ∧
        frames.output = some frame ∧ frame.draw (o.picture values) = .ok drawn := by
  constructor
  · intro h
    cases hfind : xs.find? (·.name == name) with
    | none => simp [deliver, hfind] at h
    | some o =>
      cases hdata : o.data with
      | none => simp [deliver, hfind, hconverts, Operand.values, hdata] at h
      | some values =>
        cases houtput : frames.output with
        | none =>
          simp [deliver, hfind, hconverts, Operand.values, hdata, resultFrame, hpurpose,
            houtput] at h
        | some frame =>
          rw [deliver_plain_eq hpurpose hprocessor hconverts hfind hdata houtput] at h
          refine ⟨o, values, frame, rfl, hdata, rfl, ?_⟩
          cases hdraw : frame.draw (o.picture values) with
          | error e => simp [hdraw] at h
          | ok drawn' =>
            simp only [hdraw, Prod.mk.injEq, Frames.mk.injEq, Option.some.injEq] at h
            rw [h.2.2]
  · rintro ⟨o, values, frame, hfind, hdata, houtput, hdraw⟩
    rw [deliver_plain_eq hpurpose hprocessor hconverts hfind hdata houtput, hdraw]

end Model

namespace Session

variable {m : Model} {slot : Slot} {r : Request} {input output : String} {width height : Nat}

/-- The frame of a probe. -/
def probeFrame (width height : Nat) : Frame := ⟨width, height, .grayF32, #[]⟩

/-- What the probe of an output runs on. -/
def probe (input output : String) : Plan := { input, outputs := [output], converts := false }

/-- What the layers make of a slot when a probe runs them. -/
def probed (m : Model) (slot : Slot) (input : String) (width height : Nat) (output : String) :
    Except Error Unit × Store :=
  m.compute (probe input output) (some (probeFrame width height)) ⟨slot.operands, {}⟩

theorem blankFrame_eq_ok {frame : Frame} (h : blankFrame width height = .ok frame) :
    frame = probeFrame width height := by
  unfold blankFrame at h
  cases hcount : Frame.byteCount width height .grayF32 with
  | error e => simp [hcount] at h
  | ok n =>
    simp only [hcount] at h
    split at h
    · exact (Except.ok.inj h).symm
    · cases h

/-- A frame that fits a tensor can be probed for. -/
theorem blankFrame_of_dims {dims : Dims} (hpos : dims.Positive) (hle : 4 * dims.volume ≤ 2147483647)
    (hheight : dims.height.toNatClampNeg = height) (hwidth : dims.width.toNatClampNeg = width) :
    blankFrame width height = .ok (probeFrame width height) := by
  have hchannels : PixelFormat.grayF32.channels ≤ dims.channels.toNatClampNeg :=
    toNatClampNeg_pos (hpos dims.channels (by simp [Dims.axes]))
  obtain ⟨n, -, hn, hcount⟩ := Frame.byteCount_of_dims hpos hle hchannels
  have hlt : n < Checked.offsetLimit := Nat.lt_of_le_of_lt hn (by decide)
  rw [hwidth, hheight] at hcount
  simp only [blankFrame, hcount, if_pos hlt]
  rfl

/-- A probe finds the dims that its output has after the layers. -/
theorem sizeOn_eq_ok {size : Nat × Nat} :
    sizeOn m slot input width height output = .ok size ↔
      blankFrame width height = .ok (probeFrame width height) ∧
      (probed m slot input width height output).1 = .ok () ∧
      ∃ o, (probed m slot input width height output).2.operands.find? (·.name == output) = some o ∧
        size = (o.dims.width.toNatClampNeg, o.dims.height.toNatClampNeg) := by
  unfold sizeOn getOutput
  cases hblank : blankFrame width height with
  | error e => simp
  | ok frame =>
    cases blankFrame_eq_ok hblank
    simp only [Model.measure_eq_serve, Model.serve_eq_compute, true_and]
    unfold probed probe
    rcases m.compute { input, outputs := [output], converts := false }
      (some (probeFrame width height)) ⟨slot.operands, {}⟩ with ⟨_ | _, t⟩
    · simp
    · simp only [Model.deliverAll_singleton, Model.deliver, Shape.ofDims]
      cases t.operands.find? (·.name == output) with
      | none => simp
      | some o => simp [eq_comm]

/-- A request is ready with the frame that the values of its output are drawn into. -/
theorem outcomeOn_ready_iff (hpurpose : m.purpose = .process) (hprocessor : m.processor = .plain)
    (houtputs : r.outputs = [output]) {frame drawn : Frame} :
    outcomeOn m slot r = .ok (.ready frame (some drawn)) ↔
      frame = r.frame ∧ (m.compute r.plan (some r.frame) ⟨slot.operands, {}⟩).1 = .ok () ∧
      ∃ o values blank, (m.compute r.plan (some r.frame)
        ⟨slot.operands, {}⟩).2.operands.find? (·.name == output) = some o ∧
        o.data = some values ∧ r.output = some blank ∧
        blank.draw (o.picture values) = .ok drawn := by
  cases hcheck : checkRequest m r with
  | error e =>
    rw [outcomeOn_of_not_accepted hcheck]
    have hnone : r.output = none := by
      simp only [checkRequest, houtputs] at hcheck
      split at hcheck
      next h => exact h.2
      next => cases hcheck
    simp [hnone]
  | ok =>
    rw [outcomeOn_eq hcheck, Model.serve_eq_compute]
    have hframes : r.frames.input = some r.frame := rfl
    rw [hframes]
    rcases m.compute r.plan (some r.frame) ⟨slot.operands, {}⟩ with ⟨_ | _, t⟩
    · simp [outcomeOf, hframes, Except.toBool]
    · have hplan : r.plan.outputs = [output] := houtputs
      simp only [hplan, Model.deliverAll_singleton]
      have hdeliver := Model.deliver_plain r.plan t.operands output r.frames drawn hpurpose
        hprocessor rfl
      have hinput := Model.deliver_input_eq r.plan t.operands output r.frames hpurpose
      rw [true_and]
      refine Iff.trans ?_ (and_congr_right fun _ => hdeliver)
      generalize m.deliver r.plan t.operands output r.frames = delivered at hinput
      obtain ⟨_ | _, _, found⟩ := delivered
      · cases hinput
        simp [outcomeOf, hframes, Except.toBool]
      · cases hinput
        simp [outcomeOf, hframes, Except.toBool, eq_comm]

/-- The frames of a request have the channels of the operands they go into and are drawn from, which
holds values when a probe has run its layers, and the first of them has the bytes of its size. -/
structure Suited (m : Model) (slot : Slot) (r : Request) (output : String) : Prop where
  input : ∀ o, slot.operands.find? (·.name == r.input) = some o →
    r.frame.format.channels = o.dims.channels.toNatClampNeg
  bytes : r.frame.width * r.frame.height * r.frame.format.channels *
    r.frame.format.bytesPerSample ≤ r.frame.data.size
  output : ∃ o blank, (probed m slot r.input r.frame.width r.frame.height
      output).2.operands.find? (·.name == output) = some o ∧ o.data.isSome ∧
    r.output = some blank ∧ blank.format.channels = o.dims.channels.toNatClampNeg

theorem sizeOn_of_ready (hpurpose : m.purpose = .process) (hprocessor : m.processor = .plain)
    (houtputs : r.outputs = [output]) {frame drawn : Frame}
    (hready : outcomeOn m slot r = .ok (.ready frame (some drawn))) :
    sizeOn m slot r.input r.frame.width r.frame.height output =
      .ok (drawn.width, drawn.height) := by
  obtain ⟨-, hcompute, o, values, blank, hfind, -, -, hdraw⟩ :=
    (outcomeOn_ready_iff hpurpose hprocessor houtputs).1 hready
  obtain ⟨hfill, -⟩ := Model.compute_eq_ok hcompute
  obtain ⟨i, p, dims, hplace, hpos, hle, hlength, -, hheight, hwidth, -⟩ :=
    Model.fill_ok_dims hfill
  have hprobe : (m.fill (probe r.input output) (some (probeFrame r.frame.width r.frame.height))
      ⟨slot.operands, {}⟩).1 = .ok () :=
    Model.fill_ok (Model.placeInput_resized hplace (probeFrame _ _) rfl rfl) hlength nofun
  obtain ⟨hresult, htable⟩ := Model.compute_parallel hfill hprobe rfl rfl rfl
  have hfound := htable.find?_rel (fun _ _ _ hop => hop.name) output
  rw [hfind] at hfound
  generalize hfind' : (m.compute (probe r.input output) _ _).2.operands.find? _ = x at hfound
  cases hfound with
  | @some _ q hq =>
    obtain ⟨-, -, -, -, hform⟩ := hq
    refine sizeOn_eq_ok.2 ⟨?_, hresult.symm.trans hcompute, q, hfind', ?_⟩
    · exact blankFrame_of_dims hpos hle hheight hwidth
    · obtain ⟨hw, hh⟩ := Frame.draw_size hdraw
      rw [hw, hh, ← hform.dims]
      rfl

/-- Where a probe fills its input, so does a suited request. -/
theorem Suited.fill_ok (h : Suited m slot r output) (hprocessor : m.processor = .plain)
    (hfill : (m.fill (probe r.input output) (some (probeFrame r.frame.width r.frame.height))
      ⟨slot.operands, {}⟩).1 = .ok ()) :
    (m.fill r.plan (some r.frame) ⟨slot.operands, {}⟩).1 = .ok () := by
  obtain ⟨i, p, dims, hplace, hpos, hle, hlength, hbatch, hheight, hwidth, hinput⟩ :=
    Model.fill_ok_dims hfill
  refine Model.fill_ok (Model.placeInput_resized hplace r.frame rfl rfl) hlength fun _ => ?_
  rw [hprocessor]
  obtain ⟨hfillable, -⟩ := Model.placeInput_eq_ok.1 hplace
  obtain ⟨-, hi, hp, -⟩ := Model.fillable_eq_ok.1 hfillable
  have hformat := h.input p (find?_of_findOperand? hi hp)
  rw [← hinput] at hformat
  obtain ⟨needed, hcount, hneeded, hn⟩ := Frame.byteLength_of_dims (f := r.frame) hbatch hpos hle
    hwidth.symm hheight.symm hformat
  have hbytes : 4 * dims.volume / 4 ≤ needed := by omega
  exact Frame.load_ok _ hformat hcount (hn ▸ h.bytes) hbytes

/-- Values that fill their dims can be drawn into a frame with as many channels. -/
theorem draw_of_fits {o : Operand} {blank : Frame} (hfit : o.Fits) (hdata : o.data.isSome)
    (hchannels : blank.format.channels = o.dims.channels.toNatClampNeg) :
    ∃ values drawn, o.data = some values ∧ blank.draw (o.picture values) = .ok drawn := by
  obtain ⟨values, hvalues⟩ := Option.isSome_iff_exists.1 hdata
  obtain ⟨hpos, hvolume, hle⟩ := hfit.volume hvalues
  obtain ⟨n, -, -, hcount⟩ :=
    Frame.byteCount_of_dims hpos (hvolume ▸ hle) (Nat.le_of_eq hchannels)
  obtain ⟨drawn, hdraw⟩ := Frame.draw_ok (o.picture values) hchannels hcount
  exact ⟨values, drawn, hvalues, hdraw⟩

theorem ready_of_sizeOn (hpurpose : m.purpose = .process) (hprocessor : m.processor = .plain)
    (houtputs : r.outputs = [output]) (hfit : AllFit slot.operands)
    (hsuited : Suited m slot r output) {size : Nat × Nat}
    (hsize : sizeOn m slot r.input r.frame.width r.frame.height output = .ok size) :
    ∃ drawn, outcomeOn m slot r = .ok (.ready r.frame (some drawn)) ∧
      size = (drawn.width, drawn.height) := by
  obtain ⟨-, hprobed, o, hfind, hsize⟩ := sizeOn_eq_ok.1 hsize
  obtain ⟨o', blank, hfind', hdata, houtput, hchannels⟩ := hsuited.output
  cases hfind.symm.trans hfind'
  obtain ⟨hfill, -⟩ := Model.compute_eq_ok hprobed
  have hrequest := hsuited.fill_ok hprocessor hfill
  obtain ⟨hresult, htable⟩ := Model.compute_parallel hrequest hfill rfl rfl rfl
  have hcompute := hresult.trans hprobed
  have hfits := Model.compute_fits (s := ⟨slot.operands, {}⟩) hfit hcompute
  have hfound := htable.find?_rel (fun _ _ _ hop => hop.name) output
  unfold probed at hfind
  rw [hfind] at hfound
  generalize hx : (m.compute r.plan _ _).2.operands.find? _ = x at hfound
  cases hfound with
  | @some q _ hq =>
    obtain ⟨j, -, hj, -, hform⟩ := hq
    obtain ⟨values, drawn, hvalues, hdraw⟩ := draw_of_fits (hfits.of_getElem? hj)
      (hform.isSome_eq.trans hdata) (hform.dims ▸ hchannels)
    refine ⟨drawn, ?_, ?_⟩
    · exact (outcomeOn_ready_iff hpurpose hprocessor houtputs).2
        ⟨rfl, hcompute, q, values, blank, hx, hvalues, houtput, hdraw⟩
    · obtain ⟨hw, hh⟩ := Frame.draw_size hdraw
      rw [hsize, hw, hh, ← hform.dims]
      rfl

/-- Values never decide on sizes, so a probe tells the truth. Layers on operands that differ in the
values of equally long buffers alone fail at the same layer with the same error or not at all, and
leave operands that again differ in such values alone. A request that is ready on a slot has an
output frame of the size that a probe finds on this slot; and where a probe finds a size, a request
with suitable frames is ready, with an output frame of this size. For the latter no operand of the
slot may hold values that do not fill its dims, which is so for the free slots of every session. -/
theorem probe_truthful (hpurpose : m.purpose = .process) (hprocessor : m.processor = .plain) :
    (∀ (layers : List Layer) (s t : Store), AllSameForm s.operands t.operands → ∀ index,
      (Model.runLayers layers s index).1 = (Model.runLayers layers t index).1 ∧
        AllSameForm (Model.runLayers layers s index).2.operands
          (Model.runLayers layers t index).2.operands) ∧
    (∀ slot r output frame drawn, r.outputs = [output] →
      outcomeOn m slot r = .ok (.ready frame (some drawn)) →
        sizeOn m slot r.input r.frame.width r.frame.height output =
          .ok (drawn.width, drawn.height)) ∧
    (∀ slot r output width height, r.outputs = [output] → AllFit slot.operands →
      Suited m slot r output →
      sizeOn m slot r.input r.frame.width r.frame.height output = .ok (width, height) →
        ∃ drawn, outcomeOn m slot r = .ok (.ready r.frame (some drawn)) ∧
          drawn.width = width ∧ drawn.height = height) ∧
    ∀ s, Reachable m s → ∀ slot ∈ s.free, AllFit slot.operands := by
  refine ⟨fun layers s t h index => Model.runLayers_parallel layers h index,
    fun slot r output frame drawn houtputs hready =>
      sizeOn_of_ready hpurpose hprocessor houtputs hready,
    fun slot r output width height houtputs hfit hsuited hsize => ?_,
    fun s hs slot hslot => (hs.free_empty hslot).fit⟩
  obtain ⟨drawn, hready, heq⟩ := ready_of_sizeOn hpurpose hprocessor houtputs hfit hsuited hsize
  cases heq
  exact ⟨drawn, hready, rfl, rfl⟩

/-- A column of zeros on each side of the input and a row of them below it. -/
def bordered : Model :=
  .ofGraph {
    minorVersion := 0
    layers := [⟨.mirrorPad ⟨.constant, ⟨0, 0⟩, ⟨0, 1⟩, ⟨1, 1⟩, ⟨0, 0⟩, .zero⟩, [0], 1⟩]
    operands := #[⟨"x", .input, .float, ⟨1, -1, -1, 1⟩, true, 0, none⟩,
      ⟨"y", .output, .float, ⟨-1, -1, -1, -1⟩, true, 0, none⟩] }
    .process {} .plain 1

/-- The pixel grows to three by two, which the probe says as well. -/
theorem probe_truthful_of_bordered :
    sizeOn bordered (.fresh bordered.graph.operands) "x" 1 1 "y" = .ok (3, 2) ∧
      ∃ drawn, outcomeOn bordered (.fresh bordered.graph.operands) (.ofPixel 7) =
        .ok (.ready (.pixel 7) (some drawn)) ∧ drawn.width = 3 ∧ drawn.height = 2 := by
  obtain ⟨-, hprobe, hrequest, hfree⟩ := probe_truthful (m := bordered) rfl rfl
  let drawn : Frame :=
    ⟨3, 2, .grayF32, #[0, 0, 0, 0, 7, 0, 0, 0, 0, 0, 0, 0, 0, 0, 0, 0, 0, 0, 0, 0, 0, 0, 0, 0]⟩
  have hsize : sizeOn bordered (.fresh bordered.graph.operands) "x" 1 1 "y" = .ok (3, 2) :=
    hprobe _ (.ofPixel 7) "y" (.pixel 7) drawn rfl (by decide +kernel)
  have hsuited : Suited bordered (.fresh bordered.graph.operands) (.ofPixel 7) "y" := {
    input := by
      intro o ho
      have hx : (Slot.fresh bordered.graph.operands).operands.find? (·.name == "x") =
          some ⟨"x", .input, .float, ⟨1, -1, -1, 1⟩, true, 0, none⟩ := by decide +kernel
      cases ho.symm.trans hx
      rfl
    bytes := by decide
    output := ⟨⟨"y", .output, .float, ⟨1, 2, 3, 1⟩, true, 24, some (.replicate 6 .zero)⟩, .pixel 0,
      by decide +kernel, rfl, rfl, by decide⟩ }
  have hfit := hfree _ ⟨[], rfl⟩ _ List.mem_cons_self
  exact ⟨hsize, hrequest _ (.ofPixel 7) "y" 3 2 rfl hfit hsuited hsize⟩

end Session
end Inference
