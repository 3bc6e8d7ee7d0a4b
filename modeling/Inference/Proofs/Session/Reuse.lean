import Inference.Proofs.Session.Schedule
import Inference.Proofs.Word
/-! What a used slot does and does not show of its past. Filling takes the type and channel count of
the input from the slot, and a probe takes the dims of its output from there; nothing else is. -/
namespace Inference

open Operand

namespace Model

variable {m : Model} {s : Store} {plan : Plan} {frame : Option Frame} {xs : Array Operand}

/-- What holds of the slots and tasks of any model. -/
def anyway (m : Model) : Warrant m := SlotWarrant.warrant {
  Free := m.Idle
  Filled _ := m.Kept
  fresh := m.idle_fresh
  again := @m.idle_emptied
  fill_ok hfree _ := hfree.1.fill _ _
  fill_error hfree _ := (hfree.1.fill _ _).idle
  infer {r} _ hkept := (hkept.infer r.frames).idle
  measure := @m.idle_measure }

/-- An output whose dims a probe finds as on a fresh slot: an operand that takes inputs is one only
if the probe fills it or a layer writes it. -/
def Settles (m : Model) (input output : String) : Prop :=
  ∀ i o, findOperand? m.graph.operands output = some i → m.graph.operands[i]? = some o →
    o.kind = .input → findOperand? m.graph.operands input = some i ∨
      ∃ l ∈ m.graph.layers, l.output = i

theorem fill_ok_cases (h : (m.fill plan frame s).1 = .ok ()) :
    ∃ i o p, findOperand? s.operands plan.input = some i ∧ s.operands[i]? = some o ∧
      (m.fill plan frame s).2.operands = s.operands.setIfInBounds i p ∧
      o.dataType = p.dataType ∧ o.dims.channels = p.dims.channels ∧ p.data.isSome := by
  rcases m.fill_cases plan frame s with ⟨e, he, -⟩ |
    ⟨i, o, p, hi, ho, -, hs, -, htype, hchannels, hdata⟩
  · rw [he] at h
    cases h
  · exact ⟨i, o, p, hi, ho, hs, htype, hchannels, hdata h⟩

/-- The same model with a frame processor that fills no tensor of this type and channel count. -/
def rejecting (m : Model) (dataType : DataType) (channels : Nat) : Model :=
  { m with
    processor := {
      load := fun frame height width c t _ tensor =>
        if t = dataType ∧ c = channels then .error (.wrongChannels frame.format c)
        else m.processor.load frame height width c t tensor
      store := m.processor.store } }

theorem fill_rejecting_ne_ok (m : Model) (frame : Option Frame) {i : Nat} {o : Operand}
    (hconverts : plan.converts = true)
    (hi : findOperand? s.operands plan.input = some i) (ho : s.operands[i]? = some o) :
    ((m.rejecting o.dataType o.dims.channels.toNatClampNeg).fill plan frame s).1 ≠ .ok () := by
  unfold fill
  rcases hplace : (m.rejecting o.dataType o.dims.channels.toNatClampNeg).placeInput s.operands
    plan.input frame with e | ⟨j, p, f, dims⟩
  · rintro ⟨⟩
  · obtain ⟨hfill, -, hdims⟩ := placeInput_eq_ok.1 hplace
    obtain ⟨-, hj, hp, -⟩ := fillable_eq_ok.1 hfill
    cases hi.symm.trans hj
    cases ho.symm.trans hp
    simp only [Operand.resize]
    cases dims.byteLength? with
    | none => rintro ⟨⟩
    | some length =>
      simp [Operand.allocZeroed, hconverts, rejecting, (frameDims_eq_ok hdims).2.2.2]

theorem fill_rejecting_eq {dataType : DataType} {channels : Nat}
    (h : ∀ i o, findOperand? s.operands plan.input = some i → s.operands[i]? = some o →
      ¬(o.dataType = dataType ∧ o.dims.channels.toNatClampNeg = channels)) :
    (m.rejecting dataType channels).fill plan frame s = m.fill plan frame s := by
  have hplaces : (m.rejecting dataType channels).placeInput s.operands plan.input frame =
      m.placeInput s.operands plan.input frame := rfl
  unfold fill
  rw [hplaces]
  rcases hplace : m.placeInput s.operands plan.input frame with e | ⟨i, o, f, dims⟩
  · rfl
  · obtain ⟨hfill, -, hdims⟩ := placeInput_eq_ok.1 hplace
    obtain ⟨-, hi, ho, -⟩ := fillable_eq_ok.1 hfill
    have hother := h i o hi ho
    rw [← (frameDims_eq_ok hdims).2.2.2] at hother
    simp only [Operand.resize]
    cases dims.byteLength? with
    | none => rfl
    | some length => simp only [Operand.allocZeroed, rejecting, if_neg hother]

theorem serve_rejecting_ne_ok (m : Model) (frames : Frames) {i : Nat} {o : Operand}
    (hconverts : plan.converts = true) (hi : findOperand? s.operands plan.input = some i)
    (ho : s.operands[i]? = some o) :
    ((m.rejecting o.dataType o.dims.channels.toNatClampNeg).serve plan frames s).1 ≠ .ok () := by
  have hfill := fill_rejecting_ne_ok m frames.input hconverts hi ho
  unfold serve
  generalize (m.rejecting o.dataType o.dims.channels.toNatClampNeg).fill plan frames.input s = x
    at hfill ⊢
  rcases x with ⟨_ | _, t⟩
  · exact nofun
  · exact absurd rfl hfill

theorem serve_rejecting_eq {frames : Frames} {dataType : DataType} {channels : Nat}
    (h : ∀ i o, findOperand? s.operands plan.input = some i → s.operands[i]? = some o →
      ¬(o.dataType = dataType ∧ o.dims.channels.toNatClampNeg = channels)) :
    (m.rejecting dataType channels).serve plan frames s = m.serve plan frames s := by
  simp only [serve, fill_rejecting_eq h, infer_congr m (m.rejecting dataType channels) rfl rfl rfl]

theorem channels_pos_of_serve {frames : Frames} (h : (m.serve plan frames s).1 = .ok ()) {i : Nat}
    {o : Operand} (hi : findOperand? s.operands plan.input = some i)
    (ho : s.operands[i]? = some o) : 0 < o.dims.channels := by
  unfold serve fill at h
  rcases hplace : m.placeInput s.operands plan.input frames.input with e | ⟨j, p, f, dims⟩
  · rw [hplace] at h
    cases h
  · obtain ⟨hfill, -, -⟩ := placeInput_eq_ok.1 hplace
    obtain ⟨-, hj, hp, -, -, hpos⟩ := fillable_eq_ok.1 hfill
    cases hi.symm.trans hj
    cases ho.symm.trans hp
    exact hpos

theorem compute_eq_ok (h : (m.compute plan frame s).1 = .ok ()) :
    (m.fill plan frame s).1 = .ok () ∧
      m.compute plan frame s = runLayers m.graph.layers (m.fill plan frame s).2 := by
  unfold compute at h ⊢
  generalize m.fill plan frame s = x at h ⊢
  rcases x with ⟨_ | _, t⟩
  · cases h
  · exact ⟨rfl, rfl⟩

/-- Once the layers have run, there are values in the input and in whatever a layer writes. -/
theorem compute_holds (h : (m.compute plan frame s).1 = .ok ()) {i : Nat}
    (hi : findOperand? s.operands plan.input = some i ∨ ∃ l ∈ m.graph.layers, l.output = i) :
    ∃ p, (m.compute plan frame s).2.operands[i]? = some p ∧ p.data.isSome := by
  obtain ⟨hfill, hcompute⟩ := compute_eq_ok h
  rw [hcompute] at h ⊢
  rcases hi with hi | ⟨l, hl, rfl⟩
  · obtain ⟨j, o, p, hj, ho, hs, -, -, hdata⟩ := fill_ok_cases hfill
    cases hi.symm.trans hj
    have hlt : i < s.operands.size := (Array.getElem?_eq_some_iff.1 ho).1
    have hfilled : (m.fill plan frame s).2.operands[i]? = some p := by
      rw [hs, Array.getElem?_setIfInBounds_self_of_lt hlt]
    obtain ⟨q, hq, hpq, -⟩ := (runLayers_frame m.graph.layers _ 0).of_getElem?_some hfilled
    exact ⟨q, hq, hpq.data hdata⟩
  · exact runLayers_holds h hl

theorem Kept.compute (h : m.Kept s.operands) (plan : Plan) (frame : Option Frame) :
    m.Kept (m.compute plan frame s).2.operands := by
  have hfilled := h.fill plan frame
  unfold Model.compute
  generalize m.fill plan frame s = x at hfilled ⊢
  rcases x with ⟨_ | _, t⟩
  · exact hfilled
  · exact hfilled.runLayers

theorem compute_alike {s' : Store} (h : AllAlike s.operands s'.operands)
    (hin : SameInput plan.input s.operands s'.operands) (frame : Option Frame) :
    AllAlike (m.compute plan frame s).2.operands (m.compute plan frame s').2.operands := by
  obtain ⟨hfill, htable⟩ := fill_alike (m := m) h hin frame
  unfold compute
  generalize m.fill plan frame s = x, m.fill plan frame s' = y at hfill htable
  obtain ⟨result, t⟩ := x
  obtain ⟨result', t'⟩ := y
  cases hfill with
  | error => exact htable
  | ok => exact (runLayers_alike m.graph.layers htable 0).2

theorem measure_alike {s' : Store} (plan : Plan) (frame : Frame)
    (h : AllAlike s.operands s'.operands)
    (hin : SameInput plan.input s.operands s'.operands)
    (hdims : plan.converts = false → (m.compute plan (some frame) s).1 = .ok () →
      (m.compute plan (some frame) s').1 = .ok () → ∀ name ∈ plan.outputs, SameDims name
        (m.compute plan (some frame) s).2.operands (m.compute plan (some frame) s').2.operands) :
    Concordant (Session.measure m plan frame s).1 (Session.measure m plan frame s').1 := by
  obtain ⟨hresult, hframes, -⟩ :=
    serve_alike (m := m) plan ⟨some frame, some frame⟩ h hin hdims
  rw [measure_eq_serve, measure_eq_serve]
  generalize m.serve plan ⟨some frame, some frame⟩ s = x,
    m.serve plan ⟨some frame, some frame⟩ s' = y at hresult hframes
  obtain ⟨result, frames, t⟩ := x
  obtain ⟨result', frames', t'⟩ := y
  simp only at hframes hresult
  subst hframes
  cases hresult with
  | error => exact .error trivial
  | ok => rcases frames with ⟨_, _ | output⟩ <;> exact .refl _

theorem Settles.sameDims {s' : Store} {name : String} (hset : m.Settles plan.input name)
    (hkept : m.Kept s.operands) (hkept' : m.Kept s'.operands)
    (h : AllAlike s.operands s'.operands)
    (hin : SameInput plan.input s.operands s'.operands)
    (hok : (m.compute plan frame s).1 = .ok ()) :
    SameDims name (m.compute plan frame s).2.operands (m.compute plan frame s').2.operands := by
  intro o p ho hp
  have halike := compute_alike (m := m) h hin frame
  have hkept₁ := hkept.compute plan frame
  have hkept₂ := hkept'.compute plan frame
  have hfound := halike.find?_rel (fun _ _ _ hop => hop.name) name
  rw [ho, hp] at hfound
  cases hfound with
  | some hop =>
    obtain ⟨i, hi, ho, hp, hop⟩ := hop
    have hgraph := (hkept₁.findOperand?_eq (fun _ _ _ hop => hop.name) name).trans hi
    obtain ⟨q, hq, hqo⟩ := hkept₁.of_getElem?_right ho
    obtain ⟨p', hp', hqp⟩ := hkept₂.of_getElem?_some hq
    cases hp.symm.trans hp'
    rcases hop.eq_or_empty with rfl | ⟨hnone, -⟩
    · rfl
    · have hempty : ¬(findOperand? s.operands plan.input = some i ∨
          ∃ l ∈ m.graph.layers, l.output = i) := by
        intro hwritten
        obtain ⟨o', ho', hdata⟩ := compute_holds hok hwritten
        cases ho.symm.trans ho'
        simp [hnone] at hdata
      have hinput := hkept.findOperand?_eq (fun _ _ _ hop => hop.name) plan.input
      have hkind : q.kind ≠ .input := fun hk => hempty (hinput ▸ hset i q hgraph hq hk)
      have hunwritten : ∀ l ∈ m.graph.layers, l.output ≠ i :=
        fun l hl hli => hempty (.inr ⟨l, hl, hli⟩)
      exact (hqo.dims hunwritten hkind).symm.trans (hqp.dims hunwritten hkind)

end Model

namespace Session

variable {m : Model} {s : Session} {slot : Slot}

theorem Reachable.idle (h : Reachable m s) (hslot : slot ∈ s.free) : m.Idle slot.operands := by
  obtain ⟨commands, rfl⟩ := h
  exact ((Tracked.start m.anyway).run commands).1.free slot hslot

/-- What becomes of a request that this slot serves. -/
def outcomeOn (m : Model) (slot : Slot) (r : Request) : Except Error Outcome :=
  (({ free := [slot] } : Session).execute m.sync r).2.getResult.1

/-- What a probe finds on this slot. -/
def sizeOn (m : Model) (slot : Slot) (input : String) (width height : Nat) (output : String) :
    Except Error (Nat × Nat) :=
  (({ free := [slot] } : Session).getOutput m input width height output).1

theorem outcomeOn_eq {r : Request} (hcheck : checkRequest m r = .ok ()) :
    outcomeOn m slot r = outcomeOf (m.serve r.plan r.frames ⟨slot.operands, {}⟩).1.toBool
      (m.serve r.plan r.frames ⟨slot.operands, {}⟩).2.1 := by
  rw [outcomeOn, getResult_execute (m := m.sync) rfl hcheck rfl rfl rfl, Model.serve_sync]

theorem outcomeOn_of_not_accepted {r : Request} {e : Error} (hcheck : checkRequest m r = .error e) :
    outcomeOn m slot r = .ok .emptyQueue := by
  have hcheck : checkRequest m.sync r = .error e := hcheck
  simp only [outcomeOn, execute, hcheck]
  rfl

theorem outcomeOn_congr {slot' : Slot} {r : Request}
    (h : AllAlike slot.operands slot'.operands)
    (hin : SameInput r.input slot.operands slot'.operands) :
    outcomeOn m slot r = outcomeOn m slot' r := by
  cases hcheck : checkRequest m r with
  | error e => rw [outcomeOn_of_not_accepted hcheck, outcomeOn_of_not_accepted hcheck]
  | ok =>
    have htables : AllAlike (Store.mk slot.operands {}).operands (Store.mk slot'.operands {}).operands :=
      h
    rw [outcomeOn_eq hcheck, outcomeOn_eq hcheck]
    obtain ⟨hresult, hframes, -⟩ := Model.serve_alike (m := m) r.plan r.frames htables hin nofun
    rw [hframes]
    generalize (m.serve r.plan r.frames ⟨slot.operands, {}⟩).1 = x,
      (m.serve r.plan r.frames ⟨slot'.operands, {}⟩).1 = y at hresult
    cases hresult <;> rfl

theorem serve_ok_of_ready {result : Except Error Unit} {frames : Frames} {input : Frame}
    {output : Option Frame} (h : outcomeOf result.toBool frames = .ok (.ready input output)) :
    result = .ok () := by
  cases result with
  | ok => rfl
  | error e => cases hinput : frames.input <;> simp [outcomeOf, hinput, Except.toBool] at h

/-- A request that fills its input and becomes ready on one slot does so on another, whatever the
frame processor, just when the inputs have one type and channel count. -/
theorem outcomeOn_eq_iff {slot' : Slot} {r : Request} {input : Frame} {output : Option Frame}
    (h : AllAlike slot.operands slot'.operands)
    (hready : outcomeOn m slot' r = .ok (.ready input output)) :
    (∀ processor, outcomeOn { m with processor } slot r = outcomeOn { m with processor } slot' r) ↔
      SameInput r.input slot.operands slot'.operands := by
  constructor
  · rintro hall i o p hi ho hp -
    have hcheck : checkRequest m r = .ok () := by
      cases hcheck : checkRequest m r with
      | error e =>
        rw [outcomeOn_of_not_accepted hcheck] at hready
        cases hready
      | ok => rfl
    have hserve : (m.serve r.plan r.frames ⟨slot'.operands, {}⟩).1 = .ok () := by
      rw [outcomeOn_eq hcheck] at hready
      exact serve_ok_of_ready hready
    have hi' := (h.findOperand?_eq (fun _ _ _ hop => hop.name) r.input).symm.trans hi
    have hpos := Model.channels_pos_of_serve hserve hi' hp
    by_contra hdiff
    have hdiffers : ¬(p.dataType = o.dataType ∧
        p.dims.channels.toNatClampNeg = o.dims.channels.toNatClampNeg) := by
      rintro ⟨htype, hchannels⟩
      exact hdiff ⟨htype.symm, (toNatClampNeg_inj hpos hchannels).symm⟩
    let n : Model := m.rejecting o.dataType o.dims.channels.toNatClampNeg
    have hcheck' : checkRequest n r = .ok () := hcheck
    have hkeeps : outcomeOn n slot' r = outcomeOn m slot' r := by
      rw [outcomeOn_eq hcheck', outcomeOn_eq hcheck, Model.serve_rejecting_eq]
      intro j q hj hq
      cases hi'.symm.trans hj
      cases hp.symm.trans hq
      exact hdiffers
    have hsame : outcomeOn n slot r = outcomeOn n slot' r := hall n.processor
    rw [hkeeps, hready, outcomeOn_eq hcheck'] at hsame
    exact Model.serve_rejecting_ne_ok m r.frames rfl hi ho (serve_ok_of_ready hsame)
  · intro hin processor
    exact outcomeOn_congr (m := { m with processor }) h hin

theorem sizeOn_congr {slot' : Slot} {input output : String} {width height : Nat}
    (hkept : m.Kept slot.operands) (hkept' : m.Kept slot'.operands)
    (h : AllAlike slot.operands slot'.operands)
    (hin : SameInput input slot.operands slot'.operands) (hset : m.Settles input output) :
    Concordant (sizeOn m slot input width height output)
      (sizeOn m slot' input width height output) := by
  have htables : AllAlike (Store.mk slot.operands {}).operands (Store.mk slot'.operands {}).operands :=
    h
  unfold sizeOn getOutput
  cases blankFrame width height with
  | error e => exact .refl _
  | ok frame =>
    refine Model.measure_alike _ frame htables hin fun _ hok _ name hname => ?_
    rw [List.mem_singleton.1 hname]
    exact Model.Settles.sameDims hset hkept hkept' h hin hok

/-- A free slot shows a request nothing of its past but the type and channel count that its input was
left with, and a ready request shows these to some frame processor. They stay as the model has them
where no layer writes the input. A probe also shows the dims of an input that is its output without
being filled or written. -/
theorem used_slot_as_fresh (h : Reachable m s) (hslot : slot ∈ s.free) :
    (∀ r, SameInput r.input slot.operands m.freshStore.operands →
      outcomeOn m slot r = outcomeOn m (.fresh m.graph.operands) r) ∧
    (∀ r input output, outcomeOn m (.fresh m.graph.operands) r = .ok (.ready input output) →
      ((∀ processor, outcomeOn { m with processor } slot r =
          outcomeOn { m with processor } (.fresh m.graph.operands) r) ↔
        SameInput r.input slot.operands m.freshStore.operands)) ∧
    (∀ input output, SameInput input slot.operands m.freshStore.operands →
      m.Settles input output → ∀ width height,
        Concordant (sizeOn m slot input width height output)
          (sizeOn m (.fresh m.graph.operands) input width height output)) ∧
    ∀ name, m.KeepsInput name → SameInput name slot.operands m.freshStore.operands := by
  obtain ⟨hkept, halike⟩ := h.idle hslot
  have hfresh := m.kept_freshStore
  refine ⟨fun r hin => outcomeOn_congr halike hin, fun r input output hready => ?_,
    fun input output hin hset width height => ?_, fun name => hkept.sameInput hfresh⟩
  · exact outcomeOn_eq_iff halike hready
  · exact sizeOn_congr hkept hfresh halike hin hset

theorem used_slot_of_copy :
    ∃ slot ∈ (run (.copy false) (start (.copy false)) [.execute (.ofPixel 1)]).2.free,
      outcomeOn (.copy false) slot (.ofPixel 2) =
        outcomeOn (.copy false) (.fresh (Model.copy false).graph.operands) (.ofPixel 2) := by
  refine ⟨_, List.getLast_mem (by decide +kernel), ?_⟩
  obtain ⟨hsame, -, -, hkept⟩ := used_slot_as_fresh (m := .copy false) ⟨[.execute (.ofPixel 1)], rfl⟩
    (List.getLast_mem (by decide +kernel))
  have hinputs : (Model.copy false).KeepsInputs := by decide
  exact hsame (.ofPixel 2) (hkept "x" (hinputs.keepsInput "x"))

/-- A model whose only layer grows its input from one channel to three, in place. -/
def widening : Model where
  graph := {
    minorVersion := 0
    layers := [⟨.mirrorPad ⟨.constant, ⟨0, 0⟩, ⟨0, 0⟩, ⟨0, 0⟩, ⟨0, 2⟩, .zero⟩, [0], 0⟩]
    operands := #[⟨"x", .input, .float, ⟨1, -1, -1, 1⟩, true, 0, none⟩] }
  purpose := .process
  options := .sync
  processor := .plain
  slots := 1

def widened : Request :=
  ⟨"x", ["x"], .pixel 1, some ⟨1, 1, .rgbF32, .replicate 12 0⟩⟩

/-- What is ready at first has failed when it is asked for again. -/
theorem widening_shows_used_slot :
    ∃ slot ∈ (run widening (start widening) [.execute widened]).2.free,
      outcomeOn widening slot widened = .ok (.failed (.pixel 1)) ∧
      outcomeOn widening (.fresh widening.graph.operands) widened =
        .ok (.ready (.pixel 1) (some ⟨1, 1, .rgbF32, #[1, 0, 0, 0, 0, 0, 0, 0, 0, 0, 0, 0]⟩)) := by
  exact ⟨_, List.getLast_mem (by decide +kernel), by decide +kernel, by decide +kernel⟩

end Session
end Inference
