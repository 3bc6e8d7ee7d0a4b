import Inference.Proofs.Frame
import Inference.Proofs.Layer.Faultless
import Inference.Proofs.ModelFile.Grammar
import Inference.Proofs.Session.Failure
import Inference.Proofs.Session.Fitting
import Inference.Proofs.Session.Schedule
/-! Serving requests on a model from a file: whatever the frames are like, neither the conversions
nor a layer asks anything impossible of the machine. -/
namespace Inference

/-- The fault may be at the bottom of the error. -/
def Error.IsFault : Error → Prop
  | .fault _ => True
  | .layer _ _ cause => MayFault.IsFault cause
  | .frame cause => MayFault.IsFault cause
  | .inconsistent (.emptyOutput cause) => MayFault.IsFault cause
  | _ => False

instance : MayFault Error := ⟨Error.IsFault⟩

theorem PlaceFailure.not_isFault {e : Error} (h : PlaceFailure e) : ¬e.IsFault := by
  cases h <;> exact not_false

namespace Model

variable {m : Model} {plan : Plan} {frame : Option Frame} {frames : Frames} {s : Store}
  {xs : Array Operand}

/-- Each layer has sound parameters, and all its weights can be counted. -/
def Sound (m : Model) : Prop := ∀ l ∈ m.graph.layers, l.params.WellFormed ∧ l.params.Addressable

theorem sound_of_parse {file : List UInt8} (h : ModelFile.parse file = .ok m.graph) : m.Sound := by
  intro l hl
  obtain ⟨hl, hsize⟩ := ModelFile.layers_of_parse h l hl
  exact ⟨hl.params, hsize⟩

theorem fill_faultless (plan : Plan) (hplain : plan.converts = true → m.processor = .plain)
    (frame : Option Frame) (s : Store) : Faultless (m.fill plan frame s).1 := by
  have hfills := m.fills plan frame s
  generalize m.fill plan frame s = x at hfills ⊢
  cases hfills with
  | refused hplace => exact .error (placeInput_failure hplace).not_isFault
  | overlong => exact .error not_false
  | filled => exact .ok ()
  | @unloaded i o f dims length e hplace hlength hconverts hload =>
    -- the tensor has the geometry of the frame, and all its bytes can be counted
    obtain ⟨hpos, hle, rfl⟩ := Dims.byteLength?_eq_some.1 hlength
    obtain ⟨-, -, hdims⟩ := placeInput_eq_ok.1 hplace
    obtain ⟨hbatch, hheight, hwidth, -⟩ := frameDims_eq_ok hdims
    have hcount : 4 * dims.volume / 4 ≤ dims.volume := by omega
    rw [hplain hconverts, ← hheight, ← hwidth] at hload
    exact .error (Frame.load_faultless hbatch hpos hle hcount _ e hload)

/-- Layers run without faults, as each leaves behind what the next one asks for. -/
theorem runLayers_faultless {layers : List Layer}
    (h : ∀ l ∈ layers, l.params.WellFormed ∧ l.params.Addressable) (hfit : AllFit s.operands)
    (index : Nat) : Faultless (runLayers layers s index).1 := by
  intro e he
  obtain ⟨l, hl, i, t, cause, hfit, hcause, rfl⟩ :=
    runLayers_failure (fun _ _ _ => Layer.exec_fits) hfit he
  obtain ⟨hparams, hsize⟩ := h l hl
  exact Layer.exec_faultless hparams hsize hfit cause hcause

theorem deliver_faultless (hplain : plan.converts = true → m.processor = .plain) (hfit : AllFit xs)
    (name : String) (frames : Frames) : Faultless (m.deliver plan xs name frames).1 := by
  unfold deliver
  cases hfind : xs.find? (·.name == name) with
  | none => exact .error not_false
  | some o =>
    cases hconverts : plan.converts with
    | false =>
      simp only [Bool.false_eq_true, if_false]
      cases frames.output with
      | none => exact .error not_false
      | some => exact .ok ()
    | true =>
      simp only [if_true]
      cases hvalues : o.values with
      | error e => exact .error (o.values_faultless e hvalues)
      | ok values =>
        cases m.resultFrame frames with
        | none => exact .error not_false
        | some frame =>
          obtain ⟨hpos, hvolume, hle⟩ :=
            (hfit.of_find? hfind).volume (Operand.values_eq_ok hvalues)
          have hstore : Faultless (m.processor.store (o.picture values) frame m.purpose).1 := by
            rw [hplain hconverts]
            exact Frame.store_faultless hpos (hvolume ▸ hle) m.purpose
          exact hstore.mapError fun _ he => he

theorem deliverAll_faultless (hplain : plan.converts = true → m.processor = .plain)
    (hfit : AllFit xs) (names : List String) (frames : Frames) :
    Faultless (m.deliverAll plan xs names frames).1 := by
  induction names generalizing frames with
  | nil => exact .ok ()
  | cons name names ih =>
    have hfirst : Faultless (m.deliver plan xs name frames).1 :=
      deliver_faultless hplain hfit name frames
    simp only [deliverAll]
    generalize m.deliver plan xs name frames = x at hfirst
    rcases x with ⟨e | _, frames⟩
    · exact .error (hfirst e rfl)
    · exact ih frames

theorem infer_faultless (hplain : plan.converts = true → m.processor = .plain) (hsound : m.Sound)
    (hfit : AllFit s.operands) (frames : Frames) : Faultless (m.infer plan frames s).1 := by
  have hlayers := runLayers_faultless hsound hfit 0
  have hfitting : (runLayers m.graph.layers s).1 = .ok () →
      AllFit (runLayers m.graph.layers s).2.operands := runLayers_fits hfit
  unfold infer
  generalize runLayers m.graph.layers s = x at hlayers hfitting
  rcases x with ⟨e | _, t⟩
  · exact .error (hlayers e rfl)
  · exact deliverAll_faultless hplain (hfitting rfl) plan.outputs frames

/-- An inference on operands that fit, which converts no frames unless in the plain way. -/
theorem serve_faultless (hplain : plan.converts = true → m.processor = .plain) (hsound : m.Sound)
    (hfit : AllFit s.operands) (frames : Frames) : Faultless (m.serve plan frames s).1 := by
  have hfill := fill_faultless plan hplain frames.input s
  have hfilled : (m.fill plan frames.input s).1 = .ok () →
      AllFit (m.fill plan frames.input s).2.operands := fill_fits hfit
  unfold serve
  generalize m.fill plan frames.input s = x at hfill hfilled
  rcases x with ⟨e | _, t⟩
  · exact .error (hfill e rfl)
  · exact infer_faultless hplain hsound (hfilled rfl) frames

theorem measure_faultless (hplain : plan.converts = true → m.processor = .plain) (hsound : m.Sound)
    (hfit : AllFit s.operands) (f : Frame) : Faultless (Session.measure m plan f s).1 :=
  fun e he => serve_faultless hplain hsound hfit ⟨some f, some f⟩ e (measure_failure he)

end Model

namespace Session

variable {m : Model} {slot : Slot} {s : Session}

theorem runInference_faultless (hplain : m.processor = .plain) (hsound : m.Sound)
    (hfit : AllFit slot.operands) (work : Work) (s : Session) :
    Faultless (runInference m slot work s).1 := by
  rw [runInference_result]
  exact Model.infer_faultless (fun _ => hplain) hsound hfit _

theorem checkFinished_faultless (s : Session) (ticket : Nat) :
    Faultless (s.checkFinished ticket) := by
  unfold checkFinished
  split
  · split
    · exact .ok ()
    · exact .error not_false
  · exact .ok ()

theorem dispatch_faultless (hplain : m.processor = .plain) (hsound : m.Sound)
    (hfit : AllFit slot.operands) (async : Bool) (s : Session) :
    Faultless (dispatch m slot async s).1 := by
  cases hwaiting : s.waiting with
  | nil =>
    unfold dispatch
    rw [hwaiting]
    exact .error not_false
  | cons work waiting =>
    obtain ⟨filled, store, hfill, hcases⟩ := dispatch_cases m slot work s hwaiting async
    have hfaultless := Model.fill_faultless work.plan (fun _ => hplain)
      (s.frames work.ticket).input ⟨slot.operands, s.ledger⟩
    rw [hfill] at hfaultless
    rcases hcases with ⟨e, rfl, heq⟩ | ⟨-, -, heq⟩ | ⟨rfl, -, heq⟩
    · rw [heq]
      exact .error (hfaultless e rfl)
    · rw [heq]
      exact .ok ()
    · -- the filled input fills its dims like all other operands, so the layers can run
      have hfilled : AllFit store.operands := by
        have hfits : AllFit (m.fill work.plan (s.frames work.ticket).input
            ⟨slot.operands, s.ledger⟩).2.operands := Model.fill_fits hfit (by rw [hfill])
        rwa [hfill] at hfits
      have hrun : Faultless (runInference m ⟨store.operands, some work⟩ work
          { s with waiting, ledger := store.ledger }).1 :=
        runInference_faultless hplain hsound hfilled work _
      rw [heq]
      split
      next e _ h =>
        rw [h] at hrun
        exact .error (hrun e rfl)
      next => exact checkFinished_faultless _ _

theorem dispatchNext_faultless (hplain : m.processor = .plain) (hsound : m.Sound)
    (hfit : ∀ slot ∈ s.free, AllFit slot.operands) (async : Bool) :
    Faultless (s.dispatchNext m async).1 := by
  unfold dispatchNext
  cases hfree : s.free with
  | nil => exact .error not_false
  | cons slot free =>
    have hslot : AllFit slot.operands := hfit slot (hfree ▸ List.mem_cons_self)
    exact dispatch_faultless hplain hsound hslot async _

theorem checkRequest_faultless (m : Model) (r : Request) : Faultless (checkRequest m r) := by
  intro e h
  exact (checkRequest_refusal h).placeFailure.not_isFault

/-- A model that is read from a file never asks anything impossible of the machine. In whatever
state requests and probes have brought its session, with frames of any geometry, format and length
of data, neither a request, nor a flush, nor a queued job fails for a fault. -/
theorem no_fault {file : List UInt8} (hfile : ModelFile.parse file = .ok m.graph)
    (hplain : m.processor = .plain) (hs : Reachable m s) :
    (∀ r, Faultless (s.execute m r).1) ∧ Faultless (s.flush m).1 ∧
      ∀ place job, s.jobs[place]? = some job →
        Faultless
          (runInference m job.slot job.work { s with jobs := s.jobs.eraseIdx place }).1 := by
  have hsound := Model.sound_of_parse hfile
  have hfree : ∀ slot ∈ s.free, AllFit slot.operands := fun slot hslot => (hs.free_empty hslot).fit
  refine ⟨fun r => ?_, ?_, fun place job hjob => ?_⟩
  · unfold execute
    cases hcheck : checkRequest m r with
    | error e => exact .error (checkRequest_faultless m r e hcheck)
    | ok => exact dispatchNext_faultless (s := s.submit r) hplain hsound hfree _
  · unfold flush
    split
    · exact .ok ()
    · exact dispatchNext_faultless hplain hsound hfree _
  · exact runInference_faultless hplain hsound (hs.jobs_coherent (List.mem_of_getElem? hjob)).fit _ _

/-- The model of an affine layer, with two slots. -/
def affine : Model := ⟨ModelFile.affine, .process, {}, .plain, 2⟩

/-- A queued job, and a request with a frame that is too wide and has no data at all. -/
theorem no_fault_of_affine :
    let wide : Request := ⟨"x\ufffd", ["y"], ⟨2 ^ 63, 1, .gray8, #[]⟩, some (.pixel 0)⟩
    ModelFile.parse ModelFile.affineFile = .ok affine.graph ∧
      ∃ s job, Reachable affine s ∧ s.jobs[0]? = some job ∧
        Faultless (runInference affine job.slot job.work { s with jobs := s.jobs.eraseIdx 0 }).1 ∧
        Faultless (s.execute affine wide).1 ∧
        (s.execute affine wide).1 = .error (.badArgument (.frameWidth (2 ^ 63))) := by
  intro wide
  have hfile : ModelFile.parse ModelFile.affineFile = .ok affine.graph := by decide +kernel
  let s := (run affine (start affine) [.execute (.ofPixel 7 "x\ufffd")]).2
  have hs : Reachable affine s := ⟨_, rfl⟩
  obtain ⟨job, hjob⟩ : ∃ job, s.jobs[0]? = some job :=
    Option.isSome_iff_exists.1 (by decide +kernel)
  obtain ⟨hexecute, -, hjobs⟩ := no_fault hfile rfl hs
  exact ⟨hfile, s, job, hs, hjob, hjobs 0 job hjob, hexecute wide, by decide +kernel⟩

end Session
end Inference
