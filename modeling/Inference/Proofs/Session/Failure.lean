import Inference.Proofs.Concur
import Inference.Proofs.Session.Filling
import Inference.Session.State
/-! What is refused, and what an inference can fail with: filling its input, running the layers,
handing its outputs over. -/
namespace Inference

/-- What is asked for cannot be given, whatever the state of the session. -/
inductive Refusal : Error → Prop where
  | badArgument (cause : BadArgument) : Refusal (.badArgument cause)
  | unsupported (feature : UnsupportedFeature) : Refusal (.unsupported feature)

/-- The failures before the input is given its dims. -/
inductive PlaceFailure : Error → Prop where
  | badArgument (cause : BadArgument) : PlaceFailure (.badArgument cause)
  | unsupported (feature : UnsupportedFeature) : PlaceFailure (.unsupported feature)
  | noInputFrame : PlaceFailure (.inconsistent .noInputFrame)

namespace Refusal

variable {e : Error}

theorem placeFailure (h : Refusal e) : PlaceFailure e := by
  cases h with
  | badArgument cause => exact .badArgument cause
  | unsupported feature => exact .unsupported feature

theorem ne_noFreeSlot (h : Refusal e) : e ≠ .noFreeSlot := by
  rintro rfl
  cases h

theorem ne_inconsistent (h : Refusal e) (cause : Inconsistency) : e ≠ .inconsistent cause := by
  rintro rfl
  cases h

end Refusal

inductive FillFailure : Error → Prop where
  | place {e : Error} (h : PlaceFailure e) : FillFailure e
  | lengthOverflow (operand : String) : FillFailure (.lengthOverflow operand)
  | frame (cause : FrameError) : FillFailure (.frame cause)

/-- The failures of handing these outputs over from the operands into the frames. -/
inductive DeliverFailure (m : Model) (plan : Plan) (xs : Array Operand) (frames : Frames)
    (names : List String) : Error → Prop where
  | noOutput {name : String} (hname : name ∈ names) (hfind : xs.find? (·.name == name) = none) :
    DeliverFailure m plan xs frames names (.inconsistent (.noOutput name))
  | emptyOutput {name : String} {o : Operand} (hname : name ∈ names)
      (hconverts : plan.converts = true) (hfind : xs.find? (·.name == name) = some o)
      (hdata : o.data = none) :
    DeliverFailure m plan xs frames names (.inconsistent (.emptyOutput (.noData name)))
  | noFrameToFill (hconverts : plan.converts = true) (hframe : m.resultFrame frames = none) :
    DeliverFailure m plan xs frames names (.inconsistent .noFrameToFill)
  | noOutputFrame (hconverts : plan.converts = false) (hframe : frames.output = none) :
    DeliverFailure m plan xs frames names (.inconsistent .noOutputFrame)
  | frame (cause : FrameError) : DeliverFailure m plan xs frames names (.frame cause)

/-- No frame is missing later that was there before. -/
structure Frames.Stay (before after : Frames) : Prop where
  input : before.input.isSome → after.input.isSome
  output : before.output.isSome → after.output.isSome

namespace Frames

variable {a b c : Frames}

theorem Stay.refl (a : Frames) : a.Stay a := ⟨id, id⟩

theorem Stay.trans (h : a.Stay b) (h' : b.Stay c) : a.Stay c :=
  ⟨fun ha => h'.input (h.input ha), fun ha => h'.output (h.output ha)⟩

theorem Stay.output_eq_none (h : a.Stay b) (hb : b.output = none) : a.output = none := by
  have hout := h.output
  cases ha : a.output with
  | none => rfl
  | some f => simp [ha, hb] at hout

theorem Stay.resultFrame_eq_none (h : a.Stay b) {m : Model} (hb : m.resultFrame b = none) :
    m.resultFrame a = none := by
  have hin := h.input
  unfold Model.resultFrame at hb ⊢
  split at hb
  · exact h.output_eq_none hb
  all_goals
    cases ha : a.input with
    | none => rfl
    | some f => simp [ha, hb] at hin

end Frames

/-- With more names, and before frames went missing. -/
theorem DeliverFailure.mono {m : Model} {plan : Plan} {xs : Array Operand} {frames frames' : Frames}
    {names names' : List String} {e : Error} (h : DeliverFailure m plan xs frames names e)
    (hnames : names ⊆ names') (hstay : frames'.Stay frames) :
    DeliverFailure m plan xs frames' names' e := by
  cases h with
  | noOutput hname hfind => exact .noOutput (hnames hname) hfind
  | emptyOutput hname hconverts hfind hdata =>
    exact .emptyOutput (hnames hname) hconverts hfind hdata
  | noFrameToFill hconverts hframe =>
    exact .noFrameToFill hconverts (hstay.resultFrame_eq_none hframe)
  | noOutputFrame hconverts hframe => exact .noOutputFrame hconverts (hstay.output_eq_none hframe)
  | frame cause => exact .frame cause

/-- The failures once the input is filled. -/
inductive InferFailure (m : Model) (plan : Plan) (frames : Frames) (s : Store) : Error → Prop where
  | layer (index : Nat) (kind : LayerKind) (cause : KernelError) :
    InferFailure m plan frames s (.layer index kind cause)
  | deliver {e : Error} (hlayers : (Model.runLayers m.graph.layers s).1 = .ok ())
      (h : DeliverFailure m plan (Model.runLayers m.graph.layers s).2.operands frames plan.outputs
        e) :
    InferFailure m plan frames s e

namespace Model

variable {m : Model} {plan : Plan} {frame : Option Frame} {frames : Frames} {s : Store}
  {xs : Array Operand} {name : String} {e : Error}

theorem inputInfo_refusal (h : m.inputInfo name = .error e) : Refusal e := by
  unfold inputInfo at h
  split at h
  · cases h
    exact .badArgument _
  · split at h
    · cases h
    · cases h
      exact .badArgument _

theorem fillable_refusal (h : m.fillable xs name = .error e) : Refusal e := by
  unfold fillable at h
  rcases ite_throw_bind_eq_error.1 h with ⟨-, rfl⟩ | ⟨-, h⟩
  · exact .badArgument _
  · split at h
    next i _ =>
      simp only [ite_throw_bind_eq_error] at h
      rcases h with ⟨-, rfl⟩ | ⟨-, ⟨-, rfl⟩ | ⟨-, ⟨-, rfl⟩ | ⟨-, h⟩⟩⟩
      · exact .badArgument _
      · exact .unsupported _
      · exact .badArgument _
      · cases h
    · cases h
      exact .badArgument _

theorem frameDims_refusal {f : Frame} {channels : Int32} (h : frameDims f channels = .error e) :
    Refusal e := by
  unfold frameDims at h
  simp only [ite_throw_bind_eq_error] at h
  rcases h with ⟨-, rfl⟩ | ⟨-, ⟨-, rfl⟩ | ⟨-, h⟩⟩
  · exact .badArgument _
  · exact .badArgument _
  · cases h

/-- A frame that is there is placed, or the request is refused. -/
theorem placeInput_refusal {f : Frame} (h : m.placeInput xs name (some f) = .error e) :
    Refusal e := by
  unfold placeInput at h
  rcases bind_eq_error.1 h with h | ⟨⟨i, o⟩, -, h⟩
  · exact fillable_refusal h
  · rcases bind_eq_error.1 h with h | ⟨dims, -, h⟩
    · exact frameDims_refusal h
    · cases h

theorem placeInput_failure (h : m.placeInput xs name frame = .error e) : PlaceFailure e := by
  cases frame with
  | some f => exact (placeInput_refusal h).placeFailure
  | none =>
    unfold placeInput at h
    rcases bind_eq_error.1 h with h | ⟨⟨i, o⟩, -, h⟩
    · exact (fillable_refusal h).placeFailure
    · cases h
      exact .noInputFrame

/-- Once it is placed, an input may be too large, or its frame unfit. -/
theorem fill_cause (h : (m.fill plan frame s).1 = .error e) :
    m.placeInput s.operands plan.input frame = .error e ∨
      (∃ operand, e = .lengthOverflow operand) ∨ ∃ cause, e = .frame cause := by
  have hfills := m.fills plan frame s
  generalize m.fill plan frame s = x at h hfills
  cases hfills with
  | refused hplace =>
    cases h
    exact .inl hplace
  | overlong =>
    cases h
    exact .inr (.inl ⟨_, rfl⟩)
  | unloaded =>
    cases h
    exact .inr (.inr ⟨_, rfl⟩)
  | filled => cases h

theorem fill_failure (h : (m.fill plan frame s).1 = .error e) : FillFailure e := by
  rcases fill_cause h with h | ⟨operand, rfl⟩ | ⟨cause, rfl⟩
  · exact .place (placeInput_failure h)
  · exact .lengthOverflow operand
  · exact .frame cause

/-- No frame is missed that is there. -/
theorem fill_ne_inconsistent (m : Model) (plan : Plan) (f : Frame) (s : Store)
    (cause : Inconsistency) : (m.fill plan (some f) s).1 ≠ .error (.inconsistent cause) := by
  intro h
  rcases fill_cause h with h | ⟨operand, h⟩ | ⟨cause, h⟩
  · cases placeInput_refusal h
  · cases h
  · cases h

section

variable {P : Array Operand → Prop} {layers : List Layer} {index : Nat}
  (hstep : ∀ l ∈ layers, ∀ s : Store, P s.operands → (l.exec s).1 = .ok () →
    P (l.exec s).2.operands)

include hstep

/-- What each layer that succeeds keeps, layers keep one after the other. -/
theorem runLayers_keeps (h : P s.operands) (hok : (runLayers layers s index).1 = .ok ()) :
    P (runLayers layers s index).2.operands := by
  induction layers generalizing s index with
  | nil => exact h
  | cons l layers ih =>
    obtain ⟨hfirst, hstep⟩ := List.forall_mem_cons.1 hstep
    have hnext := hfirst s h
    simp only [runLayers] at hok ⊢
    generalize l.exec s = x at hok hnext ⊢
    rcases x with ⟨_ | _, t⟩
    · cases hok
    · exact ih hstep (hnext rfl) hok

/-- Where layers fail, one of them does, on what those before it have kept. -/
theorem runLayers_failure (h : P s.operands) (he : (runLayers layers s index).1 = .error e) :
    ∃ l ∈ layers, ∃ i t cause, P (Store.operands t) ∧ (l.exec t).1 = .error cause ∧
      e = .layer i l.kind cause := by
  induction layers generalizing s index with
  | nil => cases he
  | cons l layers ih =>
    obtain ⟨hfirst, hstep⟩ := List.forall_mem_cons.1 hstep
    have hnext := hfirst s h
    simp only [runLayers] at he
    rcases hexec : l.exec s with ⟨cause | _, t⟩
    · rw [hexec] at he
      cases he
      exact ⟨l, List.mem_cons_self, index, s, cause, h, congrArg Prod.fst hexec, rfl⟩
    · rw [hexec] at he hnext
      obtain ⟨l', hl', hfails⟩ := ih hstep (hnext rfl) he
      exact ⟨l', List.mem_cons_of_mem l hl', hfails⟩

end

theorem deliver_failure (h : (m.deliver plan xs name frames).1 = .error e) :
    DeliverFailure m plan xs frames [name] e := by
  have hmem : name ∈ [name] := List.mem_singleton_self name
  unfold deliver at h
  cases hfind : xs.find? (·.name == name) with
  | none =>
    rw [hfind] at h
    cases h
    exact .noOutput hmem hfind
  | some o =>
    have hname : o.name = name := by simpa using Array.find?_some hfind
    rw [hfind] at h
    cases hconverts : plan.converts with
    | false =>
      simp only [hconverts, Bool.false_eq_true, if_false] at h
      cases hframe : frames.output with
      | none =>
        rw [hframe] at h
        cases h
        exact .noOutputFrame hconverts hframe
      | some =>
        rw [hframe] at h
        cases h
    | true =>
      simp only [hconverts, if_true] at h
      cases hdata : o.data with
      | none =>
        simp only [Operand.values, hdata] at h
        cases h
        rw [hname]
        exact .emptyOutput hmem hconverts hfind hdata
      | some values =>
        simp only [Operand.values, hdata] at h
        cases hframe : m.resultFrame frames with
        | none =>
          rw [hframe] at h
          cases h
          exact .noFrameToFill hconverts hframe
        | some frame =>
          simp only [hframe] at h
          generalize (m.processor.store _ frame m.purpose).1 = result at h
          cases result with
          | error cause =>
            cases h
            exact .frame cause
          | ok => cases h

theorem withResultFrame_stay (m : Model) (frames : Frames) (f : Frame) :
    frames.Stay (m.withResultFrame frames f) := by
  unfold withResultFrame
  cases m.purpose with
  | process => exact ⟨id, fun _ => rfl⟩
  | detect => exact ⟨fun _ => rfl, id⟩
  | classify => exact ⟨fun _ => rfl, id⟩

/-- An inference never takes a frame away. -/
theorem deliver_stay (m : Model) (plan : Plan) (xs : Array Operand) (name : String)
    (frames : Frames) : frames.Stay (m.deliver plan xs name frames).2 := by
  unfold deliver
  split
  · exact .refl frames
  · cases plan.converts with
    | true =>
      simp only [if_true]
      split
      · exact .refl frames
      · split
        · exact .refl frames
        · exact m.withResultFrame_stay frames _
    | false =>
      simp only [Bool.false_eq_true, if_false]
      split
      · exact .refl frames
      · exact ⟨id, fun _ => rfl⟩

theorem deliverAll_stay (m : Model) (plan : Plan) (xs : Array Operand) (names : List String)
    (frames : Frames) : frames.Stay (m.deliverAll plan xs names frames).2 := by
  induction names generalizing frames with
  | nil => exact .refl frames
  | cons name names ih =>
    have hfirst := m.deliver_stay plan xs name frames
    simp only [deliverAll]
    generalize m.deliver plan xs name frames = x at hfirst ⊢
    rcases x with ⟨_ | _, frames'⟩
    · exact hfirst
    · exact hfirst.trans (ih frames')

theorem infer_stay (m : Model) (plan : Plan) (frames : Frames) (s : Store) :
    frames.Stay (m.infer plan frames s).2.1 := by
  unfold infer
  rcases runLayers m.graph.layers s with ⟨_ | _, t⟩
  · exact .refl frames
  · exact m.deliverAll_stay plan t.operands plan.outputs frames

theorem deliverAll_failure {names : List String}
    (h : (m.deliverAll plan xs names frames).1 = .error e) :
    DeliverFailure m plan xs frames names e := by
  induction names generalizing frames with
  | nil => cases h
  | cons name names ih =>
    simp only [deliverAll] at h
    have hstay := m.deliver_stay plan xs name frames
    rcases hfirst : m.deliver plan xs name frames with ⟨e' | _, frames'⟩
    · rw [hfirst] at h
      cases h
      have hfailure := deliver_failure (congrArg Prod.fst hfirst)
      exact hfailure.mono (List.cons_subset_cons name (List.nil_subset names)) (.refl frames)
    · rw [hfirst] at h hstay
      exact (ih h).mono (List.subset_cons_self name names) hstay

theorem infer_failure (h : (m.infer plan frames s).1 = .error e) :
    InferFailure m plan frames s e := by
  unfold infer at h
  rcases hlayers : runLayers m.graph.layers s with ⟨e' | _, t⟩
  · rw [hlayers] at h
    cases h
    obtain ⟨l, -, i, -, cause, -, -, rfl⟩ := runLayers_failure (P := fun _ => True)
      (fun _ _ _ _ _ => trivial) trivial (congrArg Prod.fst hlayers)
    exact .layer i l.kind cause
  · rw [hlayers] at h
    refine .deliver (by rw [hlayers]) ?_
    rw [hlayers]
    exact deliverAll_failure h

end Model

theorem Session.checkRequest_refusal {m : Model} {r : Request} {e : Error}
    (h : checkRequest m r = .error e) : Refusal e := by
  unfold checkRequest at h
  split at h
  · cases h
    exact .badArgument _
  · split at h
    · cases h
      exact .badArgument _
    · cases h
  · cases h
    exact .unsupported _

end Inference
