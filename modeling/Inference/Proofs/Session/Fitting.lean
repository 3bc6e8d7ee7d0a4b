import Inference.Proofs.Layer.Coherence
import Inference.Proofs.Session.Run
import Inference.Proofs.Session.Serve
/-! During an inference all operands that hold values are coherent, and between inferences no operand
of a slot holds values. -/
namespace Inference

/-- No operand holds values. -/
def AllEmpty (xs : Array Operand) : Prop := ∀ o ∈ xs, o.data = none

theorem AllEmpty.coherent {xs : Array Operand} (h : AllEmpty xs) : AllCoherent xs := by
  intro o ho values hdata
  rw [h o ho] at hdata
  cases hdata

theorem AllEmpty.fit {xs : Array Operand} (h : AllEmpty xs) : AllFit xs := h.coherent.fit

theorem allEmpty_emptied (xs : Array Operand) : AllEmpty (emptied xs) := by
  intro o ho
  obtain ⟨p, -, rfl⟩ := Array.mem_map.1 ho
  rfl

namespace Model

variable {m : Model} {plan : Plan} {frame : Option Frame} {f : Frame} {s : Store}

/-- A filled input has the dims of its frame, and as many values as they ask for. -/
theorem fill_ok_values (h : (m.fill plan frame s).1 = .ok ()) :
    ∃ i o f dims length values, m.placeInput s.operands plan.input frame = .ok (i, o, f, dims) ∧
      dims.byteLength? = some length ∧ values.size = length / 4 ∧
      (m.fill plan frame s).2.operands =
        s.operands.setIfInBounds i { o with dims, length, data := some values } := by
  have hfills := m.fills plan frame s
  generalize m.fill plan frame s = x at h hfills ⊢
  cases hfills with
  | filled hplace hlength hsize => exact ⟨_, _, _, _, _, _, hplace, hlength, hsize, rfl⟩
  | _ => cases h

/-- What is known of a filled input. -/
theorem fill_ok_dims (h : (m.fill plan (some f) s).1 = .ok ()) :
    ∃ i o dims, m.placeInput s.operands plan.input (some f) = .ok (i, o, f, dims) ∧
      dims.Positive ∧ 4 * dims.volume ≤ 2147483647 ∧ dims.byteLength? = some (4 * dims.volume) ∧
      dims.batch = 1 ∧ dims.height.toNatClampNeg = f.height ∧
      dims.width.toNatClampNeg = f.width ∧ dims.channels = o.dims.channels := by
  obtain ⟨i, o, f', dims, length, values, hplace, hlength, -, -⟩ := fill_ok_values h
  obtain ⟨-, hframe, hdims⟩ := placeInput_eq_ok.1 hplace
  cases hframe
  obtain ⟨hpos, hle, rfl⟩ := Dims.byteLength?_eq_some.1 hlength
  exact ⟨i, o, dims, hplace, hpos, hle, hlength, frameDims_eq_ok hdims⟩

/-- Whether a frame is loaded or not, the new values of the input are coherent with it. -/
theorem fill_coherent (h : AllEmpty s.operands) (plan : Plan) (frame : Option Frame) :
    AllCoherent (m.fill plan frame s).2.operands := by
  have hplaced : ∀ {i o f dims length} {values : Array Single},
      m.placeInput s.operands plan.input frame = .ok (i, o, f, dims) →
      dims.byteLength? = some length → values.size = length / 4 →
      AllCoherent (s.operands.setIfInBounds i { o with dims, length, data := some values }) := by
    intro i o f dims length values hplace hlength hsize
    obtain ⟨hfill, -, hdims⟩ := placeInput_eq_ok.1 hplace
    obtain ⟨-, -, -, -, htype, -⟩ := fillable_eq_ok.1 hfill
    obtain ⟨hpos, hle, rfl⟩ := Dims.byteLength?_eq_some.1 hlength
    have hcount : values.size = dims.volume := by omega
    refine h.coherent.set ?_ i
    rintro _ ⟨⟩
    exact ⟨(frameDims_eq_ok hdims).1, hpos, htype, rfl, hle, hcount⟩
  have hfills := m.fills plan frame s
  generalize m.fill plan frame s = x at hfills ⊢
  cases hfills with
  | refused => exact h.coherent
  | unloaded hplace hlength => exact hplaced hplace hlength Array.size_replicate
  | filled hplace hlength hsize => exact hplaced hplace hlength hsize
  | overlong hplace =>
    -- the dims may be anything, as there were no values before
    obtain ⟨hfill, -, -⟩ := placeInput_eq_ok.1 hplace
    obtain ⟨-, -, ho, -⟩ := fillable_eq_ok.1 hfill
    refine h.coherent.set (fun values hdata => ?_) _
    rw [Option.mem_def, h _ (Array.mem_of_getElem? ho)] at hdata
    cases hdata

theorem fill_fits (h : AllFit s.operands) (hok : (m.fill plan frame s).1 = .ok ()) :
    AllFit (m.fill plan frame s).2.operands := by
  obtain ⟨i, o, f, dims, length, values, -, hlength, hsize, hs⟩ := fill_ok_values hok
  rw [hs]
  refine h.set ?_ i
  rintro values' ⟨⟩
  obtain ⟨-, -, hvolume⟩ := Dims.byteLength?_eq_some.1 hlength
  refine ⟨hlength, ?_⟩
  simp only [hsize]
  omega

theorem runLayers_fits {layers : List Layer} {index : Nat} (h : AllFit s.operands)
    (hok : (runLayers layers s index).1 = .ok ()) :
    AllFit (runLayers layers s index).2.operands :=
  runLayers_keeps (fun _ _ _ => Layer.exec_fits) h hok

theorem compute_fits (h : AllFit s.operands) (hok : (m.compute plan frame s).1 = .ok ()) :
    AllFit (m.compute plan frame s).2.operands := by
  have hfilled : (m.fill plan frame s).1 = .ok () → AllFit (m.fill plan frame s).2.operands :=
    fill_fits h
  unfold compute at hok ⊢
  generalize m.fill plan frame s = x at hok hfilled ⊢
  rcases x with ⟨_ | _, t⟩
  · cases hok
  · exact runLayers_fits (hfilled rfl) hok

/-- Free slots hold no values, and those of the jobs are coherent. -/
def coherence (m : Model) : Warrant m := SlotWarrant.warrant {
  Free := AllEmpty
  Filled _ := AllCoherent
  fresh := allEmpty_emptied m.graph.operands
  again _ := allEmpty_emptied _
  fill_ok hfree _ := fill_coherent hfree _ _
  fill_error _ _ := allEmpty_emptied _
  infer _ := allEmpty_emptied _
  measure _ := allEmpty_emptied _ }

end Model

namespace Session

variable {m : Model} {s : Session}

theorem Reachable.free_empty (h : Reachable m s) {slot : Slot} (hslot : slot ∈ s.free) :
    AllEmpty slot.operands := by
  obtain ⟨commands, rfl⟩ := h
  exact ((Tracked.start m.coherence).run commands).1.free slot hslot

theorem Reachable.jobs_coherent (h : Reachable m s) {job : Job} (hjob : job ∈ s.jobs) :
    AllCoherent job.slot.operands := by
  obtain ⟨commands, rfl⟩ := h
  obtain ⟨r, -, hcoherent⟩ := ((Tracked.start m.coherence).run commands).1.jobs job hjob
  exact hcoherent

end Session
end Inference
