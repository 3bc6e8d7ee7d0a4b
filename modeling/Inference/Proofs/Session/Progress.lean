import Inference.Proofs.Layer.Buffers
import Inference.Proofs.Session.Failure
import Inference.Proofs.Session.Serve
/-! How far an inference comes, and how many buffers it takes on the way: one for its input and one
for each layer that it gets through. -/
namespace Inference

/-- Where an inference stopped: before its input had a buffer, at the conversion of its frame into
it, at a layer, or nowhere before all layers had run. -/
inductive Progress where
  | unplaced
  | unconverted
  | stopped (layer : Nat)
  | through
  deriving DecidableEq

namespace Progress

/-- The buffers taken on the way through so many layers. -/
def buffers (layers : Nat) : Progress → Nat
  | .unplaced => 0
  | .unconverted => 1
  | .stopped layer => 1 + layer
  | .through => 1 + layers

/-- What a failure to fill the input tells. -/
def ofFill : Error → Progress
  | .frame _ => .unconverted
  | _ => .unplaced

/-- What the result of the layers and of handing the outputs over tells. -/
def ofInfer : Except Error Unit → Progress
  | .error (.layer index _ _) => .stopped index
  | _ => .through

theorem ofInfer_mapError (result : Except FrameError Unit) :
    ofInfer (result.mapError .frame) = .through := by
  cases result <;> rfl

theorem ofFill_placeFailure {e : Error} (h : PlaceFailure e) : ofFill e = .unplaced := by
  cases h <;> rfl

end Progress

namespace Model

variable {m : Model} {plan : Plan} {frame : Option Frame} {frames : Frames} {s : Store}
  {xs : Array Operand} {name : String}

def progress (m : Model) (plan : Plan) (frames : Frames) (s : Store) : Progress :=
  match m.fill plan frames.input s with
  | (.error e, _) => .ofFill e
  | (.ok _, s) => .ofInfer (m.infer plan frames s).1

/-- The index of the operand that is to be filled is one of the table. -/
theorem placeInput_operand {i : Nat} {o : Operand} {f : Frame} {dims : Dims}
    (h : m.placeInput xs name frame = .ok (i, o, f, dims)) : xs[i]? = some o :=
  (fillable_eq_ok.1 (placeInput_eq_ok.1 h).1).2.2.1

/-- Filling takes one buffer, also where the conversion into it fails, and before that none. -/
theorem fill_took (m : Model) (plan : Plan) (frame : Option Frame) (s : Store) :
    (m.fill plan frame s).1 = .ok () ∧ Store.Took 1 s (m.fill plan frame s).2 ∨
      ∃ e, (m.fill plan frame s).1 = .error e ∧
        Store.Took ((Progress.ofFill e).buffers m.graph.layers.length) s
          (m.fill plan frame s).2 := by
  have hfills := m.fills plan frame s
  generalize m.fill plan frame s = x at hfills ⊢
  cases hfills with
  | refused hplace =>
    refine .inr ⟨_, rfl, ?_⟩
    rw [Progress.ofFill_placeFailure (placeInput_failure hplace)]
    exact .refl s
  | overlong hplace => exact .inr ⟨_, rfl, .keep (placeInput_operand hplace) rfl⟩
  | unloaded hplace => exact .inr ⟨_, rfl, .replace (placeInput_operand hplace) rfl⟩
  | filled hplace => exact .inl ⟨rfl, .replace (placeInput_operand hplace) rfl⟩

/-- Layers take one buffer each up to the one that fails. -/
theorem runLayers_took (layers : List Layer) (s : Store) (index : Nat) :
    (runLayers layers s index).1 = .ok () ∧
        Store.Took layers.length s (runLayers layers s index).2 ∨
      ∃ n kind e, (runLayers layers s index).1 = .error (.layer (index + n) kind e) ∧
        Store.Took n s (runLayers layers s index).2 := by
  induction layers generalizing s index with
  | nil => exact .inl ⟨rfl, .refl s⟩
  | cons l layers ih =>
    have hfirst := l.exec_took s
    simp only [runLayers]
    generalize l.exec s = x at hfirst ⊢
    rcases x with ⟨_ | _, t⟩
    · exact .inr ⟨0, _, _, rfl, hfirst⟩
    · rcases ih t (index + 1) with ⟨hok, hrest⟩ | ⟨n, kind, e, herror, hrest⟩
      · refine .inl ⟨hok, ?_⟩
        rw [List.length_cons, Nat.add_comm]
        exact hfirst.trans hrest
      · refine .inr ⟨1 + n, kind, e, ?_, hfirst.trans hrest⟩
        rw [herror, Nat.add_assoc]

theorem deliver_result (plan : Plan) (xs : Array Operand) (name : String) (frames : Frames) :
    Progress.ofInfer (m.deliver plan xs name frames).1 = .through := by
  unfold deliver
  split
  · rfl
  next o _ =>
    cases plan.converts with
    | false =>
      simp only [Bool.false_eq_true, if_false]
      split <;> rfl
    | true =>
      simp only [if_true]
      split
      · rfl
      · split
        · rfl
        · exact Progress.ofInfer_mapError _

theorem deliverAll_result (plan : Plan) (xs : Array Operand) (names : List String)
    (frames : Frames) : Progress.ofInfer (m.deliverAll plan xs names frames).1 = .through := by
  induction names generalizing frames with
  | nil => rfl
  | cons name names ih =>
    have hfirst := deliver_result (m := m) plan xs name frames
    simp only [deliverAll]
    generalize m.deliver plan xs name frames = x at hfirst ⊢
    rcases x with ⟨_ | _, frames⟩
    · exact hfirst
    · exact ih frames

/-- Together with the one of the input, an inference has taken as many buffers as its result
says. -/
theorem infer_took (m : Model) (plan : Plan) (frames : Frames) (s : Store) :
    ∃ n, (Progress.ofInfer (m.infer plan frames s).1).buffers m.graph.layers.length = 1 + n ∧
      Store.Took n s (m.infer plan frames s).2.2 := by
  have hlayers := runLayers_took m.graph.layers s 0
  unfold infer
  generalize runLayers m.graph.layers s = x at hlayers ⊢
  rcases x with ⟨_ | _, t⟩
  · rcases hlayers with ⟨hok, -⟩ | ⟨n, kind, e, herror, htook⟩
    · cases hok
    · cases herror
      refine ⟨n, ?_, htook⟩
      simp [Progress.ofInfer, Progress.buffers]
  · rcases hlayers with ⟨-, htook⟩ | ⟨n, kind, e, herror, -⟩
    · refine ⟨m.graph.layers.length, ?_, htook⟩
      rw [deliverAll_result]
      rfl
    · cases herror

theorem serve_took (m : Model) (plan : Plan) (frames : Frames) (s : Store) :
    Store.Took ((m.progress plan frames s).buffers m.graph.layers.length) s
      (m.serve plan frames s).2.2 := by
  have hfill := m.fill_took plan frames.input s
  unfold progress serve
  generalize m.fill plan frames.input s = x at hfill ⊢
  rcases x with ⟨_ | _, t⟩
  · rcases hfill with ⟨hok, -⟩ | ⟨e, herror, htook⟩
    · cases hok
    · cases herror
      exact htook
  · rcases hfill with ⟨-, htook⟩ | ⟨e, herror, -⟩
    · obtain ⟨n, hn, hrest⟩ := m.infer_took plan frames t
      rw [hn]
      exact htook.trans hrest
    · cases herror

end Model
end Inference
