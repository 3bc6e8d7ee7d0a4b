import Inference.Proofs.Session.Failure
import Inference.Proofs.Session.Tracked
/-! Serving one request or probe on the operands of a slot, and what that leaves behind for the
next. -/
namespace Inference

open Operand

namespace Model

variable {m : Model} {s s' : Store} {plan : Plan} {frames : Frames} {xs : Array Operand}

/-- The input is filled and the layers run, up to the first that fails. -/
def compute (m : Model) (plan : Plan) (frame : Option Frame) (s : Store) :
    Except Error Unit × Store :=
  match m.fill plan frame s with
  | (.error e, s) => (.error e, s)
  | (.ok _, s) => runLayers m.graph.layers s

/-- A whole inference: the input is filled, the layers run, the outputs are handed over. -/
def serve (m : Model) (plan : Plan) (frames : Frames) (s : Store) :
    Except Error Unit × Frames × Store :=
  match m.fill plan frames.input s with
  | (.error e, s) => (.error e, frames, s)
  | (.ok _, s) => m.infer plan frames s

/-- An inference fails as filling does, or as what comes after. -/
theorem serve_failure {e : Error} (h : (m.serve plan frames s).1 = .error e) :
    (m.fill plan frames.input s).1 = .error e ∨ (m.fill plan frames.input s).1 = .ok () ∧
      InferFailure m plan frames (m.fill plan frames.input s).2 e := by
  unfold serve at h
  rcases hfill : m.fill plan frames.input s with ⟨e' | _, t⟩
  · rw [hfill] at h
    exact .inl h
  · rw [hfill] at h
    exact .inr ⟨rfl, infer_failure h⟩

theorem serve_alike (plan : Plan) (frames : Frames) (h : AllAlike s.operands s'.operands)
    (hin : SameInput plan.input s.operands s'.operands)
    (hdims : plan.converts = false → (m.compute plan frames.input s).1 = .ok () →
      (m.compute plan frames.input s').1 = .ok () → ∀ name ∈ plan.outputs, SameDims name
        (m.compute plan frames.input s).2.operands (m.compute plan frames.input s').2.operands) :
    Concordant (m.serve plan frames s).1 (m.serve plan frames s').1 ∧
      (m.serve plan frames s).2.1 = (m.serve plan frames s').2.1 ∧
      AllAlike (m.serve plan frames s).2.2.operands (m.serve plan frames s').2.2.operands := by
  obtain ⟨hfill, htable⟩ := fill_alike (m := m) h hin frames.input
  unfold serve
  unfold compute at hdims
  generalize m.fill plan frames.input s = x, m.fill plan frames.input s' = y
    at hfill htable hdims
  obtain ⟨result, t⟩ := x
  obtain ⟨result', t'⟩ := y
  cases hfill with
  | error => exact ⟨.error trivial, rfl, htable⟩
  | ok => exact infer_alike plan htable hdims frames

/-- Facts about operands of slots alone that one operation of a model hands on to the next. -/
structure SlotWarrant (m : Model) where
  Free : Array Operand → Prop
  Filled : Request → Array Operand → Prop
  fresh : Free (Slot.fresh m.graph.operands).operands
  again : ∀ {xs}, Free xs → Free (emptied xs)
  fill_ok : ∀ {r : Request} {s : Store}, Free s.operands →
    (m.fill r.plan r.frames.input s).1 = .ok () →
    Filled r (m.fill r.plan r.frames.input s).2.operands
  fill_error : ∀ {r : Request} {s : Store} {e}, Free s.operands →
    (m.fill r.plan r.frames.input s).1 = .error e →
    Free (emptied (m.fill r.plan r.frames.input s).2.operands)
  infer : ∀ {r : Request} {s : Store}, Filled r s.operands →
    Free (emptied (m.infer r.plan r.frames s).2.2.operands)
  measure : ∀ {plan : Plan} {frame : Frame} {s : Store}, Free s.operands →
    Free (emptied (Session.measure m plan frame s).2.operands)

/-- Of an ended inference no more is said than that its input frame is there. -/
def SlotWarrant.warrant (w : SlotWarrant m) : Warrant m where
  Free := w.Free
  Filled := w.Filled
  Served _ _ frames := frames.input.isSome
  fresh := w.fresh
  again := w.again
  fill_ok := w.fill_ok
  fill_error hfree he := ⟨w.fill_error hfree he, rfl⟩
  infer hfilled := ⟨w.infer hfilled, (m.infer_stay _ _ _).input rfl⟩
  measure := w.measure
  input := id

theorem serve_stay (m : Model) (plan : Plan) (frames : Frames) (s : Store) :
    frames.Stay (m.serve plan frames s).2.1 := by
  unfold serve
  rcases m.fill plan frames.input s with ⟨_ | _, t⟩
  · exact .refl frames
  · exact m.infer_stay plan frames t

theorem Kept.serve (h : m.Kept s.operands) (plan : Plan) (frames : Frames) :
    m.Kept (m.serve plan frames s).2.2.operands := by
  have hfilled := h.fill plan frames.input
  unfold Model.serve
  generalize m.fill plan frames.input s = x at hfilled ⊢
  rcases x with ⟨_ | _, t⟩
  · exact hfilled
  · exact Kept.infer hfilled frames

/-- A probe is an inference of which the size of the output frame is kept. -/
theorem measure_eq_serve (m : Model) (plan : Plan) (frame : Frame) (s : Store) :
    Session.measure m plan frame s =
      match m.serve plan ⟨some frame, some frame⟩ s with
      | (.error e, _, s) => (.error e, s)
      | (.ok _, ⟨_, none⟩, s) => (.error (.inconsistent .lostProbeFrame), s)
      | (.ok _, ⟨_, some output⟩, s) => (.ok (output.width, output.height), s) := by
  unfold Session.measure serve
  rcases m.fill plan (some frame) s with ⟨_ | _, t⟩ <;> rfl

/-- The output frame of a probe is there, so that a probe fails only as its inference does. -/
theorem measure_failure {frame : Frame} {e : Error}
    (h : (Session.measure m plan frame s).1 = .error e) :
    (m.serve plan ⟨some frame, some frame⟩ s).1 = .error e := by
  have hstay := m.serve_stay plan ⟨some frame, some frame⟩ s
  rw [measure_eq_serve] at h
  generalize m.serve plan ⟨some frame, some frame⟩ s = x at h hstay ⊢
  rcases x with ⟨e' | _, ⟨_, _ | _⟩, t⟩
  · cases h
    rfl
  · cases h
    rfl
  · cases hstay.output_eq_none rfl
  · cases h

theorem measure_of_fill_error {f : Frame} {e : Error}
    (h : (m.fill plan (some f) s).1 = .error e) :
    (Session.measure m plan f s).1 = .error e := by
  unfold Session.measure
  generalize m.fill plan (some f) s = x at h
  rcases x with ⟨e' | _, t⟩
  · cases h
    rfl
  · cases h

theorem measure_operands (m : Model) (plan : Plan) (frame : Frame) (s : Store) :
    (Session.measure m plan frame s).2 = (m.serve plan ⟨some frame, some frame⟩ s).2.2 := by
  rw [measure_eq_serve]
  rcases m.serve plan ⟨some frame, some frame⟩ s with ⟨_ | _, ⟨_, _ | _⟩, t⟩ <;> rfl

/-- Tables of a model that hold no values differ in their descriptors alone. -/
theorem Kept.alike {ys : Array Operand} (hx : m.Kept xs) (hy : m.Kept ys) :
    AllAlike (emptied xs) (emptied ys) := by
  intro i
  have hi := hx i
  have hi' := hy i
  simp only [emptied, Array.getElem?_map]
  generalize m.graph.operands[i]? = o, xs[i]? = x, ys[i]? = y at hi hi'
  cases hi with
  | none => cases hi'; exact .none
  | some hop =>
    cases hi' with
    | some hoq =>
      exact .some (.empty (hop.name.symm.trans hoq.name) (hop.kind.symm.trans hoq.kind)
        (hop.nhwc.symm.trans hoq.nhwc) rfl rfl)

/-- No layer writes into an operand that takes inputs. -/
def KeepsInputs (m : Model) : Prop :=
  ∀ l ∈ m.graph.layers, ∀ o ∈ m.graph.operands[l.output]?, o.kind ≠ .input

instance (m : Model) : Decidable m.KeepsInputs :=
  inferInstanceAs (Decidable (∀ l ∈ m.graph.layers, ∀ o ∈ m.graph.operands[l.output]?, _))

/-- No layer writes into an operand with this name that takes inputs. -/
def KeepsInput (m : Model) (name : String) : Prop :=
  ∀ l ∈ m.graph.layers, findOperand? m.graph.operands name = some l.output →
    ∀ o ∈ m.graph.operands[l.output]?, o.kind ≠ .input

theorem KeepsInputs.keepsInput (h : m.KeepsInputs) (name : String) : m.KeepsInput name :=
  fun l hl _ => h l hl

theorem Kept.sameInput {ys : Array Operand} {name : String} (hx : m.Kept xs) (hy : m.Kept ys)
    (h : m.KeepsInput name) : SameInput name xs ys := by
  intro i o p hi ho hp hkind
  have hfind := hx.findOperand?_eq (fun _ _ _ hop => hop.name) name
  obtain ⟨q, hq, hqo⟩ := hx.of_getElem?_right ho
  obtain ⟨p', hp', hqp⟩ := hy.of_getElem?_some hq
  cases hp.symm.trans hp'
  have hunwritten : ∀ l ∈ m.graph.layers, l.output ≠ i := by
    rintro l hl rfl
    exact h l hl (hfind.trans hi) q hq (hqo.kind.trans hkind)
  obtain ⟨htype, hchannels⟩ := hqo.input hunwritten
  obtain ⟨htype', hchannels'⟩ := hqp.input hunwritten
  exact ⟨htype.symm.trans htype', hchannels.symm.trans hchannels'⟩

end Model

namespace Session

variable {m : Model} {r : Request} {s : Session} {slot : Slot} {work : Work} {free : List Slot}
  {tasks : List Task} {ticket : Nat}

/-- Dispatching answers how filling the input went, or the whole inference where it runs at once. -/
theorem dispatch_result (m : Model) (slot : Slot) {waiting : List Work}
    (hwaiting : s.waiting = work :: waiting)
    (hfind : s.tasks.find? (·.ticket == work.ticket) = some (r.task work.ticket)) (async : Bool) :
    (dispatch m slot async s).1 =
      if async then (m.fill work.plan r.frames.input ⟨slot.operands, s.ledger⟩).1
      else (m.serve work.plan r.frames ⟨slot.operands, s.ledger⟩).1 := by
  obtain ⟨filled, store, hfill, hcases⟩ := dispatch_cases m slot work s hwaiting async
  rw [frames_of_find hfind] at hfill
  rcases hcases with ⟨e, rfl, heq⟩ | ⟨rfl, rfl, heq⟩ | ⟨rfl, rfl, heq⟩
  · unfold Model.serve
    rw [heq, hfill]
    exact (ite_self _).symm
  · rw [heq, hfill]
    rfl
  · let t : Session := { s with waiting, ledger := store.ledger }
    have hframes : t.frames work.ticket = r.frames := frames_of_find hfind
    unfold Model.serve
    rw [heq, hfill]
    rcases hinfer : m.infer work.plan r.frames store with ⟨result, frames, store'⟩
    have hrun := runInference_eq m ⟨store.operands, some work⟩ work t (hframes ▸ hinfer)
    rw [hrun]
    cases result with
    | error e => simp only [Bool.false_eq_true, if_false, hinfer]
    | ok =>
      have hdone := find_updateTask { t with ledger := store'.ledger } work.ticket
        (f := Task.settle (.ok ()) frames) fun _ => rfl
      rw [show ({ t with ledger := store'.ledger } : Session).tasks.find? _ = _ from hfind] at hdone
      simp only [Bool.false_eq_true, if_false, hinfer]
      exact checkFinished_eq_ok hdone rfl

/-- The task of the newest request is found by its ticket, which no other has. -/
theorem find_last (htasks : s.tasks = tasks ++ [r.task ticket])
    (hfresh : ∀ t ∈ tasks, t.ticket ≠ ticket) :
    s.tasks.find? (·.ticket == ticket) = some (r.task ticket) := by
  have hnone : tasks.find? (·.ticket == ticket) = none := by
    simpa [List.find?_eq_none] using hfresh
  rw [htasks, List.find?_append, hnone]
  simp [Request.task]

theorem updateTask_last (htasks : s.tasks = tasks ++ [r.task ticket])
    (hfresh : ∀ t ∈ tasks, t.ticket ≠ ticket) (f : Task → Task) :
    (s.updateTask ticket f).tasks = tasks ++ [f (r.task ticket)] := by
  have hsame : tasks.map (fun t => if t.ticket = ticket then f t else t) = tasks := by
    refine (List.map_congr_left fun t ht => ?_).trans (List.map_id tasks)
    exact if_neg (hfresh t ht)
  simp only [updateTask, htasks, List.map_append, hsame]
  simp [Request.task]

theorem runInference_last (m : Model) (slot : Slot) (htasks : s.tasks = tasks ++ [r.task ticket])
    (hfresh : ∀ t ∈ tasks, t.ticket ≠ ticket) :
    (runInference m slot ⟨ticket, r.plan⟩ s).2.tasks = tasks ++
      [r.settledTask ticket (m.infer r.plan r.frames ⟨slot.operands, s.ledger⟩).1.toBool
        (m.infer r.plan r.frames ⟨slot.operands, s.ledger⟩).2.1] := by
  have hframes := frames_of_find (find_last htasks hfresh)
  rcases hinfer : m.infer r.plan r.frames ⟨slot.operands, s.ledger⟩ with ⟨result, frames, store⟩
  rw [runInference_eq m slot ⟨ticket, r.plan⟩ s (hframes ▸ hinfer)]
  have hlast := updateTask_last (s := { s with ledger := store.ledger }) htasks hfresh
    (Task.settle result frames)
  cases result with
  | error => exact hlast
  | ok => exact hlast

theorem dispatch_last (m : Model) (slot : Slot) (htasks : s.tasks = tasks ++ [r.task ticket])
    (hfresh : ∀ t ∈ tasks, t.ticket ≠ ticket) (hwaiting : s.waiting = [⟨ticket, r.plan⟩]) :
    (dispatch m slot false s).2.tasks = tasks ++
      [r.settledTask ticket (m.serve r.plan r.frames ⟨slot.operands, s.ledger⟩).1.toBool
        (m.serve r.plan r.frames ⟨slot.operands, s.ledger⟩).2.1] := by
  have hframes := frames_of_find (find_last htasks hfresh)
  obtain ⟨filled, store, hfill, hcases⟩ := dispatch_cases m slot ⟨ticket, r.plan⟩ s hwaiting false
  rw [hframes] at hfill
  unfold Model.serve
  rw [hfill]
  rcases hcases with ⟨e, rfl, heq⟩ | ⟨-, hfalse, -⟩ | ⟨rfl, -, heq⟩
  · rw [heq]
    exact updateTask_last (s := { s with waiting := [], ledger := store.ledger }) htasks hfresh _
  · cases hfalse
  · have hlast := runInference_last m ⟨store.operands, some ⟨ticket, r.plan⟩⟩
      (s := { s with waiting := [], ledger := store.ledger }) htasks hfresh
    rw [heq]
    split
    next hrun => rwa [hrun] at hlast
    next hrun => rwa [hrun] at hlast

/-- Where nothing waits, a request is served at once on the first slot. -/
theorem execute_at_once (hasync : m.options.async = false) (hcheck : checkRequest m r = .ok ())
    (hfresh : ∀ t ∈ s.tasks, t.ticket ≠ s.nextTicket) (hwaiting : s.waiting = [])
    (hfree : s.free = slot :: free) :
    (s.execute m r).1 = (m.serve r.plan r.frames ⟨slot.operands, s.ledger⟩).1 ∧
      (s.execute m r).2.tasks = s.tasks ++ [r.settledTask s.nextTicket
        (m.serve r.plan r.frames ⟨slot.operands, s.ledger⟩).1.toBool
        (m.serve r.plan r.frames ⟨slot.operands, s.ledger⟩).2.1] := by
  have hexecute : s.execute m r = dispatch m slot false { s.submit r with free } := by
    have hsubmit : (s.submit r).free = slot :: free := hfree
    simp only [execute, hcheck, hasync, dispatchNext, hsubmit]
  have htasks : ({ s.submit r with free } : Session).tasks = s.tasks ++ [r.task s.nextTicket] := rfl
  have hsubmitted : ({ s.submit r with free } : Session).waiting = [⟨s.nextTicket, r.plan⟩] := by
    simp [submit, hwaiting, Request.plan]
  rw [hexecute]
  exact ⟨dispatch_result m slot hsubmitted (find_last htasks hfresh) false,
    dispatch_last m slot htasks hfresh hsubmitted⟩

/-- Alone in a session, it can be had back then. -/
theorem getResult_execute (hasync : m.options.async = false) (hcheck : checkRequest m r = .ok ())
    (htasks : s.tasks = []) (hwaiting : s.waiting = []) (hfree : s.free = slot :: free) :
    (s.execute m r).2.getResult.1 =
      outcomeOf (m.serve r.plan r.frames ⟨slot.operands, s.ledger⟩).1.toBool
        (m.serve r.plan r.frames ⟨slot.operands, s.ledger⟩).2.1 := by
  have hserved := (execute_at_once hasync hcheck (by simp [htasks]) hwaiting hfree).2
  rw [htasks, List.nil_append] at hserved
  rw [getResult_settledTask hserved]

end Session
end Inference
