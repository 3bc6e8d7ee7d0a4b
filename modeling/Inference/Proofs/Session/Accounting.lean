import Inference.Proofs.Session.Progress
import Inference.Proofs.Session.Run
import Mathlib.Algebra.Order.Ring.Nat
/-! The accounts of buffers: what an inference takes it lets go by its end, so that at any time
there are as many buffers as jobs, each of them the filled input of its job. -/
namespace Inference

open Operand

/-- The table holds one buffer, in the named operand. -/
structure HoldsOnly (name : String) (xs : Array Operand) : Prop where
  count : xs.countP (·.data.isSome) = 1
  input : ∃ i o, findOperand? xs name = some i ∧ xs[i]? = some o ∧ o.data.isSome

theorem countP_emptied (xs : Array Operand) : (emptied xs).countP (·.data.isSome) = 0 := by
  refine Array.countP_eq_zero.2 fun o ho => ?_
  obtain ⟨p, -, rfl⟩ := Array.mem_map.1 ho
  exact nofun

namespace Model

variable {m : Model} {s : Store}

/-- On a slot without buffers, filling leaves the one of the input there. -/
theorem fill_holdsOnly (plan : Plan) (frame : Option Frame) (hempty : s.live = 0)
    (hok : (m.fill plan frame s).1 = .ok ()) : HoldsOnly plan.input
      (m.fill plan frame s).2.operands := by
  rcases m.fill_cases plan frame s with ⟨e, herror, -⟩ |
    ⟨i, o, p, hi, ho, -, hs, hop, -, -, hdata⟩
  · rw [hok] at herror
    cases herror
  · have hp := hdata hok
    have hlive := Store.live_set ho p
    have hnone : ¬o.data.isSome := Array.countP_eq_zero.1 hempty o (Array.mem_of_getElem? ho)
    rw [o.held_eq, p.held_eq, if_neg hnone, if_pos hp, hempty] at hlive
    have hlt := (Array.getElem?_eq_some_iff.1 ho).1
    have hnames : OthersUnchanged (· = i) s.operands (s.operands.setIfInBounds i p) := by
      refine .set fun q hq => ?_
      cases ho.symm.trans hq
      exact hop
    rw [hs]
    refine ⟨hlive, i, p, ?_, Array.getElem?_setIfInBounds_self_of_lt hlt, hp⟩
    rw [← TableRel.findOperand?_eq hnames (fun _ _ _ hsame => hsame.1.name) plan.input]
    exact hi

/-- Free slots hold no buffers, and those of jobs the one of the input. -/
def loading (m : Model) : Warrant m := SlotWarrant.warrant {
  Free xs := xs.countP (·.data.isSome) = 0
  Filled r := HoldsOnly r.input
  fresh := countP_emptied _
  again _ := countP_emptied _
  fill_ok hfree hok := fill_holdsOnly _ _ hfree hok
  fill_error _ _ := countP_emptied _
  infer _ := countP_emptied _
  measure _ := countP_emptied _ }

end Model

namespace Session

variable {m : Model} {s : Session} {slot : Slot} {work : Work} {n k : Nat}

/-- From one state to the other inferences ended that had taken so many buffers, all of which were
let go; beside these, one was taken for each job that was added. -/
structure Accounted (n : Nat) (s s' : Session) : Prop where
  released : s'.ledger.released = s.ledger.released + n
  allocated : s'.ledger.allocated + s.jobs.length = s.ledger.allocated + n + s'.jobs.length

/-- How far the inference of the work comes on a slot, unless it becomes a job. -/
def endingOn? (m : Model) (async : Bool) (slot : Slot) (work : Work) (s : Session) :
    Option Progress :=
  match m.fill work.plan (s.frames work.ticket).input ⟨slot.operands, s.ledger⟩ with
  | (.error e, _) => some (.ofFill e)
  | (.ok _, store) =>
    if async then none else some (.ofInfer (m.infer work.plan (s.frames work.ticket) store).1)

def dispatchEnding? (m : Model) (async : Bool) (s : Session) : Option Progress :=
  match s.free, s.waiting with
  | slot :: _, work :: _ => endingOn? m async slot work s
  | _, _ => none

/-- How far the inference comes that ends with a step, if one does. -/
def ending? (m : Model) (s : Session) : Command → Option Progress
  | .execute r =>
    match checkRequest m r with
    | .ok _ => dispatchEnding? m m.options.async (s.submit r)
    | .error _ => none
  | .flush => dispatchEnding? m true s
  | .getOutput input width height output =>
    match blankFrame width height, s.free with
    | .ok frame, slot :: _ =>
      some (m.progress { input, outputs := [output], converts := false } ⟨some frame, some frame⟩
        ⟨slot.operands, s.ledger⟩)
    | _, _ => none
  | .runJob place => s.jobs[place]?.map fun job => .ofInfer
      (m.infer job.work.plan (s.frames job.work.ticket) ⟨job.slot.operands, s.ledger⟩).1
  | .getResult | .getInput _ => none

/-- How far the inferences come that end in a run, in the order of their ends. -/
def endings (m : Model) (s : Session) : List Command → List Progress
  | [] => []
  | c :: commands => (ending? m s c).toList ++ endings m (step m s c).2 commands

/-- The buffers that these inferences take. -/
def spent (m : Model) (ends : List Progress) : Nat :=
  (ends.map (·.buffers m.graph.layers.length)).sum

theorem spent_singleton (m : Model) (x : Progress) :
    spent m [x] = x.buffers m.graph.layers.length := by
  simp [spent]

namespace Accounted

theorem same {s' : Session} (hledger : s'.ledger = s.ledger)
    (hjobs : s'.jobs.length = s.jobs.length) : Accounted 0 s s' := by
  refine ⟨by rw [hledger]; rfl, ?_⟩
  rw [hledger, hjobs]
  rfl

theorem trans {s' s'' : Session} (h : Accounted n s s') (h' : Accounted k s' s'') :
    Accounted (n + k) s s'' := by
  have hreleased := h.released
  have hreleased' := h'.released
  have hallocated := h.allocated
  have hallocated' := h'.allocated
  constructor <;> omega

/-- What was taken on a slot is let go with whatever the slot held before, when it is released. -/
theorem of_release {t : Store} (h : Store.Took n ⟨slot.operands, s.ledger⟩ t) (s' : Session)
    (hledger : s'.ledger = t.ledger) (hjobs : s'.jobs.length + slot.liveBuffers = s.jobs.length)
    (work : Option Work) :
    Accounted (slot.liveBuffers + n) s (s'.release ⟨t.operands, work⟩) := by
  have hallocated : t.ledger.allocated = s.ledger.allocated + n := h.allocated
  have hreleased : t.ledger.released + t.live = s.ledger.released + slot.liveBuffers + n :=
    h.released
  constructor
  · change s'.ledger.released + t.live = _
    rw [hledger]
    omega
  · change s'.ledger.allocated + _ = _ + _ + s'.jobs.length
    rw [hledger]
    omega

end Accounted

/-- An inference ends, whose input took the one buffer that its slot holds. -/
theorem runInference_accounted (filled : Slot) (work : Work) (s' : Session)
    (h : Store.Took k ⟨slot.operands, s.ledger⟩ ⟨filled.operands, s'.ledger⟩)
    (hone : slot.liveBuffers + k = 1)
    (hjobs : s'.jobs.length + slot.liveBuffers = s.jobs.length) :
    Accounted ((Progress.ofInfer (m.infer work.plan (s'.frames work.ticket)
        ⟨filled.operands, s'.ledger⟩).1).buffers m.graph.layers.length) s
      (runInference m filled work s').2 := by
  obtain ⟨n, hn, htook⟩ :=
    m.infer_took work.plan (s'.frames work.ticket) ⟨filled.operands, s'.ledger⟩
  rw [hn, ← hone, Nat.add_assoc]
  rcases hinfer : m.infer work.plan (s'.frames work.ticket) ⟨filled.operands, s'.ledger⟩ with
    ⟨result, frames, store⟩
  rw [hinfer] at htook
  rw [runInference_eq m filled work s' hinfer]
  exact .of_release (h.trans htook) ({ s' with ledger := store.ledger }.updateTask work.ticket
    (Task.settle result frames)) rfl hjobs filled.work

/-- A job is left with one buffer, and a dispatch that ends its inference leaves none. -/
theorem dispatch_accounted {waiting : List Work} (hempty : slot.liveBuffers = 0)
    (hwaiting : s.waiting = work :: waiting) (async : Bool) :
    Accounted (spent m (endingOn? m async slot work s).toList) s (dispatch m slot async s).2 := by
  have hfill := m.fill_took work.plan (s.frames work.ticket).input ⟨slot.operands, s.ledger⟩
  have hholds := Model.fill_holdsOnly (m := m) (s := ⟨slot.operands, s.ledger⟩) work.plan
    (s.frames work.ticket).input hempty
  have hjobs : s.jobs.length + slot.liveBuffers = s.jobs.length := by rw [hempty, Nat.add_zero]
  obtain ⟨filled, store, heq, hcases⟩ := dispatch_state m slot work s hwaiting async
  unfold endingOn?
  rw [heq] at hfill hholds ⊢
  rcases hfill with ⟨rfl, htook⟩ | ⟨e, rfl, htook⟩
  · rcases hcases with ⟨e, herror, -⟩ | ⟨-, rfl, hdispatch⟩ | ⟨-, rfl, hdispatch⟩
    · cases herror
    -- The one buffer was not let go: the job holds it, as its slot held none before.
    · have hallocated : store.ledger.allocated = s.ledger.allocated + 1 := htook.allocated
      have hreleased : store.ledger.released + store.live =
          s.ledger.released + slot.liveBuffers + 1 := htook.released
      have hheld : store.live = 1 := (hholds rfl).count
      rw [hdispatch]
      constructor
      · change store.ledger.released = s.ledger.released
        omega
      · change store.ledger.allocated + _ = s.ledger.allocated + 0 + _
        rw [List.length_append, List.length_singleton]
        omega
    · have hended := runInference_accounted (m := m) ⟨store.operands, some work⟩ work
        { s with waiting, ledger := store.ledger } htook (by rw [hempty]) hjobs
      rw [hdispatch]
      simp only [Bool.false_eq_true, if_false, Option.toList_some, spent_singleton]
      exact hended
  · rcases hcases with ⟨e', herror, hdispatch⟩ | ⟨hok, -⟩ | ⟨hok, -⟩
    · have hended := Accounted.of_release htook ({ s with waiting, ledger := store.ledger
        }.updateTask work.ticket ({ · with failed := true })) rfl hjobs (some work)
      rw [hdispatch, Option.toList_some, spent_singleton]
      rw [hempty, Nat.zero_add] at hended
      exact hended
    · cases hok
    · cases hok

theorem dispatchEnding?_of_nil (hwaiting : s.waiting = []) (async : Bool) :
    dispatchEnding? m async s = none := by
  unfold dispatchEnding?
  rw [hwaiting]
  cases s.free <;> rfl

theorem dispatchNext_accounted (hempty : ∀ slot ∈ s.free, slot.liveBuffers = 0) (async : Bool) :
    Accounted (spent m (dispatchEnding? m async s).toList) s (dispatchNext m async s).2 := by
  by_cases hfree : s.free = []
  · simp only [dispatchEnding?, dispatchNext, hfree]
    exact .same rfl rfl
  · obtain ⟨slot, free, hfree⟩ := List.exists_cons_of_ne_nil hfree
    have hslot := hempty slot (by simp [hfree])
    have hnext : dispatchNext m async s = dispatch m slot async { s with free } := by
      simp only [dispatchNext, hfree]
    by_cases hwaiting : s.waiting = []
    · have hdispatch : dispatch m slot async { s with free } =
          (.error (.inconsistent .nothingWaiting), ({ s with free } : Session).release slot) := by
        simp only [dispatch, hwaiting]
      rw [dispatchEnding?_of_nil hwaiting, hnext, hdispatch]
      refine .same ?_ rfl
      simp [Session.release, hslot]
    · obtain ⟨work, waiting, hwaiting⟩ := List.exists_cons_of_ne_nil hwaiting
      have hending : dispatchEnding? m async s = endingOn? m async slot work s := by
        simp only [dispatchEnding?, hfree, hwaiting]
      have hended := dispatch_accounted (m := m) (s := { s with free }) hslot hwaiting async
      rw [hending, hnext]
      exact ⟨hended.released, hended.allocated⟩

/-- A step lets go of what the inference took that ends with it, and takes one buffer for a new
job. -/
theorem step_accounted (hfree : ∀ slot ∈ s.free, slot.liveBuffers = 0)
    (hjobs : ∀ job ∈ s.jobs, job.slot.liveBuffers = 1) (c : Command) :
    Accounted (spent m (ending? m s c).toList) s (step m s c).2 := by
  cases c with
  | execute r =>
    simp only [ending?, step, Prod.map_snd, id, execute]
    cases checkRequest m r with
    | error e => exact .same rfl rfl
    | ok =>
      have hended := dispatchNext_accounted (m := m) (s := s.submit r) hfree m.options.async
      exact ⟨hended.released, hended.allocated⟩
  | flush =>
    simp only [ending?, step, Prod.map_snd, id, flush]
    by_cases hwaiting : s.waiting = []
    · simp only [hwaiting, List.isEmpty_nil, if_true, dispatchEnding?_of_nil hwaiting]
      exact .same rfl rfl
    · rw [if_neg (by simpa using hwaiting)]
      exact dispatchNext_accounted hfree true
  | getResult =>
    simp only [step, Prod.map_snd, id, getResult]
    repeat' split
    all_goals exact .same rfl rfl
  | getInput name => exact .same rfl rfl
  | getOutput input width height output =>
    simp only [ending?, step, Prod.map_snd, id, getOutput]
    cases blankFrame width height with
    | error e => exact .same rfl rfl
    | ok frame =>
      cases hslots : s.free with
      | nil => exact .same rfl rfl
      | cons slot free =>
        have hempty := hfree slot (by simp [hslots])
        let plan : Plan := { input, outputs := [output], converts := false }
        have htook := m.serve_took plan ⟨some frame, some frame⟩ ⟨slot.operands, s.ledger⟩
        rw [← Model.measure_operands] at htook
        have hended := Accounted.of_release htook
          { s with free, ledger := (measure m plan frame ⟨slot.operands, s.ledger⟩).2.ledger }
          rfl (by rw [hempty, Nat.add_zero]) slot.work
        rw [hempty, Nat.zero_add] at hended
        rw [Option.toList_some, spent_singleton]
        exact hended
  | runJob place =>
    cases hjob : s.jobs[place]? with
    | none =>
      simp only [ending?, step, runJob, hjob]
      exact .same rfl rfl
    | some job =>
      have hlt := (List.getElem?_eq_some_iff.1 hjob).1
      have hone := hjobs job (List.mem_of_getElem? hjob)
      have hlength : (s.jobs.eraseIdx place).length + job.slot.liveBuffers = s.jobs.length := by
        rw [List.length_eraseIdx_of_lt hlt, hone]
        omega
      simp only [ending?, step, runJob_eq m s hjob, hjob]
      rw [Option.map_some, Option.toList_some, spent_singleton]
      exact runInference_accounted job.slot job.work
        { s with jobs := s.jobs.eraseIdx place, inFlight := s.inFlight - 1 } (.refl _) hone hlength

namespace Tracked

variable {requests : List Request} {first : Nat}

/-- Over a run the ends add up. -/
theorem run_accounted (h : Tracked m.loading requests first [] s) (commands : List Command) :
    Accounted (spent m (endings m s commands)) s (Session.run m s commands).2 := by
  induction commands generalizing requests first s with
  | nil => exact .same rfl rfl
  | cons c commands ih =>
    obtain ⟨first', h'⟩ := h.step_requests c
    have hjobs : ∀ job ∈ s.jobs, job.slot.liveBuffers = 1 := by
      intro job hjob
      obtain ⟨r, -, hfilled⟩ := h.jobs job hjob
      exact hfilled.count
    have hfirst := step_accounted (m := m) h.free hjobs c
    have hends : spent m (endings m s (c :: commands)) = spent m (ending? m s c).toList +
        spent m (endings m (Session.step m s c).2 commands) := by
      simp [endings, spent]
    rw [hends]
    exact hfirst.trans (ih h')

end Tracked
end Session
end Inference
