import Inference.Session.Step
/-! What the operations of a session come to, each said once. -/
namespace Inference

/-- The task after its inference has ended with a result and left frames behind. -/
def Task.settle (result : Except Error Unit) (frames : Frames) (t : Task) : Task :=
  { t with
    frames
    done := if result.toBool then t.done + 1 else t.done
    failed := t.failed || !result.toBool }

namespace Task

theorem settle_ok (u : Unit) (frames : Frames) :
    settle (.ok u) frames = fun t => { t with frames, done := t.done + 1 } := by
  funext t
  simp [settle, Except.toBool]

theorem settle_error (e : Error) (frames : Frames) :
    settle (.error e) frames = fun t => { t with frames, failed := true } := by
  funext t
  simp [settle, Except.toBool]

end Task

namespace Session

variable (m : Model) (slot : Slot) (work : Work) (s : Session)

theorem updateTask_updateTask (i : Nat) {f : Task → Task} (g : Task → Task)
    (hf : ∀ t, (f t).ticket = t.ticket) :
    (s.updateTask i f).updateTask i g = s.updateTask i (g ∘ f) := by
  simp only [updateTask, List.map_map]
  congr 1
  refine List.map_congr_left fun t _ => ?_
  by_cases ht : t.ticket = i <;> simp [ht, hf]

theorem find_updateTask (i : Nat) {f : Task → Task}
    (hf : ∀ t, (f t).ticket = t.ticket) :
    (s.updateTask i f).tasks.find? (·.ticket == i) = (s.tasks.find? (·.ticket == i)).map f := by
  have hsame : ((·.ticket == i) : Task → Bool) ∘ (fun t => if t.ticket = i then f t else t) =
      (·.ticket == i) := by
    funext t
    by_cases ht : t.ticket = i <;> simp [ht, hf]
  rw [updateTask, List.find?_map, hsame]
  cases hfind : s.tasks.find? (·.ticket == i) with
  | none => rfl
  | some t =>
    have ht : t.ticket = i := by simpa using List.find?_some hfind
    simp [ht]

theorem checkFinished_eq_ok {s : Session} {i : Nat} {t : Task}
    (h : s.tasks.find? (·.ticket == i) = some t) (hdone : t.done = t.todo) :
    s.checkFinished i = .ok () := by
  rw [checkFinished, h]
  exact if_pos hdone

/-- An inference settles its task and sets its slot free. -/
theorem runInference_eq {result : Except Error Unit} {frames : Frames} {store : Store}
    (h : m.infer work.plan (s.frames work.ticket) ⟨slot.operands, s.ledger⟩ =
      (result, frames, store)) :
    runInference m slot work s =
      (result, ({ s with ledger := store.ledger }.updateTask work.ticket
        (Task.settle result frames)).release { slot with operands := store.operands }) := by
  unfold runInference
  rw [h]
  cases result with
  | ok u =>
    rw [Task.settle_ok]
    rfl
  | error e =>
    rw [Task.settle_error]
    have htwice := updateTask_updateTask { s with ledger := store.ledger } work.ticket
      (f := fun t => { t with
        frames, done := if (Except.error e : Except Error Unit).toBool then t.done + 1 else t.done })
      ({ · with failed := true }) fun _ => rfl
    exact congrArg (fun t => (Except.error e,
      Session.release t { slot with operands := store.operands })) htwice

theorem runInference_result :
    (runInference m slot work s).1 =
      (m.infer work.plan (s.frames work.ticket) ⟨slot.operands, s.ledger⟩).1 := rfl

/-- An inference neither looks at the jobs nor changes them. -/
theorem runInference_recount (jobs : List Job) (inFlight : Nat) :
    (runInference m slot work { s with jobs, inFlight }).2 =
      { (runInference m slot work s).2 with jobs, inFlight } := by
  rcases hinfer : m.infer work.plan (s.frames work.ticket) ⟨slot.operands, s.ledger⟩ with
    ⟨result, frames, store⟩
  rw [runInference_eq m slot work s hinfer]
  rw [runInference_eq m slot work { s with jobs, inFlight } hinfer]
  rfl

/-- Running a job ends its inference; it no longer counts as one in flight. -/
theorem runJob_eq {place : Nat} {job : Job} (hjob : s.jobs[place]? = some job) :
    s.runJob m place = (true, (runInference m job.slot job.work
      { s with jobs := s.jobs.eraseIdx place, inFlight := s.inFlight - 1 }).2) := by
  unfold runJob
  simp only [hjob]
  rw [runInference_recount m job.slot job.work s (s.jobs.eraseIdx place) (s.inFlight - 1)]
  have hrun := runInference_recount m job.slot job.work s (s.jobs.eraseIdx place) s.inFlight
  rw [hrun]

theorem blankFrame_error {width height : Nat} {e : Error} (h : blankFrame width height = .error e) :
    ∃ fault, e = .fault fault := by
  unfold blankFrame at h
  split at h
  · cases h
    exact ⟨_, rfl⟩
  · split at h
    · cases h
    · cases h
      exact ⟨_, rfl⟩

/-- What is told and what is left of a session when it is asked for the size of an output: there can
be no frame of the size, there is no slot for it, or it is measured on the first one. -/
inductive Probes (m : Model) (s : Session) (input : String) (width height : Nat) (output : String) :
    Except Error (Nat × Nat) × Session → Prop
  | unframed {fault : Fault} (hblank : blankFrame width height = .error (.fault fault)) :
    Probes m s input width height output (.error (.fault fault), s)
  | exhausted {frame : Frame} (hblank : blankFrame width height = .ok frame) (hfree : s.free = []) :
    Probes m s input width height output (.error .noFreeSlot, s)
  | measured {frame : Frame} {slot : Slot} {free : List Slot}
      (hblank : blankFrame width height = .ok frame) (hfree : s.free = slot :: free) :
    Probes m s input width height output
      (let (result, store) := measure m { input, outputs := [output], converts := false } frame
        ⟨slot.operands, s.ledger⟩
      (result, { s with free, ledger := store.ledger }.release
        { slot with operands := store.operands }))

theorem probes (input : String) (width height : Nat) (output : String) :
    Probes m s input width height output (s.getOutput m input width height output) := by
  unfold getOutput
  cases hblank : blankFrame width height with
  | error e =>
    obtain ⟨fault, rfl⟩ := blankFrame_error hblank
    exact .unframed hblank
  | ok frame =>
    cases hfree : s.free with
    | nil => exact .exhausted hblank hfree
    | cons slot free => exact .measured hblank hfree

/-- Nothing of a request is touched. -/
theorem getOutput_requests (input : String) (width height : Nat) (output : String) :
    (s.getOutput m input width height output).2.tasks = s.tasks ∧
      (s.getOutput m input width height output).2.waiting = s.waiting ∧
      (s.getOutput m input width height output).2.nextTicket = s.nextTicket := by
  have hprobes := probes m s input width height output
  generalize s.getOutput m input width height output = x at hprobes ⊢
  cases hprobes <;> exact ⟨rfl, rfl, rfl⟩

/-- Dispatching binds the longest waiting work to the slot. It fails as filling the input fails, or
the work becomes a job, or it is inferred at once. -/
theorem dispatch_cases {waiting : List Work} (hwaiting : s.waiting = work :: waiting) (async : Bool) :
    ∃ filled store, m.fill work.plan (s.frames work.ticket).input ⟨slot.operands, s.ledger⟩ =
        (filled, store) ∧
      ((∃ e, filled = .error e ∧ dispatch m slot async s =
          (.error e, ({ s with waiting, ledger := store.ledger }.updateTask work.ticket
            ({ · with failed := true })).release ⟨store.operands, some work⟩)) ∨
        (filled = .ok () ∧ async = true ∧ dispatch m slot async s =
          (.ok (), { s with
            waiting
            ledger := store.ledger
            jobs := s.jobs ++ [⟨⟨store.operands, some work⟩, work⟩]
            inFlight := s.inFlight + 1 })) ∨
        (filled = .ok () ∧ async = false ∧ dispatch m slot async s =
          match runInference m ⟨store.operands, some work⟩ work
            { s with waiting, ledger := store.ledger } with
          | (.error e, s) => (.error e, s)
          | (.ok _, s) => (s.checkFinished work.ticket, s))) := by
  rcases hfill : m.fill work.plan (s.frames work.ticket).input ⟨slot.operands, s.ledger⟩ with
    ⟨filled, store⟩
  refine ⟨filled, store, rfl, ?_⟩
  have hframes : ({ s with waiting } : Session).frames work.ticket = s.frames work.ticket := rfl
  unfold dispatch
  simp only [hwaiting, fillSlot, hframes, hfill]
  cases filled with
  | error e => exact .inl ⟨e, rfl, rfl⟩
  | ok =>
    cases async with
    | true => exact .inr (.inl ⟨rfl, rfl, rfl⟩)
    | false => exact .inr (.inr ⟨rfl, rfl, rfl⟩)

/-- The state that dispatching leaves, whatever the answer. -/
theorem dispatch_state {waiting : List Work} (hwaiting : s.waiting = work :: waiting)
    (async : Bool) :
    ∃ filled store, m.fill work.plan (s.frames work.ticket).input ⟨slot.operands, s.ledger⟩ =
        (filled, store) ∧
      ((∃ e, filled = .error e ∧ (dispatch m slot async s).2 =
          ({ s with waiting, ledger := store.ledger }.updateTask work.ticket
            ({ · with failed := true })).release ⟨store.operands, some work⟩) ∨
        (filled = .ok () ∧ async = true ∧ (dispatch m slot async s).2 =
          { s with
            waiting
            ledger := store.ledger
            jobs := s.jobs ++ [⟨⟨store.operands, some work⟩, work⟩]
            inFlight := s.inFlight + 1 }) ∨
        (filled = .ok () ∧ async = false ∧ (dispatch m slot async s).2 =
          (runInference m ⟨store.operands, some work⟩ work
            { s with waiting, ledger := store.ledger }).2)) := by
  obtain ⟨filled, store, hfill, hcases⟩ := dispatch_cases m slot work s hwaiting async
  refine ⟨filled, store, hfill, ?_⟩
  rcases hcases with ⟨e, hfilled, heq⟩ | ⟨hfilled, hasync, heq⟩ | ⟨hfilled, hasync, heq⟩
  · exact .inl ⟨e, hfilled, by rw [heq]⟩
  · exact .inr (.inl ⟨hfilled, hasync, by rw [heq]⟩)
  · refine .inr (.inr ⟨hfilled, hasync, ?_⟩)
    rw [heq]
    split <;> simp_all

end Session
end Inference
