import Inference.Proofs.Session.Accounting
import Inference.Proofs.Session.Custody
import Inference.Proofs.Session.Exhaustion
import Inference.Proofs.Session.Order
/-! Serving at once: no work is left behind by any operation, and what a submission was answered is
what its request is handed back as. -/
namespace Inference

namespace Model

variable {m : Model}

/-- An outcome tells of a request what the answer to its submission told. -/
structure Confirms (m : Model) (o : Outcome) (x : Request × Except Error Unit) : Prop where
  ready : (∃ input output, o = .ready input output) ↔ x.2 = .ok ()
  failed : (∃ input, o = .failed input) ↔ ∃ e, x.2 = .error e
  input : ∃ f, o.input? = some f ∧ m.Returns x.1.frame f

/-- The task of a request that was served, with the answer that was given. -/
def Settled (m : Model) (t : Task) (x : Request × Except Error Unit) : Prop :=
  ∃ frames f, t = x.1.settledTask t.ticket x.2.toBool frames ∧ frames.input = some f ∧
    m.Returns x.1.frame f

theorem serve_returns {r : Request} (h : Session.checkRequest m r = .ok ()) (s : Store) :
    ∃ f, (m.serve r.plan r.frames s).2.1.input = some f ∧ m.Returns r.frame f := by
  unfold serve
  rcases m.fill r.plan r.frames.input s with ⟨e | _, t⟩
  · exact ⟨r.frame, rfl, .inl rfl⟩
  · exact infer_returns r.plan r.frames t rfl (Nat.le_of_eq (Session.checkRequest_outputs h))

theorem exists_confirms (x : Request × Except Error Unit) {frames : Frames} {f : Frame}
    (hinput : frames.input = some f) (hreturns : m.Returns x.1.frame f) :
    ∃ o, Session.outcomeOf x.2.toBool frames = .ok o ∧ m.Confirms o x := by
  obtain ⟨r, result⟩ := x
  cases result with
  | error e =>
    refine ⟨.failed f, by simp [Session.outcomeOf, hinput, Except.toBool], ?_, ?_, f, rfl, hreturns⟩
    · exact iff_of_false (by rintro ⟨_, _, ⟨⟩⟩) (by rintro ⟨⟩)
    · exact iff_of_true ⟨f, rfl⟩ ⟨e, rfl⟩
  | ok =>
    refine ⟨.ready f frames.output, by simp [Session.outcomeOf, hinput, Except.toBool], ?_, ?_, f,
      rfl, hreturns⟩
    · exact iff_of_true ⟨f, frames.output, rfl⟩ rfl
    · exact iff_of_false (by rintro ⟨_, ⟨⟩⟩) (by rintro ⟨_, ⟨⟩⟩)

end Model

namespace Session

variable {m : Model} {s : Session} {queue : List (Request × Except Error Unit)}
  {x : Request × Except Error Unit}

/-- The request that a command submits, with the answer to it. -/
def submission? (m : Model) (c : Command) (answer : Answer) :
    Option (Request × Except Error Unit) :=
  match c.accepted? m, answer with
  | some r, .done result => some (r, result)
  | _, _ => none

/-- The accepted requests with their answers, in the order of submission. -/
def submissions (m : Model) (commands : List Command) (answers : List Answer) :
    List (Request × Except Error Unit) :=
  (commands.zip answers).filterMap fun x => submission? m x.1 x.2

theorem submissions_cons (m : Model) (c : Command) (commands : List Command) (answer : Answer)
    (answers : List Answer) :
    submissions m (c :: commands) (answer :: answers) =
      (submission? m c answer).toList ++ submissions m commands answers := by
  cases h : submission? m c answer <;> simp [submissions, h]

/-- Each accepted request is answered once. -/
theorem map_fst_submissions (m : Model) (s : Session) (commands : List Command) :
    (submissions m commands (run m s commands).1).map Prod.fst = accepted m commands := by
  induction commands generalizing s with
  | nil => rfl
  | cons c commands ih =>
    have hcons : submissions m (c :: commands) (run m s (c :: commands)).1 =
        (submission? m c (step m s c).1).toList ++
          submissions m commands (run m (step m s c).2 commands).1 := submissions_cons m c _ _ _
    have hone : (submission? m c (step m s c).1).toList.map Prod.fst = (c.accepted? m).toList := by
      cases c with
      | execute r =>
        simp only [submission?, Command.accepted?]
        cases checkRequest m r <;> rfl
      | _ => rfl
    rw [hcons, List.map_append, hone, ih, accepted_cons]

theorem handedBack_cons (answer : Answer) (answers : List Answer) :
    handedBack (answer :: answers) = answer.handsBack?.toList ++ handedBack answers := by
  cases h : answer.handsBack? <;> simp [handedBack, h]

/-- Nothing is under way, and the tasks are the ones of served requests. -/
structure Prompt (m : Model) (queue : List (Request × Except Error Unit)) (s : Session) :
    Prop where
  rest : AtRest m s
  tracked : ∃ requests first, Tracked m.anyway requests first [] s
  tasks : List.Forall₂ m.Settled s.tasks queue

namespace Prompt

theorem start (m : Model) : Prompt m [] (start m) where
  rest := ⟨rfl, List.length_replicate, .inl rfl⟩
  tracked := ⟨[], 0, .start m.anyway⟩
  tasks := .nil

/-- The books are kept by any step. -/
theorem of_tasks (h : Prompt m queue s) (hsync : m.options.async = false) (c : Command)
    {queue' : List (Request × Except Error Unit)}
    (htasks : List.Forall₂ m.Settled (Session.step m s c).2.tasks queue') :
    Prompt m queue' (Session.step m s c).2 := by
  obtain ⟨requests, first, htracked⟩ := h.tracked
  obtain ⟨first', hnext⟩ := htracked.step_requests c
  exact ⟨h.rest.step hsync c, ⟨_, first', hnext⟩, htasks⟩

theorem fresh (h : Prompt m queue s) : ∀ t ∈ s.tasks, t.ticket ≠ s.nextTicket := by
  obtain ⟨requests, first, htracked⟩ := h.tracked
  exact fun t ht => htracked.ticket_ne ht

theorem waiting (h : Prompt m queue s) (hslots : 0 < m.slots) : s.waiting = [] := by
  apply h.rest.waiting.resolve_right
  omega

theorem free_ne_nil (h : Prompt m queue s) (hslots : 0 < m.slots) : s.free ≠ [] := by
  apply List.ne_nil_of_length_pos
  rw [h.rest.free]
  exact hslots

theorem execute (h : Prompt m queue s) (hsync : m.options.async = false) (hslots : 0 < m.slots)
    {r : Request} (hcheck : checkRequest m r = .ok ()) :
    Prompt m (queue ++ [(r, (s.execute m r).1)]) (s.execute m r).2 := by
  obtain ⟨slot, free, hfree⟩ := List.exists_cons_of_ne_nil (h.free_ne_nil hslots)
  obtain ⟨hanswer, htasks⟩ := execute_at_once hsync hcheck h.fresh (h.waiting hslots) hfree
  obtain ⟨f, hinput, hreturns⟩ := m.serve_returns hcheck ⟨slot.operands, s.ledger⟩
  apply h.of_tasks hsync (.execute r)
  change List.Forall₂ m.Settled (s.execute m r).2.tasks _
  rw [htasks, hanswer]
  exact List.rel_append h.tasks (.cons ⟨_, f, rfl, hinput, hreturns⟩ .nil)

/-- The oldest request is there to be had back, and tells what its submission did. -/
theorem getResult (h : Prompt m (x :: queue) s) (hsync : m.options.async = false) :
    ∃ o, s.getResult.1 = .ok o ∧ (Answer.outcome (.ok o)).handsBack? = some o ∧ m.Confirms o x ∧
      Prompt m queue s.getResult.2 := by
  rcases htasks : s.tasks with _ | ⟨t, tasks⟩
  · have hnone := h.tasks
    rw [htasks] at hnone
    cases hnone
  · have hsettled := h.tasks
    rw [htasks] at hsettled
    obtain ⟨⟨frames, f, ht, hinput, hreturns⟩, hrest⟩ := List.forall₂_cons.1 hsettled
    obtain ⟨o, houtcome, hconfirms⟩ := m.exists_confirms x hinput hreturns
    rw [ht] at htasks
    have heq := getResult_settledTask htasks
    refine ⟨o, by rw [heq, houtcome], Tracked.handsBack?_outcomeOf houtcome, hconfirms, ?_⟩
    apply h.of_tasks hsync .getResult
    change List.Forall₂ m.Settled s.getResult.2.tasks queue
    rw [heq]
    exact hrest

theorem getResult_nil (h : Prompt m [] s) : s.getResult = (.ok .emptyQueue, s) := by
  have hnone : s.tasks = [] := by
    cases htasks : s.tasks with
    | nil => rfl
    | cons t tasks =>
      have hsettled := h.tasks
      rw [htasks] at hsettled
      cases hsettled
  simp only [Session.getResult, hnone]

/-- What a step hands back was first in the queue, and what it submits comes last. -/
theorem step (h : Prompt m queue s) (hsync : m.options.async = false) (hslots : 0 < m.slots)
    (c : Command) :
    ∃ taken queue', queue ++ (submission? m c (Session.step m s c).1).toList = taken ++ queue' ∧
      List.Forall₂ m.Confirms (Session.step m s c).1.handsBack?.toList taken ∧
      Prompt m queue' (Session.step m s c).2 := by
  -- a step that leaves the tasks as they are
  have hsame : submission? m c (Session.step m s c).1 = none →
      (Session.step m s c).1.handsBack? = none → (Session.step m s c).2.tasks = s.tasks →
      ∃ taken queue', queue ++ (submission? m c (Session.step m s c).1).toList = taken ++ queue' ∧
        List.Forall₂ m.Confirms (Session.step m s c).1.handsBack?.toList taken ∧
        Prompt m queue' (Session.step m s c).2 := by
    intro hsubmitted hback htasks
    rw [hsubmitted, hback]
    refine ⟨[], queue, List.append_nil queue, .nil, h.of_tasks hsync c ?_⟩
    rw [htasks]
    exact h.tasks
  cases c with
  | execute r =>
    cases hcheck : checkRequest m r with
    | error e =>
      apply hsame
      · simp [submission?, Command.accepted?, hcheck]
      · rfl
      · simp [Session.step, Session.execute, hcheck]
    | ok =>
      have hsubmitted : submission? m (.execute r) (Session.step m s (.execute r)).1 =
          some (r, (s.execute m r).1) := by
        simp [submission?, Command.accepted?, hcheck, Session.step]
      rw [hsubmitted]
      exact ⟨[], _, rfl, .nil, h.execute hsync hslots hcheck⟩
  | flush =>
    apply hsame
    · rfl
    · rfl
    · simp [Session.step, Session.flush, h.waiting hslots]
  | getInput name => exact hsame rfl rfl rfl
  | getOutput input width height output =>
    apply hsame
    · rfl
    · rfl
    · exact (getOutput_requests m s input width height output).1
  | runJob place =>
    apply hsame
    · rfl
    · rfl
    · simp [Session.step, Session.runJob, h.rest.jobs]
  | getResult =>
    rcases queue with _ | ⟨x, queue⟩
    · apply hsame
      · rfl
      · simp [Session.step, h.getResult_nil, Answer.handsBack?]
      · simp [Session.step, h.getResult_nil]
    · obtain ⟨o, hanswer, hback, hconfirms, hnext⟩ := h.getResult hsync
      have hstep : (Session.step m s .getResult).1.handsBack? = some o := by
        simp only [Session.step, Prod.map_fst, hanswer, hback]
      rw [hstep]
      exact ⟨[x], queue, List.append_nil _, .cons hconfirms .nil, hnext⟩

theorem run (h : Prompt m queue s) (hsync : m.options.async = false) (hslots : 0 < m.slots)
    (commands : List Command) :
    ∃ taken queue', queue ++ submissions m commands (Session.run m s commands).1 =
        taken ++ queue' ∧
      List.Forall₂ m.Confirms (handedBack (Session.run m s commands).1) taken ∧
      Prompt m queue' (Session.run m s commands).2 := by
  induction commands generalizing queue s with
  | nil => exact ⟨[], queue, List.append_nil queue, .nil, h⟩
  | cons c commands ih =>
    obtain ⟨taken, queue₁, hfirst, hback, hnext⟩ := h.step hsync hslots c
    obtain ⟨taken', queue₂, hrest, hback', hend⟩ := ih hnext
    refine ⟨taken ++ taken', queue₂, ?_, ?_, hend⟩
    · calc queue ++ submissions m (c :: commands) (Session.run m s (c :: commands)).1
        _ = queue ++ ((submission? m c (Session.step m s c).1).toList ++
              submissions m commands (Session.run m (Session.step m s c).2 commands).1) := by
            rw [← submissions_cons]
            rfl
        _ = taken ++ (queue₁ ++
              submissions m commands (Session.run m (Session.step m s c).2 commands).1) := by
            rw [← List.append_assoc, hfirst, List.append_assoc]
        _ = taken ++ taken' ++ queue₂ := by rw [hrest, List.append_assoc]
    · have hcons : handedBack (Session.run m s (c :: commands)).1 =
          (Session.step m s c).1.handsBack?.toList ++
            handedBack (Session.run m (Session.step m s c).2 commands).1 :=
        handedBack_cons _ _
      rw [hcons]
      exact List.rel_append hback hback'

/-- Whoever asks as often as requests are queued has them all back. -/
theorem retrieve (h : Prompt m queue s) (hsync : m.options.async = false) :
    List.Forall₂ m.Confirms
      (handedBack (Session.run m s (List.replicate queue.length .getResult)).1) queue := by
  induction queue generalizing s with
  | nil => exact .nil
  | cons x queue ih =>
    obtain ⟨o, hanswer, hback, hconfirms, hnext⟩ := h.getResult hsync
    have hcons : handedBack (Session.run m s (List.replicate (x :: queue).length .getResult)).1 =
        (Answer.outcome s.getResult.1).handsBack?.toList ++
          handedBack (Session.run m s.getResult.2 (List.replicate queue.length .getResult)).1 :=
      handedBack_cons _ _
    rw [hcons, hanswer, hback]
    exact .cons hconfirms (ih hnext)

end Prompt

/-- Serving at once leaves nothing behind. After any operations nothing waits, nothing is in flight,
all slots are free and no buffer is left; no submission wants for a slot, and no result is waited
for. The requests that were accepted are had back one by one, ready where the answer to the
submission was success, failed where it was an error. -/
theorem served_at_once (hsync : m.options.async = false) (hslots : 0 < m.slots)
    (commands : List Command) :
    let answers := (run m (start m) commands).1
    let s := (run m (start m) commands).2
    let rest := (run m s (List.replicate s.tasks.length .getResult)).1
    s.waiting = [] ∧ s.jobs = [] ∧ s.inFlight = 0 ∧ s.free.length = m.slots ∧
      s.ledger.live = 0 ∧ (∀ r, (s.execute m r).1 ≠ .error .noFreeSlot) ∧
      s.getResult.1 ≠ .ok .notReady ∧
      (submissions m commands answers).map Prod.fst = accepted m commands ∧
      List.Forall₂ m.Confirms (handedBack answers ++ handedBack rest)
        (submissions m commands answers) := by
  intro answers s rest
  obtain ⟨taken, queue, hsubmitted, hback, hprompt⟩ :=
    (Prompt.start m).run hsync hslots commands
  have hjobs : s.jobs = [] := hprompt.rest.jobs
  have hretrieved := hprompt.retrieve hsync
  rw [← hprompt.tasks.length_eq] at hretrieved
  refine ⟨hprompt.waiting hslots, hjobs, ?_, hprompt.rest.free, ?_, fun r h => ?_, ?_,
    map_fst_submissions m _ commands, ?_⟩
  · have hcount := ((Custody.start m).run commands).inFlight
    rw [show (run m (start m) commands).2.jobs = [] from hjobs] at hcount
    exact hcount
  · have haccounted := (Tracked.start m.loading).run_accounted commands
    have hreleased : s.ledger.released = _ := haccounted.released
    have hallocated : s.ledger.allocated + 0 = 0 + _ + s.jobs.length := haccounted.allocated
    rw [hjobs, List.length_nil] at hallocated
    have hnone : (start m).ledger.released = 0 := rfl
    unfold Ledger.live
    omega
  · exact hprompt.free_ne_nil hslots (execute_eq_noFreeSlot_iff.1 h).2
  · intro h
    rcases queue with _ | ⟨x, queue⟩
    · have hempty : s.getResult = (.ok .emptyQueue, s) := hprompt.getResult_nil
      rw [hempty] at h
      cases h
    · obtain ⟨o, hanswer, hsome, -⟩ := hprompt.getResult hsync
      cases hanswer.symm.trans h
      cases hsome
  · rw [show submissions m commands answers = taken ++ queue from hsubmitted]
    exact List.rel_append hback hretrieved

/-- Of three requests the second asks for an input that is not there. -/
theorem served_at_once_of_copy :
    let commands : List Command := [.execute (.ofPixel 1), .execute (.ofPixel 2 "z"), .getResult,
      .execute (.ofPixel 3)]
    let answers := (run (.copy false) (start (.copy false)) commands).1
    let s := (run (.copy false) (start (.copy false)) commands).2
    (handedBack answers).length = 1 ∧ s.tasks.length = 2 ∧ s.free.length = 2 ∧
      List.Forall₂ (Model.copy false).Confirms
        (handedBack answers ++
          handedBack (run (.copy false) s (List.replicate s.tasks.length .getResult)).1)
        [(.ofPixel 1, .ok ()), (.ofPixel 2 "z", .error (.badArgument (.noInput "z"))),
          (.ofPixel 3, .ok ())] := by
  intro commands answers s
  obtain ⟨-, -, -, hfree, -, -, -, -, hconfirms⟩ :=
    served_at_once (m := .copy false) rfl (Model.ofGraph_slots_pos ..) commands
  have hsubmitted : submissions (.copy false) commands answers =
      [(.ofPixel 1, .ok ()), (.ofPixel 2 "z", .error (.badArgument (.noInput "z"))),
        (.ofPixel 3, .ok ())] := by decide +kernel
  refine ⟨by decide +kernel, by decide +kernel, hfree, ?_⟩
  rw [← hsubmitted]
  exact hconfirms

end Session
end Inference
