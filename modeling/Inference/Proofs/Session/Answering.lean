import Inference.Proofs.Session.Reuse
/-! For whom the answer to a submission is: dispatching takes the longest waiting request, so the
answer is about that one, which is the submitted one only if nothing waited before. -/
namespace Inference.Session

variable {m : Model} {s : Session} {slot : Slot} {work : Work} {r : Request}

theorem mem_updateTask_of_find {i : Nat} {t : Task}
    (h : s.tasks.find? (·.ticket == i) = some t) (f : Task → Task) :
    f t ∈ (s.updateTask i f).tasks := by
  have ht : t.ticket = i := by simpa using List.find?_some h
  exact List.mem_map.2 ⟨t, List.mem_of_find?_eq_some h, if_pos ht⟩

/-- Other tasks are as they were. -/
theorem mem_of_mem_updateTask {i : Nat} {t : Task} {f : Task → Task}
    (hf : ∀ t, (f t).ticket = t.ticket) (h : t ∈ (s.updateTask i f).tasks) (ht : t.ticket ≠ i) :
    t ∈ s.tasks := by
  obtain ⟨u, hu, rfl⟩ := List.mem_map.1 h
  by_cases hi : u.ticket = i
  · rw [if_pos hi] at ht
    exact absurd ((hf u).trans hi) ht
  · rwa [if_neg hi]

theorem updateTask_id (s : Session) (i : Nat) : s.updateTask i id = s := by
  simp [updateTask]

/-- Dispatching touches the task of the longest waiting work alone: an error is about it, and without
one it has become a job or finished. -/
theorem dispatch_answer (m : Model) (slot : Slot) {waiting : List Work}
    (hwaiting : s.waiting = work :: waiting)
    (hfind : s.tasks.find? (·.ticket == work.ticket) = some (r.task work.ticket)) (async : Bool) :
    ∃ f : Task → Task, (∀ t, (f t).ticket = t.ticket) ∧
      (dispatch m slot async s).2.tasks = (s.updateTask work.ticket f).tasks ∧
      (dispatch m slot async s).2.waiting = waiting ∧
      ((∃ e, (dispatch m slot async s).1 = .error e ∧ (f (r.task work.ticket)).failed) ∨
        (dispatch m slot async s).1 = .ok () ∧ (f (r.task work.ticket)).failed = false ∧
          (async = true →
            ∃ job ∈ (dispatch m slot async s).2.jobs, job.work.ticket = work.ticket) ∧
          (async = false → (f (r.task work.ticket)).finished)) := by
  obtain ⟨filled, store, -, hcases⟩ := dispatch_cases m slot work s hwaiting async
  rcases hcases with ⟨e, rfl, heq⟩ | ⟨rfl, rfl, heq⟩ | ⟨rfl, rfl, heq⟩
  · exact ⟨({ · with failed := true }), fun _ => rfl, by rw [heq]; rfl, by rw [heq]; rfl,
      .inl ⟨e, by rw [heq], rfl⟩⟩
  · refine ⟨id, fun _ => rfl, by rw [heq, updateTask_id], by rw [heq],
      .inr ⟨by rw [heq], rfl, fun _ => ?_, nofun⟩⟩
    rw [heq]
    exact ⟨_, List.mem_append_right _ (List.mem_singleton_self _), rfl⟩
  · let t : Session := { s with waiting, ledger := store.ledger }
    rcases hinfer : m.infer work.plan (t.frames work.ticket) ⟨store.operands, t.ledger⟩ with
      ⟨result, frames, store'⟩
    have hrun := runInference_eq m ⟨store.operands, some work⟩ work t hinfer
    refine ⟨Task.settle result frames, fun _ => rfl, ?_⟩
    rw [heq]
    cases result with
    | error e =>
      rw [hrun]
      exact ⟨rfl, rfl, .inl ⟨e, rfl, rfl⟩⟩
    | ok =>
      rw [hrun]
      refine ⟨rfl, rfl, .inr ⟨?_, rfl, nofun, fun _ => rfl⟩⟩
      have hdone := find_updateTask s work.ticket (f := Task.settle (.ok ()) frames) fun _ => rfl
      rw [hfind] at hdone
      exact checkFinished_eq_ok hdone rfl

/-- The answer to submitting a request is about the task with this ticket: the task is dispatched or
finished where it is success, the task has failed where it is an error, and no other has. -/
structure AnswersFor (m : Model) (r : Request) (s : Session) (ticket : Nat) : Prop where
  success : (s.execute m r).1 = .ok () →
    (∀ work ∈ (s.execute m r).2.waiting, work.ticket ≠ ticket) ∧
      (m.options.async = true → ∃ job ∈ (s.execute m r).2.jobs, job.work.ticket = ticket) ∧
      (m.options.async = false →
        ∃ t ∈ (s.execute m r).2.tasks, t.ticket = ticket ∧ t.finished)
  error : ∀ e, (s.execute m r).1 = .error e →
    ∃ t ∈ (s.execute m r).2.tasks, t.ticket = ticket ∧ t.failed
  others : ∀ t ∈ (s.execute m r).2.tasks, t.failed → t.ticket ≠ ticket →
    ∃ u ∈ s.tasks, u.ticket = t.ticket ∧ u.failed

/-- The ticket that is dispatched next once another request is submitted. -/
def oldestTicket (s : Session) : Nat := (s.waiting.head?.map (·.ticket)).getD s.nextTicket

theorem exists_waiting_submit (r : Request) (s : Session) :
    ∃ work waiting, (s.submit r).waiting = work :: waiting ∧ work.ticket = s.oldestTicket := by
  unfold oldestTicket
  cases hs : s.waiting with
  | nil => exact ⟨_, _, by rw [submit, hs, List.nil_append], rfl⟩
  | cons => exact ⟨_, _, by rw [submit, hs, List.cons_append], rfl⟩

namespace Tracked

variable {w : Warrant m} {requests : List Request} {first : Nat}

theorem execute_answer (h : Tracked w requests first [] s) (hfree : s.free ≠ [])
    (hcheck : checkRequest m r = .ok ()) :
    ∃ (q : Request) (f : Task → Task),
      (s.submit r).tasks.find? (·.ticket == s.oldestTicket) = some (q.task s.oldestTicket) ∧
      (∀ t, (f t).ticket = t.ticket) ∧
      (s.execute m r).2.tasks = ((s.submit r).updateTask s.oldestTicket f).tasks ∧
      (s.execute m r).2.waiting = (s.submit r).waiting.tail ∧
      ((∃ e, (s.execute m r).1 = .error e ∧ (f (q.task s.oldestTicket)).failed) ∨
        (s.execute m r).1 = .ok () ∧ (f (q.task s.oldestTicket)).failed = false ∧
          (m.options.async = true →
            ∃ job ∈ (s.execute m r).2.jobs, job.work.ticket = s.oldestTicket) ∧
          (m.options.async = false → (f (q.task s.oldestTicket)).finished)) := by
  obtain ⟨slot, free, hslots⟩ := List.exists_cons_of_ne_nil hfree
  have hexecute : s.execute m r =
      Session.dispatch m slot m.options.async { s.submit r with free } := by
    have hsubmit : (s.submit r).free = slot :: free := hslots
    simp only [Session.execute, hcheck, Session.dispatchNext, hsubmit]
  obtain ⟨work, waiting, hwaiting, holdest⟩ := exists_waiting_submit r s
  have hsubmitted : Tracked w (requests ++ [r]) first [] { s.submit r with free } := by
    refine (h.submit r).rearrange rfl rfl (.refl _) List.suffix_rfl (h.submit r).jobs ?_
    intro slot' hslot'
    exact h.free slot' (by rw [hslots]; exact List.mem_cons_of_mem _ hslot')
  have hmem : work ∈ Session.pending [] { s.submit r with free } := by
    refine List.mem_append_right _ ?_
    rw [hwaiting]
    exact List.mem_cons_self
  obtain ⟨q, hq, -⟩ := hsubmitted.plans work hmem
  have hfind := hsubmitted.find_pending hmem hq
  obtain ⟨f, hf, htasks, hrest, hanswer⟩ := dispatch_answer m slot
    (s := { s.submit r with free }) hwaiting hfind m.options.async
  rw [holdest] at hfind htasks hanswer
  refine ⟨q, f, hfind, hf, ?_, ?_, ?_⟩
  · rw [hexecute, htasks]
    rfl
  · rw [hexecute, hrest, hwaiting, List.tail_cons]
  · rw [hexecute]
    exact hanswer

theorem answersFor_oldest (h : Tracked w requests first [] s) (hfree : s.free ≠ [])
    (hcheck : checkRequest m r = .ok ()) : AnswersFor m r s s.oldestTicket := by
  obtain ⟨q, f, hfind, hf, htasks, hwaiting, hanswer⟩ := h.execute_answer hfree hcheck
  have hmem := mem_updateTask_of_find hfind f
  rw [← htasks] at hmem
  refine ⟨fun hok => ⟨?_, ?_⟩, fun e herror => ?_, fun t ht hfailed hother => ?_⟩
  · obtain ⟨work, waiting, hqueue, holdest⟩ := exists_waiting_submit r s
    have hnodup := (h.submit r).nodup
    rw [pendingTickets, pending, hqueue, List.map_append] at hnodup
    have hfirst := (List.nodup_append.1 hnodup).2.1
    rw [List.map_cons, List.nodup_cons, holdest] at hfirst
    rw [hwaiting, hqueue]
    intro other hother heq
    exact hfirst.1 (List.mem_map.2 ⟨other, hother, heq⟩)
  · rcases hanswer with ⟨e, herror, -⟩ | ⟨-, -, hjob, hdone⟩
    · rw [hok] at herror
      cases herror
    · exact ⟨hjob, fun hsync => ⟨_, hmem, hf _, hdone hsync⟩⟩
  · rcases hanswer with ⟨-, -, hfailed⟩ | ⟨hok, -⟩
    · exact ⟨_, hmem, hf _, hfailed⟩
    · rw [herror] at hok
      cases hok
  · rw [htasks] at ht
    rcases List.mem_append.1 (mem_of_mem_updateTask hf ht hother) with ht | ht
    · exact ⟨t, ht, rfl, hfailed⟩
    · rw [List.mem_singleton.1 ht] at hfailed
      cases hfailed

theorem not_answersFor_nextTicket (h : Tracked w requests first [] s) (hfree : s.free ≠ [])
    (hcheck : checkRequest m r = .ok ()) (hbacklog : s.waiting ≠ []) :
    ¬AnswersFor m r s s.nextTicket := by
  intro hanswers
  obtain ⟨work, waiting, hs⟩ := List.exists_cons_of_ne_nil hbacklog
  have hold : s.oldestTicket = work.ticket := by simp [oldestTicket, hs]
  have hlt : ∀ t ∈ s.tasks, t.ticket < s.nextTicket := by
    intro t ht
    rw [h.nextTicket]
    exact (h.ticket_lt (List.mem_map_of_mem ht)).2
  have hne : s.nextTicket ≠ s.oldestTicket := by
    have hmem := h.waiting.subset (List.mem_map_of_mem (hs ▸ List.mem_cons_self))
    obtain ⟨t, ht, heq⟩ := List.mem_map.1 hmem
    have := hlt t ht
    omega
  obtain ⟨q, f, -, hf, htasks, hwaiting, hanswer⟩ := h.execute_answer hfree hcheck
  rcases hanswer with ⟨e, herror, -⟩ | ⟨hok, -⟩
  · obtain ⟨t, ht, hticket, hfailed⟩ := hanswers.error e herror
    rw [htasks] at ht
    rcases List.mem_append.1 (mem_of_mem_updateTask hf ht (hticket ▸ hne)) with ht | ht
    · have := hlt t ht
      omega
    · rw [List.mem_singleton.1 ht] at hfailed
      cases hfailed
  · refine (hanswers.success hok).1 ⟨s.nextTicket, r.plan⟩ ?_ rfl
    rw [hwaiting, Session.submit, hs, List.cons_append, List.tail_cons]
    exact List.mem_append_right _ (List.mem_singleton_self _)

end Tracked

/-- A session that serves requests where they are submitted holds no jobs, no slot is out, and nothing
waits but for want of slots. -/
structure AtRest (m : Model) (s : Session) : Prop where
  jobs : s.jobs = []
  free : s.free.length = m.slots
  waiting : s.waiting = [] ∨ m.slots = 0

namespace AtRest

theorem runInference_free (m : Model) (slot : Slot) (work : Work) (s : Session) :
    (runInference m slot work s).2.free.length = s.free.length + 1 ∧
      (runInference m slot work s).2.jobs = s.jobs ∧
      (runInference m slot work s).2.waiting = s.waiting := by
  rcases hinfer : m.infer work.plan (s.frames work.ticket) ⟨slot.operands, s.ledger⟩ with
    ⟨result, frames, store⟩
  rw [runInference_eq m slot work s hinfer]
  exact ⟨by simp [Session.release, updateTask], rfl, rfl⟩

theorem dispatch (m : Model) (slot : Slot) {waiting : List Work}
    (hwaiting : s.waiting = work :: waiting) :
    (dispatch m slot false s).2.free.length = s.free.length + 1 ∧
      (dispatch m slot false s).2.jobs = s.jobs ∧ (dispatch m slot false s).2.waiting = waiting := by
  obtain ⟨filled, store, -, hcases⟩ := dispatch_cases m slot work s hwaiting false
  rcases hcases with ⟨e, -, heq⟩ | ⟨-, hasync, -⟩ | ⟨-, -, heq⟩
  · rw [heq]
    exact ⟨by simp [Session.release, updateTask], rfl, rfl⟩
  · cases hasync
  · have hrun := runInference_free m ⟨store.operands, some work⟩ work
      { s with waiting, ledger := store.ledger }
    rw [heq]
    split
    next hinfer => rwa [hinfer] at hrun
    next hinfer => rwa [hinfer] at hrun

theorem execute (h : AtRest m s) (hsync : m.options.async = false) (r : Request) :
    AtRest m (s.execute m r).2 := by
  unfold Session.execute
  cases checkRequest m r with
  | error e => exact h
  | ok =>
    simp only [hsync, dispatchNext]
    split
    next hfree =>
      have hslots : m.slots = 0 := by
        rw [← h.free, show s.free = [] from hfree, List.length_nil]
      exact ⟨h.jobs, h.free, .inr hslots⟩
    next slot free hfree =>
      have hfree : s.free = slot :: free := hfree
      have hcount := h.free
      rw [hfree, List.length_cons] at hcount
      have hnone : s.waiting = [] := h.waiting.resolve_right (by omega)
      have hsubmitted : (s.submit r).waiting = [⟨s.nextTicket, r.plan⟩] := by
        simp [Session.submit, hnone, Request.plan]
      obtain ⟨hfree', hjobs, hwaiting⟩ := dispatch m slot (s := { s.submit r with free })
        hsubmitted
      exact ⟨hjobs.trans h.jobs, hfree'.trans hcount, .inl hwaiting⟩

theorem getOutput (h : AtRest m s) (input : String) (width height : Nat) (output : String) :
    AtRest m (s.getOutput m input width height output).2 := by
  have hprobes := probes m s input width height output
  generalize s.getOutput m input width height output = x at hprobes ⊢
  cases hprobes with
  | unframed | exhausted => exact h
  | measured _ hfree =>
    have hcount := h.free
    rw [hfree, List.length_cons] at hcount
    exact ⟨h.jobs, by simp [Session.release, hcount], h.waiting⟩

theorem step (h : AtRest m s) (hsync : m.options.async = false) (c : Command) :
    AtRest m (step m s c).2 := by
  cases c with
  | execute r => exact h.execute hsync r
  | flush =>
    simp only [Session.step, Prod.map_snd, id, Session.flush]
    rcases h.waiting with hnone | hslots
    · rw [hnone]
      exact h
    · have hfree : s.free = [] := List.eq_nil_of_length_eq_zero (h.free.trans hslots)
      split
      · exact h
      · simp only [dispatchNext, hfree]
        exact h
  | getResult =>
    simp only [Session.step, Prod.map_snd, id, getResult]
    repeat' split
    all_goals exact ⟨h.jobs, h.free, h.waiting⟩
  | getInput name => exact h
  | getOutput input width height output => exact h.getOutput input width height output
  | runJob place =>
    simp only [Session.step, Prod.map_snd, id, runJob, h.jobs, List.getElem?_nil]
    exact h

theorem run (h : AtRest m s) (hsync : m.options.async = false) (commands : List Command) :
    AtRest m (run m s commands).2 := by
  induction commands generalizing s with
  | nil => exact h
  | cons c commands ih => exact ih (h.step hsync c)

end AtRest

/-- With a free slot, the answer to a submission is about the longest waiting request, and about the
submitted one just when nothing waited before, as is so where requests are served at once. -/
theorem execute_answersFor (hs : Reachable m s) (hfree : s.free ≠ [])
    (hcheck : checkRequest m r = .ok ()) :
    AnswersFor m r s s.oldestTicket ∧ (AnswersFor m r s s.nextTicket ↔ s.waiting = []) ∧
      (m.options.async = false → s.waiting = []) := by
  obtain ⟨commands, rfl⟩ := hs
  have h := ((Tracked.start m.anyway).run commands).1
  have holdest := h.answersFor_oldest hfree hcheck
  refine ⟨holdest, ⟨fun hanswers => ?_, fun hnone => ?_⟩, fun hsync => ?_⟩
  · by_contra hbacklog
    exact h.not_answersFor_nextTicket hfree hcheck hbacklog hanswers
  · rw [oldestTicket, hnone] at holdest
    exact holdest
  · have hstart : AtRest m (start m) := ⟨rfl, List.length_replicate, .inl rfl⟩
    have hrest := hstart.run hsync commands
    refine hrest.waiting.resolve_right fun hslots => hfree ?_
    exact List.eq_nil_of_length_eq_zero (hrest.free.trans hslots)

/-- A request for an input that is not there waited for a slot that has become free. -/
def backlogged : Session :=
  (run (.copy true) (start (.copy true)) [.execute (.ofPixel 1), .execute (.ofPixel 2),
    .execute (.ofPixel 3 "z"), .runJob 0]).2

theorem execute_backlogged :
    backlogged.free ≠ [] ∧ checkRequest (.copy true) (.ofPixel 4) = .ok () ∧
      AnswersFor (.copy true) (.ofPixel 4) backlogged backlogged.oldestTicket := by
  have hfree : backlogged.free ≠ [] := by decide +kernel
  have hcheck : checkRequest (.copy true) (.ofPixel 4) = .ok () := by decide +kernel
  exact ⟨hfree, hcheck, (execute_answersFor ⟨_, rfl⟩ hfree hcheck).1⟩

/-- The error is the one of the request that waited, and the submitted one has not failed. -/
theorem execute_backlogged_answers_for_other :
    Reachable (.copy true) backlogged ∧ backlogged.free ≠ [] ∧
      checkRequest (.copy true) (.ofPixel 4) = .ok () ∧
      (backlogged.execute (.copy true) (.ofPixel 4)).1 =
        .error (.badArgument (.noInput "z")) ∧
      ¬AnswersFor (.copy true) (.ofPixel 4) backlogged backlogged.nextTicket := by
  have herror : (backlogged.execute (.copy true) (.ofPixel 4)).1 =
      .error (.badArgument (.noInput "z")) := by decide +kernel
  refine ⟨⟨_, rfl⟩, by decide +kernel, by decide +kernel, herror, fun hanswers => ?_⟩
  obtain ⟨t, ht, hticket, hfailed⟩ := hanswers.error _ herror
  have hunfailed : ∀ t ∈ (backlogged.execute (.copy true) (.ofPixel 4)).2.tasks,
      t.ticket = backlogged.nextTicket → ¬t.failed := by decide +kernel
  exact hunfailed t ht hticket hfailed

end Inference.Session
