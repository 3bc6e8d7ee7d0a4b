import Inference.Proofs.Session.Closing
import Inference.Proofs.Session.Exhaustion
import Inference.Proofs.Session.Order
/-! A backlog can always be worked off: as often as work is waiting, the longest waiting one is
dispatched and all jobs are run. No slot is missing on the way, and then every request that is
queued is handed back. -/
namespace Inference.Session

variable {m : Model} {s : Session} {work : Work} {waiting : List Work} {k : Nat}

/-- Dispatches the longest waiting work and runs all jobs, so many times. -/
def drain (m : Model) : Nat → Session → List (Except Error Unit) × Session
  | 0, s => ([], s)
  | n + 1, s =>
    let (answer, s) := s.flush m
    let (answers, s) := drain m n (s.runAll m).2
    (answer :: answers, s)

/-- Asks for the oldest request so many times. -/
def collect : Nat → Session → List (Except Error Outcome) × Session
  | 0, s => ([], s)
  | n + 1, s =>
    let (outcome, s) := s.getResult
    let (outcomes, s) := collect n s
    (outcome :: outcomes, s)

/-- An answer that hands a request back. -/
def IsHandedBack (answer : Except Error Outcome) : Prop :=
  ∃ input, answer = .ok (.failed input) ∨ ∃ output, answer = .ok (.ready input output)

theorem runAll_jobs (m : Model) (s : Session) : (s.runAll m).2.jobs = [] := by
  rw [runAll_eq]

theorem runJobs_waiting (m : Model) (jobs : List Job) (s : Session) :
    (runJobs m jobs s).waiting = s.waiting := by
  induction jobs generalizing s with
  | nil => rfl
  | cons job jobs ih => exact (ih _).trans (runInference_waiting m job.slot job.work s)

theorem runAll_waiting (m : Model) (s : Session) : (s.runAll m).2.waiting = s.waiting := by
  rw [runAll_eq]
  exact runJobs_waiting m s.jobs s

theorem Custody.runAll (h : Custody m k s) : Custody m k (s.runAll m).2 := by
  rw [Session.runAll, foldl_runNext_eq_run]
  exact h.run _

/-- With no job in work all slots are free. -/
theorem Custody.free_of_jobs (h : Custody m 0 s) (hjobs : s.jobs = []) :
    s.free.length = m.slots := by
  have hconserved := h.conserved
  rw [hjobs, List.length_nil] at hconserved
  omega

/-- A free slot is what flushing needs; whatever else goes wrong, the work leaves the queue. -/
theorem flush_waiting (hfree : s.free ≠ []) (hwaiting : s.waiting = work :: waiting) :
    (s.flush m).1 ≠ .error .noFreeSlot ∧ (s.flush m).2.waiting = waiting := by
  obtain ⟨slot, free, hslots⟩ := List.exists_cons_of_ne_nil hfree
  have hflush : s.flush m = dispatch m slot true { s with free } := by
    simp only [flush, hwaiting, List.isEmpty_cons, Bool.false_eq_true, if_false, dispatchNext,
      hslots]
  rw [hflush]
  constructor
  · exact dispatch_ne_noFreeSlot m slot true _
  · rw [dispatch_waiting]
    exact congrArg List.tail hwaiting

namespace Tracked

variable {w : Warrant m} {requests : List Request} {first : Nat}

theorem runAll (h : Tracked w requests first [] s) :
    Tracked w requests first [] (s.runAll m).2 := by
  rw [Session.runAll]
  generalize s.jobs = jobs
  induction jobs generalizing s with
  | nil => exact h
  | cons job jobs ih => exact ih (h.runJob 0)

theorem drain (h : Tracked w requests first [] s) (n : Nat) :
    Tracked w requests first [] (Session.drain m n s).2 := by
  induction n generalizing s with
  | zero => exact h
  | succ n ih => exact ih h.flush.runAll

/-- Queued requests whose work has ended are handed back one after the other, each as its inference
left it, until none is queued. -/
theorem collect (h : Tracked w requests first [] s) (hwaiting : s.waiting = [])
    (hjobs : s.jobs = []) :
    List.Forall₂ (fun answer r => ∃ o, answer = .ok o ∧ w.HandsBack o r)
        (Session.collect s.tasks.length s).1 (requests.drop first) ∧
      (Session.collect s.tasks.length s).2.tasks = [] := by
  have hcount := h.count
  generalize hn : s.tasks.length = n at hcount ⊢
  induction n generalizing s first with
  | zero =>
    have hnone : requests.drop first = [] := List.drop_eq_nil_of_le (Nat.le_of_eq hcount.symm)
    rw [hnone]
    exact ⟨.nil, List.eq_nil_of_length_eq_zero hn⟩
  | succ n ih =>
    have hnone : s.pendingTickets [] = [] := by simp [pendingTickets, pending, hwaiting, hjobs]
    rcases h.getResult with ⟨htasks, -⟩ | ⟨t, -, hpend, -⟩ |
      ⟨r, ok, frames, o, hr, hserved, houtcome, heq, hnext⟩
    · simp [htasks] at hn
    · simp [hnone] at hpend
    · obtain ⟨hrest, hempty⟩ := ih hnext hwaiting hjobs (by simp [hn]) (by omega)
      obtain ⟨hlt, hget⟩ := List.getElem?_eq_some_iff.1 hr
      rw [List.drop_eq_getElem_cons hlt, hget]
      simp only [Session.collect, heq]
      exact ⟨.cons ⟨o, rfl, ok, frames, hserved, houtcome⟩ hrest, hempty⟩

theorem isHandedBack_of_handsBack {o : Outcome} {r : Request} (h : w.HandsBack o r) :
    IsHandedBack (.ok o) := by
  obtain ⟨ok, frames, -, houtcome⟩ := h
  unfold outcomeOf at houtcome
  split at houtcome
  · cases houtcome
  next input _ =>
    cases houtcome
    cases ok with
    | true => exact ⟨input, .inr ⟨_, rfl⟩⟩
    | false => exact ⟨input, .inl rfl⟩

end Tracked

/-- Once no job is in work, no flush wants for a slot, and each takes one off the queue. -/
theorem drain_waiting (h : Custody m 0 s) (hslots : 0 < m.slots) (hjobs : s.jobs = []) :
    (∀ answer ∈ (drain m s.waiting.length s).1, answer ≠ .error .noFreeSlot) ∧
      Custody m 0 (drain m s.waiting.length s).2 ∧
      (drain m s.waiting.length s).2.jobs = [] ∧ (drain m s.waiting.length s).2.waiting = [] := by
  generalize hn : s.waiting.length = n
  induction n generalizing s with
  | zero => exact ⟨nofun, h, hjobs, List.eq_nil_of_length_eq_zero hn⟩
  | succ n ih =>
    obtain ⟨work, waiting, hwaiting⟩ := List.exists_cons_of_length_eq_add_one hn
    have hfree : s.free ≠ [] := by
      refine List.ne_nil_of_length_pos ?_
      rw [h.free_of_jobs hjobs]
      exact hslots
    obtain ⟨hanswer, hrest⟩ := flush_waiting (m := m) hfree hwaiting
    have hlength : ((s.flush m).2.runAll m).2.waiting.length = n := by
      rw [runAll_waiting, hrest]
      rw [hwaiting, List.length_cons] at hn
      omega
    obtain ⟨hanswers, hend⟩ := ih h.flush.runAll (runAll_jobs m _) hlength
    exact ⟨List.forall_mem_cons.2 ⟨hanswer, hanswers⟩, hend⟩

/-- Whatever waits or is in work, with a slot or more every queued request is handed back in its
turn. -/
theorem collect_drained {w : Warrant m} {requests : List Request} {first : Nat}
    (h : Tracked w requests first [] s) (hcustody : Custody m 0 s) (hslots : 0 < m.slots) :
    let drained := drain m s.waiting.length (s.runAll m).2
    List.Forall₂ (fun answer r => ∃ o, answer = .ok o ∧ w.HandsBack o r)
        (collect s.tasks.length drained.2).1 (requests.drop first) ∧
      (collect s.tasks.length drained.2).2.tasks = [] := by
  intro drained
  obtain ⟨-, -, hjobs, hwaiting⟩ := drain_waiting hcustody.runAll hslots (runAll_jobs m s)
  rw [runAll_waiting] at hjobs hwaiting
  have hdrained : Tracked w requests first [] drained.2 := h.runAll.drain s.waiting.length
  have hcount : drained.2.tasks.length = s.tasks.length := by
    have hbefore := h.count
    have hafter := hdrained.count
    omega
  rw [← hcount]
  exact hdrained.collect hwaiting hjobs

/-- A request that is accepted is the last one to be handed back when the backlog is worked off. -/
theorem last_collected (w : Warrant m) {r : Request} (hs : Reachable m s) (hslots : 0 < m.slots)
    (hcheck : checkRequest m r = .ok ()) :
    let queued := (s.execute m r).2
    let drained := drain m queued.waiting.length (queued.runAll m).2
    ∃ o, (collect queued.tasks.length drained.2).1.getLast? = some (.ok o) ∧ w.HandsBack o r := by
  obtain ⟨commands, rfl⟩ := hs
  have hcustody := ((Custody.start m).run commands).execute r
  have htracked := ((Tracked.start w).run commands).1
  generalize [] ++ accepted m commands = requests,
    0 + (handedBack (run m (start m) commands).1).length = first at htracked
  have hcount := htracked.count
  have haccepted : (Command.execute r).accepted? m = some r := by simp [Command.accepted?, hcheck]
  have hqueued := htracked.execute r
  rw [haccepted, Option.toList_some] at hqueued
  intro queued drained
  obtain ⟨hall, -⟩ := collect_drained hqueued hcustody hslots
  rw [List.drop_append_of_le_length (by omega)] at hall
  obtain ⟨answer, rest, ⟨o, rfl, hback⟩, hrest, hlast⟩ :=
    List.forall₂_cons_right_iff.1 (List.forall₂_drop_append _ _ _ hall)
  cases hrest
  have hsplit := List.take_append_drop (requests.drop first).length
    (collect queued.tasks.length drained.2).1
  rw [hlast] at hsplit
  refine ⟨o, ?_, hback⟩
  rw [← hsplit]
  exact List.getLast?_concat

theorem length_drain (m : Model) (n : Nat) (s : Session) : (drain m n s).1.length = n := by
  induction n generalizing s with
  | zero => rfl
  | succ n ih => exact congrArg (· + 1) (ih _)

theorem length_collect (n : Nat) (s : Session) : (collect n s).1.length = n := by
  induction n generalizing s with
  | zero => rfl
  | succ n ih => exact congrArg (· + 1) (ih _)

/-- From any state the backlog is worked off by running all jobs and then flushing and running all
jobs as often as work was waiting; no flush finds all slots in use, and every slot is free in the
end. Then as many requests as were queued are handed back, and no more. -/
theorem backlog_drained (hs : Reachable m s) (hslots : 0 < m.slots) :
    let drained := drain m s.waiting.length (s.runAll m).2
    let collected := collect s.tasks.length drained.2
    (drained.1.length = s.waiting.length ∧ ∀ answer ∈ drained.1, answer ≠ .error .noFreeSlot) ∧
      drained.2.waiting = [] ∧ drained.2.jobs = [] ∧ drained.2.inFlight = 0 ∧
      drained.2.free.length = m.slots ∧
      (collected.1.length = s.tasks.length ∧ ∀ answer ∈ collected.1, IsHandedBack answer) ∧
      collected.2.getResult.1 = .ok .emptyQueue := by
  obtain ⟨commands, rfl⟩ := hs
  have hcustody := (Custody.start m).run commands
  have htracked := ((Tracked.start m.anyway).run commands).1
  generalize (run m (start m) commands).2 = s at hcustody htracked ⊢
  intro drained collected
  obtain ⟨hanswers, hcustody', hjobs, hwaiting⟩ :=
    drain_waiting hcustody.runAll hslots (runAll_jobs m s)
  rw [runAll_waiting] at hanswers hcustody' hjobs hwaiting
  obtain ⟨hall, hempty⟩ := collect_drained htracked hcustody hslots
  have houtcomes : ∀ answer ∈ collected.1, IsHandedBack answer := by
    refine ((List.forall₂_and_left _ _).1 (hall.imp fun answer r hback => ⟨?_, hback⟩)).1
    obtain ⟨o, rfl, hback⟩ := hback
    exact Tracked.isHandedBack_of_handsBack hback
  refine ⟨⟨length_drain m _ _, hanswers⟩, hwaiting, hjobs, ?_, hcustody'.free_of_jobs hjobs,
    ⟨length_collect _ _, houtcomes⟩, ?_⟩
  · rw [hcustody'.inFlight, hjobs]
    rfl
  · have hnone : collected.2.tasks = [] := hempty
    simp only [getResult, hnone]

/-- Two requests wait for the slots of two others, the first of them for an input that is not
there. -/
theorem backlog_drained_of_copy :
    ∃ s, Reachable (.copy true) s ∧ s.jobs.length = 2 ∧ 0 < (Model.copy true).slots ∧
      (drain (.copy true) 2 (s.runAll (.copy true)).2).1 =
        [.error (.badArgument (.noInput "z")), .ok ()] ∧
      (drain (.copy true) 2 (s.runAll (.copy true)).2).2.free.length = 2 := by
  let s := (run (.copy true) (start (.copy true)) [.execute (.ofPixel 1), .execute (.ofPixel 2),
    .execute (.ofPixel 3 "z"), .execute (.ofPixel 4)]).2
  have hs : Reachable (.copy true) s := ⟨_, rfl⟩
  have hslots : 0 < (Model.copy true).slots := Model.ofGraph_slots_pos ..
  have hwaiting : s.waiting.length = 2 := by decide +kernel
  obtain ⟨-, -, -, -, hfree, -⟩ := backlog_drained hs hslots
  rw [hwaiting] at hfree
  exact ⟨s, hs, by decide +kernel, hslots, by decide +kernel, hfree⟩

end Inference.Session
