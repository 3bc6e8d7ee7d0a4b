import Inference.Proofs.Session.Accounting
import Inference.Proofs.Session.Custody
/-! The end of a session: the inference of each job that is left is run once, in the order of the
jobs, and then no buffer is left. -/
namespace Inference.Session

variable {m : Model} {s : Session}

/-- The inferences of jobs, one after the other. -/
def runJobs (m : Model) (jobs : List Job) (s : Session) : Session :=
  jobs.foldl (fun s job => (runInference m job.slot job.work s).2) s

theorem runJobs_recount (m : Model) (todo : List Job) (s : Session) (jobs : List Job)
    (inFlight : Nat) :
    runJobs m todo { s with jobs, inFlight } = { runJobs m todo s with jobs, inFlight } := by
  induction todo generalizing s with
  | nil => rfl
  | cons job todo ih =>
    simp only [runJobs, List.foldl_cons, runInference_recount]
    exact ih _

/-- Running the next job as often as there are jobs runs each job once. -/
theorem foldl_runNext {jobs : List Job} (hjobs : s.jobs = jobs) :
    jobs.foldl (fun s _ => (s.runNext m).2) s =
      { runJobs m jobs s with jobs := [], inFlight := s.inFlight - jobs.length } := by
  -- No inference looks at the queue, so its jobs may be taken off it at the end.
  induction jobs generalizing s with
  | nil =>
    cases s
    cases hjobs
    rfl
  | cons job jobs ih =>
    have hnext : (s.runNext m).2 =
        { (runInference m job.slot job.work s).2 with jobs, inFlight := s.inFlight - 1 } := by
      have hjob : s.jobs[0]? = some job := by rw [hjobs]; rfl
      rw [runNext, runJob_eq m s hjob, runInference_recount, hjobs]
      rfl
    rw [List.foldl_cons, hnext, ih rfl, runJobs_recount, List.length_cons, Nat.add_comm,
      ← Nat.sub_sub]
    rfl

theorem runAll_eq (m : Model) (s : Session) :
    s.runAll m = (s.jobs.length,
      { runJobs m s.jobs s with jobs := [], inFlight := s.inFlight - s.jobs.length }) := by
  rw [runAll, foldl_runNext rfl]

/-- Running all jobs is a run of commands like any other. -/
theorem foldl_runNext_eq_run (m : Model) (jobs : List Job) (s : Session) :
    jobs.foldl (fun s _ => (s.runNext m).2) s =
      (run m s (List.replicate jobs.length (.runJob 0))).2 := by
  induction jobs generalizing s with
  | nil => rfl
  | cons job jobs ih => exact ih _

/-- A request for an input that is not there, one that becomes a job, and a probe before it ends. -/
example : endings (.copy true) (start (.copy true)) [.execute (.ofPixel 1 "z"),
    .execute (.ofPixel 2), .getOutput "x" 1 1 "y", .runJob 0] =
      [.unplaced, .through, .through] := by
  decide +kernel

end Inference.Session
