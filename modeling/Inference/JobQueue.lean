/-! A queue of jobs that run only when they are told to. Running a job may queue others behind all
that are queued by then. -/
namespace Inference

/-- A job with its number, and the jobs that it queues, in order, when it runs. -/
inductive JobTree where
  | node (number : Int) (next : List JobTree)

namespace JobTree

def number : JobTree → Int
  | node number _ => number

def next : JobTree → List JobTree
  | node _ next => next

mutual

/-- The number of jobs in a tree. -/
def count : JobTree → Nat
  | node _ next => countAll next + 1

def countAll : List JobTree → Nat
  | [] => 0
  | job :: jobs => count job + countAll jobs

end

theorem count_eq (job : JobTree) : job.count = countAll job.next + 1 := by
  cases job; rw [count, next]

theorem countAll_append (xs ys : List JobTree) :
    countAll (xs ++ ys) = countAll xs + countAll ys := by
  induction xs with
  | nil => simp [countAll]
  | cons x xs ih => simp [countAll, ih]; omega

end JobTree

/-- The jobs in the order they were queued. -/
structure JobQueue where
  jobs : List JobTree := []

namespace JobQueue

def pending (q : JobQueue) : Nat := q.jobs.length

def spawn (q : JobQueue) (job : JobTree) : JobQueue := ⟨q.jobs ++ [job]⟩

/-- Runs the oldest job. -/
def runNext (q : JobQueue) : Option (JobTree × JobQueue) :=
  match q.jobs with
  | [] => none
  | job :: jobs => some (job, ⟨jobs ++ job.next⟩)

/-- Runs the newest job. -/
def runLast (q : JobQueue) : Option (JobTree × JobQueue) :=
  match q.jobs.getLast? with
  | none => none
  | some job => some (job, ⟨q.jobs.dropLast ++ job.next⟩)

/-- The jobs in the order in which they run, oldest first, those included that are queued on the
way. -/
def runOrder : List JobTree → List JobTree
  | [] => []
  | job :: jobs => job :: runOrder (jobs ++ job.next)
termination_by jobs => JobTree.countAll jobs
decreasing_by simp only [JobTree.countAll, JobTree.countAll_append, JobTree.count_eq]; omega

/-- Runs jobs until none is left. -/
def runAll (q : JobQueue) : List JobTree × JobQueue := (runOrder q.jobs, {})

def describe (q : JobQueue) : String := s!"DeferredExecutor \x7b pending: {q.pending} \x7d"

end JobQueue

/-- A pool of workers; each job given to it runs once. -/
structure Workers where
  threads : Nat
  deriving DecidableEq

namespace Workers

/-- A pool of the size asked for; zero asks for one worker for each hardware thread. -/
def ofCount (count hardwareThreads : Nat) : Workers :=
  ⟨if count = 0 then hardwareThreads else count⟩

def describe (w : Workers) : String := s!"ThreadPoolExecutor \x7b threads: {w.threads} \x7d"

end Workers
end Inference
