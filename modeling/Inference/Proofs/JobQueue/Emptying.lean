import Inference.Proofs.JobQueue.LevelOrder
/-! Commands to a queue, and the one that runs all its jobs. The jobs extend the queue that the loop
runs, so what goes down is the number of jobs in the trees and not the length of the queue. -/
namespace Inference.JobQueue

open JobTree

/-- What can be asked of a queue. -/
inductive Command where
  | spawn (job : JobTree)
  | runNext
  | runLast
  | runAll
  | shutdown

/-- The trees that are queued by commands. -/
def spawned (commands : List Command) : List JobTree :=
  commands.filterMap fun
    | .spawn job => some job
    | _ => none

/-- The jobs that a command runs, in order, and the queue that it leaves. -/
def step (q : JobQueue) : Command → List JobTree × JobQueue
  | .spawn job => ([], q.spawn job)
  | .runNext => (q.runNext.map fun (job, q) => ([job], q)).getD ([], q)
  | .runLast => (q.runLast.map fun (job, q) => ([job], q)).getD ([], q)
  | .runAll | .shutdown => q.runAll

def run (q : JobQueue) : List Command → List JobTree × JobQueue
  | [] => ([], q)
  | command :: commands =>
    let (first, q) := step q command
    let (others, q) := run q commands
    (first ++ others, q)

/-! ### Running all jobs -/

variable {q left : JobQueue} {ran : List JobTree} {count total : Nat}

/-- The loop that runs the oldest job and counts it, until there is none: from a queue and the count so
far to the jobs that ran, the count in the end and the queue that is left. -/
inductive Drains : JobQueue → Nat → List JobTree → Nat → JobQueue → Prop where
  | done {q : JobQueue} {count : Nat} (h : q.runNext = none) : Drains q count [] count q
  | next {q q' left : JobQueue} {count total : Nat} {job : JobTree} {ran : List JobTree}
    (h : q.runNext = some (job, q')) (rest : Drains q' (count + 1) ran total left) :
    Drains q count (job :: ran) total left

theorem runNext_nil : runNext ⟨[]⟩ = none := rfl

theorem runNext_cons (job : JobTree) (jobs : List JobTree) :
    runNext ⟨job :: jobs⟩ = some (job, ⟨jobs ++ job.next⟩) := rfl

/-- The loop comes to its end, whatever the queue. -/
theorem drains_runAll (q : JobQueue) (count : Nat) :
    Drains q count q.runAll.1 (count + q.runAll.1.length) q.runAll.2 := by
  obtain ⟨jobs⟩ := q
  simp only [runAll]
  induction jobs using runOrder.induct generalizing count with
  | case1 =>
    rw [runOrder]
    exact .done runNext_nil
  | case2 job jobs ih =>
    rw [runOrder, List.length_cons, Nat.add_comm _ 1, ← Nat.add_assoc]
    exact .next (runNext_cons job jobs) (ih (count + 1))

/-- It has no other end. -/
theorem Drains.eq (h : Drains q count ran total left) :
    q.runAll = (ran, left) ∧ total = count + ran.length := by
  induction h with
  | @done q count h =>
    obtain ⟨_ | ⟨job, jobs⟩⟩ := q
    · simp [runAll, runOrder]
    · rw [runNext_cons] at h
      cases h
  | @next q q' left count total job ran h rest ih =>
    obtain ⟨_ | ⟨first, jobs⟩⟩ := q
    · rw [runNext_nil] at h
      cases h
    · rw [runNext_cons] at h
      cases h
      simp only [runAll, Prod.mk.injEq] at ih
      obtain ⟨⟨hran, hleft⟩, htotal⟩ := ih
      simp only [runAll, runOrder, hran, hleft, htotal, List.length_cons, true_and]
      omega

/-- Each round of the loop runs the oldest job. -/
theorem Drains.run_replicate (h : Drains q count ran total left) :
    run q (.replicate ran.length .runNext) = (ran, left) := by
  induction h with
  | done => rfl
  | next h rest ih =>
    rw [List.length_cons, List.replicate_succ, run, step, h]
    simp only [Option.map_some, Option.getD_some, ih, List.singleton_append]

/-- What is known of a result that running all jobs of a queue comes to. -/
structure EmptiesTo (q : JobQueue) (result : List JobTree × JobQueue) : Prop where
  /-- The loop comes to an end, to this one only, and has counted the jobs that ran. -/
  ends : ∀ ran count left,
    Drains q 0 ran count left ↔ result = (ran, left) ∧ count = ran.length
  empty : result.2.jobs = []
  order : result.1 = levelOrder q.jobs
  length : result.1.length = countAll q.jobs
  /-- What becomes of the queue on the way is what becomes of it when jobs are run one by one. -/
  oneByOne : run q (.replicate result.1.length .runNext) = result

theorem emptiesTo_runAll (q : JobQueue) : q.EmptiesTo q.runAll where
  ends ran count left := by
    constructor
    · intro h
      obtain ⟨hrunAll, hcount⟩ := h.eq
      exact ⟨hrunAll, hcount.trans (Nat.zero_add _)⟩
    · rintro ⟨hrunAll, rfl⟩
      have hdrains := drains_runAll q 0
      rwa [hrunAll, Nat.zero_add] at hdrains
  empty := rfl
  order := runOrder_eq_levelOrder q.jobs
  length := length_runOrder q.jobs
  oneByOne := (drains_runAll q 0).run_replicate

end Inference.JobQueue
