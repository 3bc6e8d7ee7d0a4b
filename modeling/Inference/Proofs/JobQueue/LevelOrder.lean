import Inference.JobQueue
/-! The order in which all jobs of a queue run. Each one puts those that it queues behind all that are
queued by then, so that they run level by level. -/
namespace Inference

namespace JobTree

/-- The jobs of some trees are their roots and the jobs below. -/
theorem countAll_eq (jobs : List JobTree) :
    countAll jobs = jobs.length + countAll (jobs.flatMap next) := by
  induction jobs with
  | nil => rfl
  | cons job jobs ih =>
    rw [countAll, count_eq, ih, List.length_cons, List.flatMap_cons, countAll_append]
    omega

end JobTree

namespace JobQueue

open JobTree

/-- The jobs level by level: those of the list, then those that they queue, and so on. -/
def levelOrder : List JobTree → List JobTree
  | [] => []
  | job :: jobs => (job :: jobs) ++ levelOrder ((job :: jobs).flatMap next)
termination_by jobs => countAll jobs
decreasing_by rw [countAll_eq (job :: jobs), List.length_cons]; omega

/-- While the jobs in front run, those that they queue gather behind the others. -/
theorem runOrder_append (front back : List JobTree) :
    runOrder (front ++ back) = front ++ runOrder (back ++ front.flatMap next) := by
  induction front generalizing back with
  | nil => simp
  | cons job front ih =>
    rw [List.cons_append, runOrder, List.append_assoc, ih, List.flatMap_cons, List.append_assoc,
      List.cons_append]

theorem runOrder_eq_levelOrder (jobs : List JobTree) : runOrder jobs = levelOrder jobs := by
  induction jobs using levelOrder.induct with
  | case1 => rw [runOrder, levelOrder]
  | case2 job jobs ih =>
    have hlevel := runOrder_append (job :: jobs) []
    rw [List.append_nil, List.nil_append] at hlevel
    rw [hlevel, ih, levelOrder]

theorem length_runOrder (jobs : List JobTree) : (runOrder jobs).length = countAll jobs := by
  induction jobs using runOrder.induct with
  | case1 => rw [runOrder, countAll, List.length_nil]
  | case2 job jobs ih =>
    rw [runOrder, List.length_cons, ih, countAll_append, countAll, count_eq]
    omega

end JobQueue
end Inference
