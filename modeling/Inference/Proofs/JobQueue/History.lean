import Inference.Proofs.JobQueue.Emptying
import Inference.Proofs.JobQueue.Place
import Mathlib.Data.List.Nodup
/-! All that was queued and all that ran, for any commands in any order. A history keeps the place of
each job beside it, and without the places it is the queue and the jobs that ran. -/
namespace Inference

/-- A job at its place. -/
structure Posted where
  place : Place
  job : JobTree

namespace Posted

open JobTree

/-- The jobs that a job queues. -/
def next (e : Posted) : List Posted :=
  e.job.next.mapIdx fun i job => ⟨e.place.child i, job⟩

theorem map_next (e : Posted) : e.next.map Posted.job = e.job.next := by
  ext i
  simp [next, Function.comp_def]

theorem mem_next {d e : Posted} :
    d ∈ e.next ↔ ∃ i, e.job.next[i]? = some d.job ∧ d.place = e.place.child i := by
  obtain ⟨place, job⟩ := d
  simp only [next, List.mem_mapIdx, Posted.mk.injEq, List.getElem?_eq_some_iff]
  constructor
  · rintro ⟨i, hi, hplace, hjob⟩
    exact ⟨i, ⟨hi, hjob⟩, hplace.symm⟩
  · rintro ⟨i, ⟨hi, hjob⟩, hplace⟩
    exact ⟨i, hi, hplace.symm, hjob⟩

theorem nodup_next (e : Posted) : (e.next.map Posted.place).Nodup := by
  have hplaces : e.next.map Posted.place = (List.range e.job.next.length).map e.place.child := by
    apply List.ext_getElem <;> simp [next]
  rw [hplaces]
  exact List.Nodup.map (fun _ _ h => (Place.child_inj.1 h).2) List.nodup_range

theorem job?_of_mem_next {d e : Posted} {trees : List JobTree}
    (he : e.place.job? trees = some e.job) (hd : d ∈ e.next) : d.place.job? trees = some d.job := by
  obtain ⟨i, hjob, hplace⟩ := mem_next.1 hd
  rw [hplace, Place.job?_child, he, Option.bind_some, hjob]

/-- The places below that of a job. -/
theorem mem_map_next {e : Posted} {c : Place} {trees : List JobTree}
    (he : e.place.job? trees = some e.job) :
    c ∈ e.next.map Posted.place ↔ e.place.ParentOf c ∧ (c.job? trees).isSome := by
  constructor
  · intro hc
    obtain ⟨d, hd, rfl⟩ := List.mem_map.1 hc
    obtain ⟨i, -, hplace⟩ := mem_next.1 hd
    exact ⟨⟨i, hplace⟩, Option.isSome_iff_exists.2 ⟨_, job?_of_mem_next he hd⟩⟩
  · rintro ⟨⟨i, rfl⟩, hc⟩
    rw [Place.job?_child, he, Option.bind_some] at hc
    obtain ⟨job, hjob⟩ := Option.isSome_iff_exists.1 hc
    exact List.mem_map.2 ⟨⟨e.place.child i, job⟩, mem_next.2 ⟨i, hjob, rfl⟩, rfl⟩

/-- The jobs in the order in which they run, as in a queue. -/
def runOrder : List Posted → List Posted
  | [] => []
  | e :: others => e :: runOrder (others ++ e.next)
termination_by jobs => countAll (jobs.map Posted.job)
decreasing_by
  simp only [List.map_append, map_next, List.map_cons, countAll, countAll_append, count_eq]
  omega

theorem map_runOrder (jobs : List Posted) :
    (runOrder jobs).map Posted.job = JobQueue.runOrder (jobs.map Posted.job) := by
  induction jobs using Posted.runOrder.induct with
  | case1 => simp [runOrder, JobQueue.runOrder]
  | case2 e others ih =>
    rw [runOrder, List.map_cons, ih, List.map_cons, JobQueue.runOrder, List.map_append, map_next]

end Posted

/-- The trees that were queued, the jobs that ran, oldest first, and those that are queued. -/
structure History where
  trees : List JobTree := []
  ran : List Posted := []
  queued : List Posted := []

namespace History

def queue (s : History) : JobQueue := ⟨s.queued.map Posted.job⟩

def spawn (s : History) (job : JobTree) : History :=
  { s with trees := s.trees ++ [job], queued := s.queued ++ [⟨.root s.trees.length, job⟩] }

/-- A job runs, and the others stay. -/
def take (s : History) (e : Posted) (others : List Posted) : History :=
  { s with ran := s.ran ++ [e], queued := others ++ e.next }

def runNext (s : History) : History :=
  match s.queued with
  | [] => s
  | e :: others => s.take e others

def runLast (s : History) : History :=
  match s.queued.getLast? with
  | none => s
  | some e => s.take e s.queued.dropLast

def runAll (s : History) : History :=
  { s with ran := s.ran ++ Posted.runOrder s.queued, queued := [] }

def step (s : History) : JobQueue.Command → History
  | .spawn job => s.spawn job
  | .runNext => s.runNext
  | .runLast => s.runLast
  | .runAll | .shutdown => s.runAll

end History

/-- The history of commands to a queue that is empty at first. -/
def history (commands : List JobQueue.Command) : History := commands.foldl History.step {}

namespace History

/-! ### A history is the queue -/

/-- Without the places a step of a history is one of the queue. -/
theorem step_erased (s : History) (command : JobQueue.Command) :
    (s.step command).ran.map Posted.job =
        s.ran.map Posted.job ++ (JobQueue.step s.queue command).1 ∧
      (s.step command).queue = (JobQueue.step s.queue command).2 := by
  cases command with
  | spawn job => simp [step, spawn, JobQueue.step, JobQueue.spawn, queue]
  | runNext =>
    cases hqueued : s.queued with
    | nil => simp [step, runNext, JobQueue.step, JobQueue.runNext, queue, hqueued]
    | cons e others =>
      simp [step, runNext, JobQueue.step, JobQueue.runNext, queue, hqueued, take, Posted.map_next]
  | runLast =>
    cases hlast : s.queued.getLast? with
    | none => simp [step, runLast, JobQueue.step, JobQueue.runLast, queue, hlast]
    | some e =>
      simp [step, runLast, JobQueue.step, JobQueue.runLast, queue, hlast, take, Posted.map_next]
  | runAll | shutdown =>
    simp [step, runAll, JobQueue.step, JobQueue.runAll, queue, Posted.map_runOrder]

theorem step_trees (s : History) (command : JobQueue.Command) :
    (s.step command).trees = s.trees ++ JobQueue.spawned [command] := by
  cases command with
  | spawn job => rfl
  | runNext =>
    rw [step, runNext]
    split <;> exact (List.append_nil _).symm
  | runLast =>
    rw [step, runLast]
    split <;> exact (List.append_nil _).symm
  | runAll | shutdown => exact (List.append_nil _).symm

theorem run_trees (s : History) (commands : List JobQueue.Command) :
    (commands.foldl step s).trees = s.trees ++ JobQueue.spawned commands := by
  induction commands generalizing s with
  | nil => exact (List.append_nil _).symm
  | cons command commands ih =>
    have hspawned : JobQueue.spawned (command :: commands) =
        JobQueue.spawned [command] ++ JobQueue.spawned commands :=
      List.filterMap_append (l := [command])
    rw [List.foldl_cons, ih, step_trees, List.append_assoc, hspawned]

theorem run_erased (s : History) (commands : List JobQueue.Command) :
    (commands.foldl step s).ran.map Posted.job =
        s.ran.map Posted.job ++ (JobQueue.run s.queue commands).1 ∧
      (commands.foldl step s).queue = (JobQueue.run s.queue commands).2 := by
  induction commands generalizing s with
  | nil => simp [JobQueue.run]
  | cons command commands ih =>
    obtain ⟨hran, hqueue⟩ := step_erased s command
    obtain ⟨hrans, hqueues⟩ := ih (s.step command)
    rw [hran, hqueue, List.append_assoc] at hrans
    rw [hqueue] at hqueues
    exact ⟨hrans, hqueues⟩

end History
end Inference
