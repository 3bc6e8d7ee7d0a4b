import Inference.Proofs.JobQueue.History
/-! Each job runs once. A step takes one job off the queue, at either end, and puts those that it queues
behind all others; what this keeps is said of places, so that it holds for jobs that are alike too. -/
namespace Inference

namespace History

open Relation

variable {s : History} {e : Posted} {others : List Posted} {p q c : Place}

/-- The places of the jobs that ran. -/
def ranAt (s : History) : List Place := s.ran.map Posted.place

/-- The places of the jobs that are queued. -/
def queuedAt (s : History) : List Place := s.queued.map Posted.place

/-- No place comes before that of the job which queued it. -/
def ParentsFirst (places : List Place) : Prop :=
  ∀ before c after, places = before ++ c :: after → ∀ p, p.ParentOf c → p ∈ before

theorem ParentsFirst.concat {places : List Place} (h : ParentsFirst places)
    (hc : ∀ p, p.ParentOf c → p ∈ places) : ParentsFirst (places ++ [c]) := by
  intro before d after hsplit p hp
  obtain rfl | ⟨after, last, rfl⟩ := List.eq_nil_or_concat after
  · obtain ⟨rfl, hd⟩ := List.append_inj' hsplit rfl
    cases hd
    exact hc p hp
  · rw [List.concat_eq_append, ← List.cons_append, ← List.append_assoc] at hsplit
    obtain ⟨hplaces, -⟩ := List.append_inj' hsplit rfl
    exact h before d after hplaces p hp

/-- What every step keeps. -/
structure Orderly (s : History) : Prop where
  located : ∀ e ∈ s.ran ++ s.queued, e.place.job? s.trees = some e.job
  once : (s.ranAt ++ s.queuedAt).Nodup
  parentsFirst : ParentsFirst s.ranAt
  parentsRan : ∀ c ∈ s.queuedAt, ∀ p, p.ParentOf c → p ∈ s.ranAt
  /-- What has not run is queued or below a job that is. -/
  covered : ∀ p, (p.job? s.trees).isSome →
    p ∈ s.ranAt ∨ ∃ q ∈ s.queuedAt, ReflTransGen Place.ParentOf q p

namespace Orderly

theorem empty : Orderly {} where
  located := nofun
  once := .nil
  parentsFirst before c after hsplit := by simp [ranAt] at hsplit
  parentsRan := nofun
  covered p hp := by simp [Place.job?] at hp

theorem parent_ran (h : s.Orderly) (hc : c ∈ s.ranAt ++ s.queuedAt) (hp : p.ParentOf c) :
    p ∈ s.ranAt := by
  obtain hran | hqueued := List.mem_append.1 hc
  · obtain ⟨before, after, hsplit⟩ := List.append_of_mem hran
    rw [hsplit]
    exact List.mem_append_left _ (h.parentsFirst before c after hsplit p hp)
  · exact h.parentsRan c hqueued p hp

theorem above_ran (h : s.Orderly) (hp : TransGen Place.ParentOf p c)
    (hc : c ∈ s.ranAt ++ s.queuedAt) : p ∈ s.ranAt := by
  induction hp with
  | single hp => exact h.parent_ran hc hp
  | tail _ hp ih => exact ih (List.mem_append_left _ (h.parent_ran hc hp))

/-- A job that is queued has not run. -/
theorem not_ran (h : s.Orderly) (hp : p ∈ s.queuedAt) : p ∉ s.ranAt :=
  fun hran => (List.nodup_append.1 h.once).2.2 p hran p hp rfl

/-- A job below a queued one has not run and is not queued. -/
theorem not_reached (h : s.Orderly) (hq : q ∈ s.queuedAt) (hp : TransGen Place.ParentOf q p) :
    p ∉ s.ranAt ++ s.queuedAt :=
  fun hreached => h.not_ran hq (h.above_ran hp hreached)

/-! ### Steps -/

theorem tree_lt (h : s.Orderly) (hp : p ∈ s.ranAt ++ s.queuedAt) : p.tree < s.trees.length := by
  rw [ranAt, queuedAt, ← List.map_append] at hp
  obtain ⟨e, he, rfl⟩ := List.mem_map.1 hp
  exact Place.tree_lt_of_isSome (Option.isSome_iff_exists.2 ⟨_, h.located e he⟩)

theorem spawn (h : s.Orderly) (job : JobTree) : (s.spawn job).Orderly := by
  have hqueuedAt : (s.spawn job).queuedAt = s.queuedAt ++ [.root s.trees.length] := by
    simp [queuedAt, History.spawn]
  constructor
  case located =>
    intro e he
    rw [History.spawn, ← List.append_assoc, List.mem_append, List.mem_singleton] at he
    obtain he | rfl := he
    · have hlt := Place.tree_lt_of_isSome (Option.isSome_iff_exists.2 ⟨_, h.located e he⟩)
      exact (Place.job?_append hlt _).trans (h.located e he)
    · exact (Place.job?_root ..).trans List.getElem?_concat_length
  case once =>
    rw [hqueuedAt, ← List.append_assoc, ← List.concat_eq_append]
    exact h.once.concat fun hroot => Nat.lt_irrefl _ (h.tree_lt hroot)
  case parentsFirst => exact h.parentsFirst
  case parentsRan =>
    intro c hc p hp
    rw [hqueuedAt, List.mem_append, List.mem_singleton] at hc
    obtain hc | rfl := hc
    · exact h.parentsRan c hc p hp
    · exact absurd hp (Place.not_parentOf_root p _)
  case covered =>
    intro p hp
    rw [hqueuedAt]
    by_cases hlt : p.tree < s.trees.length
    · rw [History.spawn, Place.job?_append hlt] at hp
      obtain hran | ⟨q, hq, habove⟩ := h.covered p hp
      · exact .inl hran
      · exact .inr ⟨q, List.mem_append_left _ hq, habove⟩
    · have htree : p.tree = s.trees.length := by
        have hle := Place.tree_lt_of_isSome hp
        simp only [History.spawn, List.length_append, List.length_singleton] at hle
        omega
      refine .inr ⟨.root s.trees.length, List.mem_append_right _ (List.mem_singleton_self _), ?_⟩
      exact htree ▸ p.root_above

/-- The order of the queue does not matter. -/
theorem rearrange (h : s.Orderly) {jobs : List Posted} (hjobs : s.queued.Perm jobs) :
    Orderly { s with queued := jobs } := by
  have hplaces : s.queuedAt.Perm (jobs.map Posted.place) := hjobs.map Posted.place
  constructor
  case located => exact fun e he => h.located e ((hjobs.append_left s.ran).mem_iff.2 he)
  case once => exact (hplaces.append_left s.ranAt).nodup_iff.1 h.once
  case parentsFirst => exact h.parentsFirst
  case parentsRan => exact fun c hc => h.parentsRan c (hplaces.mem_iff.2 hc)
  case covered =>
    intro p hp
    obtain hran | ⟨q, hq, habove⟩ := h.covered p hp
    · exact .inl hran
    · exact .inr ⟨q, hplaces.mem_iff.1 hq, habove⟩

/-- A job that runs is still reached, and those that it queues are so now. -/
theorem take_reached (hqueued : s.queued = e :: others) :
    (s.take e others).ran ++ (s.take e others).queued = s.ran ++ s.queued ++ e.next := by
  simp [History.take, hqueued]

theorem take (h : s.Orderly) (hqueued : s.queued = e :: others) : (s.take e others).Orderly := by
  have hqueuedAt : s.queuedAt = e.place :: others.map Posted.place := by
    rw [queuedAt, hqueued, List.map_cons]
  have hranAt' : (s.take e others).ranAt = s.ranAt ++ [e.place] := by simp [ranAt, History.take]
  have hqueuedAt' : (s.take e others).queuedAt =
      others.map Posted.place ++ e.next.map Posted.place := by
    simp [queuedAt, History.take]
  have he : e.place ∈ s.queuedAt := hqueuedAt ▸ List.mem_cons_self ..
  have hjob : e.place.job? s.trees = some e.job :=
    h.located e (List.mem_append_right _ (hqueued ▸ List.mem_cons_self ..))
  constructor
  case located =>
    intro d hd
    rw [take_reached hqueued] at hd
    obtain hd | hd := List.mem_append.1 hd
    · exact h.located d hd
    · exact Posted.job?_of_mem_next hjob hd
  case once =>
    have hreached := congrArg (List.map Posted.place) (take_reached hqueued)
    simp only [List.map_append] at hreached
    rw [ranAt, queuedAt, hreached, List.nodup_append]
    refine ⟨h.once, e.nodup_next, ?_⟩
    -- the parent of a job that had been reached before would have run already
    rintro c hc c' hc' rfl
    exact h.not_ran he (h.parent_ran hc ((Posted.mem_map_next hjob).1 hc').1)
  case parentsFirst =>
    rw [hranAt']
    exact h.parentsFirst.concat (h.parentsRan e.place he)
  case parentsRan =>
    intro c hc p hp
    rw [hranAt']
    rw [hqueuedAt'] at hc
    obtain hc | hc := List.mem_append.1 hc
    · exact List.mem_append_left _ (h.parentsRan c (hqueuedAt ▸ List.mem_cons_of_mem _ hc) p hp)
    · rw [hp.unique ((Posted.mem_map_next hjob).1 hc).1]
      exact List.mem_append_right _ (List.mem_singleton_self _)
  case covered =>
    intro p hp
    rw [hranAt', hqueuedAt']
    obtain hran | ⟨q, hq, habove⟩ := h.covered p hp
    · exact .inl (List.mem_append_left _ hran)
    · obtain rfl | hq := List.mem_cons.1 (hqueuedAt ▸ hq)
      · obtain rfl | ⟨c, hc, hbelow⟩ := habove.cases_head
        · exact .inl (List.mem_append_right _ (List.mem_singleton_self _))
        · have hnext := (Posted.mem_map_next hjob).2 ⟨hc, Place.isSome_of_above hbelow hp⟩
          exact .inr ⟨c, List.mem_append_right _ hnext, hbelow⟩
      · exact .inr ⟨q, List.mem_append_left _ hq, habove⟩

theorem runNext (h : s.Orderly) : s.runNext.Orderly := by
  unfold History.runNext
  split
  next => exact h
  next e others hqueued => exact h.take hqueued

theorem runLast (h : s.Orderly) : s.runLast.Orderly := by
  unfold History.runLast
  split
  next => exact h
  next e hlast =>
    have hqueued : s.queued.Perm (e :: s.queued.dropLast) :=
      (List.Perm.of_eq (List.dropLast_append_getLast? e hlast).symm).trans
        (List.perm_append_singleton ..)
    exact (h.rearrange hqueued).take rfl

theorem runAll_take (hqueued : s.queued = e :: others) :
    s.runAll = (s.take e others).runAll := by
  simp [History.runAll, History.take, hqueued, Posted.runOrder]

theorem runAll (h : s.Orderly) : s.runAll.Orderly := by
  generalize hqueued : s.queued = jobs
  induction jobs using Posted.runOrder.induct generalizing s with
  | case1 =>
    have hsame : s.runAll = s := by
      obtain ⟨trees, ran, queued⟩ := s
      cases hqueued
      simp [History.runAll, Posted.runOrder]
    rw [hsame]
    exact h
  | case2 e others ih =>
    rw [runAll_take hqueued]
    exact ih (h.take hqueued) rfl

theorem step (h : s.Orderly) (command : JobQueue.Command) : (s.step command).Orderly := by
  cases command with
  | spawn job => exact h.spawn job
  | runNext => exact h.runNext
  | runLast => exact h.runLast
  | runAll | shutdown => exact h.runAll

theorem run (h : s.Orderly) (commands : List JobQueue.Command) :
    (commands.foldl History.step s).Orderly := by
  induction commands generalizing s with
  | nil => exact h
  | cons command commands ih => exact ih (h.step command)

end Orderly

/-! ### Where a job stands -/

/-- How far a job has come. -/
inductive Stage where
  | ran
  | queued
  | below
  deriving DecidableEq

def Stands (s : History) (p : Place) : Stage → Prop
  | .ran => p ∈ s.ranAt
  | .queued => p ∈ s.queuedAt
  | .below => ∃ q ∈ s.queuedAt, TransGen Place.ParentOf q p

theorem Orderly.exists_stands (h : s.Orderly) (hp : (p.job? s.trees).isSome) :
    ∃ x, s.Stands p x := by
  obtain hran | ⟨q, hq, habove⟩ := h.covered p hp
  · exact ⟨.ran, hran⟩
  · obtain rfl | hbelow := reflTransGen_iff_eq_or_transGen.1 habove
    · exact ⟨.queued, hq⟩
    · exact ⟨.below, q, hq, hbelow⟩

theorem Orderly.stands_unique (h : s.Orderly) {x y : Stage} (hx : s.Stands p x)
    (hy : s.Stands p y) : x = y := by
  have hbelow : s.Stands p .below → p ∉ s.ranAt ++ s.queuedAt := fun ⟨q, hq, hp⟩ =>
    h.not_reached hq hp
  cases x <;> cases y <;> try rfl
  case ran.queued => exact absurd hx (h.not_ran hy)
  case queued.ran => exact absurd hy (h.not_ran hx)
  case ran.below => exact absurd (List.mem_append_left _ hx) (hbelow hy)
  case below.ran => exact absurd (List.mem_append_left _ hy) (hbelow hx)
  case queued.below => exact absurd (List.mem_append_right _ hx) (hbelow hy)
  case below.queued => exact absurd (List.mem_append_right _ hy) (hbelow hx)

/-- What is known of the jobs of all trees that were queued. -/
structure RunsOnce (s : History) : Prop where
  located : ∀ e ∈ s.ran ++ s.queued, e.place.job? s.trees = some e.job
  once : (s.ranAt ++ s.queuedAt).Nodup
  parentsFirst : ParentsFirst s.ranAt
  /-- A job has run, or is queued, or is below a job that is queued, and only one of these. -/
  stage : ∀ p, (p.job? s.trees).isSome → ∃! x, s.Stands p x

theorem Orderly.runsOnce (h : s.Orderly) : s.RunsOnce where
  located := h.located
  once := h.once
  parentsFirst := h.parentsFirst
  stage p hp := by
    obtain ⟨x, hx⟩ := h.exists_stands hp
    exact ⟨x, hx, fun y hy => h.stands_unique hy hx⟩

end History

namespace JobQueue

/-- Whatever is asked of a queue in whatever order, each job of each tree runs at most once and behind
the one that queues it; until then it is queued, or below a job that is. Running all jobs comes to its
end from any queue, level by level. -/
theorem each_runs_once (commands : List Command) :
    ((history commands).trees = spawned commands ∧
        ((history commands).ran.map Posted.job, (history commands).queue) = run {} commands) ∧
      (history commands).RunsOnce ∧
      ∀ q : JobQueue, q.EmptiesTo (step q .runAll) ∧ q.EmptiesTo (step q .shutdown) := by
  obtain ⟨hran, hqueue⟩ := History.run_erased {} commands
  refine ⟨⟨History.run_trees {} commands, Prod.ext hran hqueue⟩, ?_, fun q => ?_⟩
  · exact (History.Orderly.empty.run commands).runsOnce
  · exact ⟨emptiesTo_runAll q, emptiesTo_runAll q⟩

/-- The oldest and the newest job first, then all that these have left and queued. -/
example : (run {} [.spawn (.node 1 [.node 2 [.node 5 []], .node 3 []]), .spawn (.node 4 []),
    .runNext, .runLast, .runAll]).1.map JobTree.number = [1, 3, 4, 2, 5] := by
  cbv

end JobQueue
end Inference
