import Inference.Proofs.Session.Tracked
/-! Where a queued request stands: its work waits, or is a job, or has ended one way or the other.
What asking for the oldest request comes to depends on where that one stands alone. -/
namespace Inference

/-- How far a queued request has come. -/
inductive Standing where
  | waiting
  | inFlight
  | finished
  | failed
  deriving DecidableEq

namespace Session

/-- The work of the task is in the queue or among the jobs as its standing says, once or not at all,
and the task is marked accordingly. -/
structure Stands (s : Session) (t : Task) (x : Standing) : Prop where
  waiting : s.waiting.countP (·.ticket == t.ticket) = if x = .waiting then 1 else 0
  jobs : s.jobs.countP (·.work.ticket == t.ticket) = if x = .inFlight then 1 else 0
  todo : t.todo = 1
  done : t.done = if x = .finished then 1 else 0
  failed : t.failed = decide (x = .failed)

variable {m : Model} {s : Session} {t : Task} {x y : Standing}

theorem Stands.unique (h : s.Stands t x) (h' : s.Stands t y) : x = y := by
  have hwaiting := h.waiting.symm.trans h'.waiting
  have hjobs := h.jobs.symm.trans h'.jobs
  have hdone := h.done.symm.trans h'.done
  cases x <;> cases y <;> simp at hwaiting hjobs hdone <;> rfl

theorem Stands.not_pending (h : s.Stands t x) (hx : x = .finished ∨ x = .failed) :
    ¬(s.Stands t .waiting ∨ s.Stands t .inFlight) := by
  rintro (h' | h')
  · cases h.unique h'
    simp at hx
  · cases h.unique h'
    simp at hx

/-- The ticket of the task is counted once among those that are pending, or not at all. -/
theorem count_pendingTickets (s : Session) (i : Nat) :
    (s.pendingTickets []).count i =
      s.jobs.countP (·.work.ticket == i) + s.waiting.countP (·.ticket == i) := by
  simp only [pendingTickets, pending, List.nil_append, List.map_append, List.map_map,
    List.count_eq_countP, List.countP_append, List.countP_map]
  rfl

namespace Tracked

variable {w : Warrant m} {requests : List Request} {first : Nat}

theorem stands_pending (h : Tracked w requests first [] s) (ht : t ∈ s.tasks)
    (hpend : t.ticket ∈ s.pendingTickets []) : s.Stands t .waiting ∨ s.Stands t .inFlight := by
  obtain ⟨r, -, htask⟩ := h.unsettled t ht hpend
  have htodo : t.todo = 1 := by rw [htask]; rfl
  have hdone : t.done = 0 := by rw [htask]; rfl
  have hfailed : t.failed = false := by rw [htask]; rfl
  have hcount := List.count_eq_one_of_mem h.nodup hpend
  rw [count_pendingTickets] at hcount
  by_cases hjobs : s.jobs.countP (·.work.ticket == t.ticket) = 0
  · exact .inl ⟨by simp only [if_true]; omega, hjobs, htodo, hdone, hfailed⟩
  · refine .inr ⟨?_, ?_, htodo, hdone, hfailed⟩
    · simp only [reduceCtorEq, if_false]
      omega
    · simp only [if_true]
      omega

theorem stands_settled (h : Tracked w requests first [] s) (ht : t ∈ s.tasks)
    (hpend : t.ticket ∉ s.pendingTickets []) : s.Stands t .finished ∨ s.Stands t .failed := by
  obtain ⟨r, ok, frames, -, -, htask⟩ := h.settled t ht hpend
  have hcount := List.count_eq_zero_of_not_mem hpend
  rw [count_pendingTickets] at hcount
  have hjobs : s.jobs.countP (·.work.ticket == t.ticket) = 0 := by omega
  have hwaiting : s.waiting.countP (·.ticket == t.ticket) = 0 := by omega
  have htodo : t.todo = 1 := by rw [htask]; rfl
  cases ok with
  | true => exact .inl ⟨hwaiting, hjobs, htodo, by rw [htask]; rfl, by rw [htask]; rfl⟩
  | false => exact .inr ⟨hwaiting, hjobs, htodo, by rw [htask]; rfl, by rw [htask]; rfl⟩

theorem exists_stands (h : Tracked w requests first [] s) (ht : t ∈ s.tasks) :
    ∃ x, s.Stands t x := by
  by_cases hpend : t.ticket ∈ s.pendingTickets []
  · rcases h.stands_pending ht hpend with hx | hx
    · exact ⟨_, hx⟩
    · exact ⟨_, hx⟩
  · rcases h.stands_settled ht hpend with hx | hx
    · exact ⟨_, hx⟩
    · exact ⟨_, hx⟩

/-- A task keeps an input frame, whatever became of it. -/
theorem input_isSome (h : Tracked w requests first [] s) (ht : t ∈ s.tasks) :
    t.frames.input.isSome := by
  by_cases hpend : t.ticket ∈ s.pendingTickets []
  · obtain ⟨r, -, htask⟩ := h.unsettled t ht hpend
    rw [htask]
    rfl
  · obtain ⟨r, ok, frames, -, hserved, htask⟩ := h.settled t ht hpend
    rw [htask]
    exact w.input hserved

end Tracked

theorem finished_of_stands (h : s.Stands t x) : t.finished = decide (x = .finished) := by
  simp only [Task.finished, h.todo, h.done]
  cases x <;> rfl

/-- Before the oldest request has ended nothing changes. -/
theorem getResult_of_pending {tasks : List Task} (htasks : s.tasks = t :: tasks)
    (h : s.Stands t .waiting ∨ s.Stands t .inFlight) : s.getResult = (.ok .notReady, s) := by
  rcases h with h | h
  · simp [getResult, htasks, h.failed, finished_of_stands h]
  · simp [getResult, htasks, h.failed, finished_of_stands h]

/-- Once it has ended it is handed back and leaves the queue. -/
theorem getResult_of_ended {tasks : List Task} {input : Frame} (htasks : s.tasks = t :: tasks)
    (hinput : t.frames.input = some input) (h : s.Stands t x) (hx : x = .finished ∨ x = .failed) :
    s.getResult = (.ok (if x = .failed then .failed input else .ready input t.frames.output),
      { s with tasks }) := by
  rcases hx with rfl | rfl
  · simp [getResult, htasks, h.failed, finished_of_stands h, hinput]
  · simp [getResult, htasks, h.failed, hinput]

/-- Each queued task stands in one place; tasks are queued in the order of submission, the waiting
ones behind all others, and no job is without its task. -/
structure Orderly (s : Session) : Prop where
  standing : ∀ t ∈ s.tasks, ∃! x, s.Stands t x
  tickets : (s.tasks.map (·.ticket)).Pairwise (· < ·)
  waiting : s.waiting.map (·.ticket) <:+ s.tasks.map (·.ticket)
  jobs : ∀ job ∈ s.jobs, ∃ t ∈ s.tasks, t.ticket = job.work.ticket

/-- Asking for the oldest request tells where it stands, and takes it off the queue once it has
ended. -/
structure Polled (s : Session) : Prop where
  emptyQueue : s.getResult.1 = .ok .emptyQueue ↔ s.tasks = []
  notReady : s.getResult.1 = .ok .notReady ↔
    ∃ t ∈ s.tasks.head?, s.Stands t .waiting ∨ s.Stands t .inFlight
  unchanged : s.getResult.1 = .ok .emptyQueue ∨ s.getResult.1 = .ok .notReady → s.getResult.2 = s
  ended : ∀ t ∈ s.tasks.head?, ∀ x, s.Stands t x → x = .finished ∨ x = .failed →
    ∃ input, t.frames.input = some input ∧ s.getResult =
      (.ok (if x = .failed then .failed input else .ready input t.frames.output),
        { s with tasks := s.tasks.tail })

namespace Tracked

variable {w : Warrant m} {requests : List Request} {first : Nat}

theorem orderly (h : Tracked w requests first [] s) : s.Orderly := by
  refine ⟨fun t ht => ?_, ?_, h.waiting, fun job hjob => ?_⟩
  · obtain ⟨x, hx⟩ := h.exists_stands ht
    exact ⟨x, hx, fun y hy => hy.unique hx⟩
  · rw [h.tickets]
    exact List.pairwise_lt_range'
  · refine List.mem_map.1 (h.pending_mem _ ?_)
    refine List.mem_map_of_mem (List.mem_append_left _ ?_)
    exact List.mem_map_of_mem hjob

theorem polled (h : Tracked w requests first [] s) : s.Polled := by
  cases htasks : s.tasks with
  | nil =>
    have hresult : s.getResult = (.ok .emptyQueue, s) := by simp [Session.getResult, htasks]
    refine ⟨?_, ?_, ?_, ?_⟩ <;> simp [hresult, htasks]
  | cons t tasks =>
    have ht : t ∈ s.tasks := by simp [htasks]
    by_cases hpend : t.ticket ∈ s.pendingTickets []
    · have hstands := h.stands_pending ht hpend
      have hresult := getResult_of_pending htasks hstands
      refine ⟨by simp [hresult, htasks], by simp [hresult, htasks, hstands], by simp [hresult], ?_⟩
      intro u hu x hx hended
      rw [htasks, List.head?_cons, Option.mem_some] at hu
      subst hu
      exact absurd hstands (hx.not_pending hended)
    · obtain ⟨input, hinput⟩ := Option.isSome_iff_exists.1 (h.input_isSome ht)
      obtain ⟨x, hx, hended⟩ : ∃ x, s.Stands t x ∧ (x = .finished ∨ x = .failed) := by
        rcases h.stands_settled ht hpend with hx | hx
        · exact ⟨_, hx, .inl rfl⟩
        · exact ⟨_, hx, .inr rfl⟩
      have hresult := getResult_of_ended htasks hinput hx hended
      have hback : s.getResult.1 ≠ .ok .emptyQueue ∧ s.getResult.1 ≠ .ok .notReady := by
        rw [hresult]
        rcases hended with rfl | rfl <;> simp
      refine ⟨?_, ?_, ?_, ?_⟩
      · simp [hback.1, htasks]
      · simp [hback.2, htasks, hx.not_pending hended]
      · simp [hback.1, hback.2]
      · intro u hu y hy _
        rw [htasks, List.head?_cons, Option.mem_some] at hu
        subst hu
        cases hy.unique hx
        refine ⟨input, hinput, ?_⟩
        rw [hresult, htasks]
        rfl

end Tracked
end Session
end Inference
