import Inference.Proofs.Layer.Charge
import Inference.Proofs.Session.Draining
import Mathlib.Data.List.Induction
/-! The jobs of a session commute: each works on its own slot and its own task, and adds to the
accounts what it would add alone. So any order of running them ends in the same state, in which only
the free slots stand in another order. -/
namespace Inference

namespace Model

variable {m : Model} {s : Store} {l : Ledger}

theorem runLayers_charge (layers : List Layer) (index : Nat) : runLayers layers (s.charge l) index =
    ((runLayers layers s index).1, (runLayers layers s index).2.charge l) := by
  induction layers generalizing s index with
  | nil => rfl
  | cons layer layers ih =>
    simp only [runLayers, Layer.exec_charge]
    rcases layer.exec s with ⟨_ | _, t⟩
    · rfl
    · exact ih (index + 1)

theorem infer_charge (plan : Plan) (frames : Frames) : m.infer plan frames (s.charge l) =
    ((m.infer plan frames s).1, (m.infer plan frames s).2.1,
      (m.infer plan frames s).2.2.charge l) := by
  simp only [infer, runLayers_charge]
  rcases runLayers m.graph.layers s with ⟨_ | _, t⟩ <;> rfl

end Model

/-- What an inference leaves: how it ended, the frames for its task, its slot for the pool, and the
buffers that it adds to the accounts. -/
structure Residue where
  result : Except Error Unit
  frames : Frames
  slot : Slot
  ledger : Ledger

/-- What the inference of a job leaves, given the frames of its task. -/
def Job.residue (m : Model) (job : Job) (frames : Frames) : Residue :=
  let (result, frames, store) := m.infer job.work.plan frames ⟨job.slot.operands, {}⟩
  let slot := { job.slot with operands := store.operands }
  ⟨result, frames, slot.reset, store.ledger + ⟨0, slot.liveBuffers⟩⟩

namespace Session

variable {m : Model} {s t u : Session} {i j : Nat} {x y : Residue}

/-- Takes in what the inference of a task has left. -/
def absorb (s : Session) (ticket : Nat) (x : Residue) : Session :=
  { s.updateTask ticket (Task.settle x.result x.frames) with
    free := s.free ++ [x.slot]
    ledger := s.ledger + x.ledger }

/-- All that an inference does to a session is to leave its residue there. -/
theorem runInference_eq_absorb (m : Model) (job : Job) (s : Session) :
    (runInference m job.slot job.work s).2 =
      s.absorb job.work.ticket (job.residue m (s.frames job.work.ticket)) := by
  rcases hinfer : m.infer job.work.plan (s.frames job.work.ticket) ⟨job.slot.operands, {}⟩ with
    ⟨result, frames, store⟩
  have hcharged : Store.charge ⟨job.slot.operands, {}⟩ s.ledger = ⟨job.slot.operands, s.ledger⟩ :=
    congrArg (Store.mk _) (Ledger.ext (Nat.zero_add _) (Nat.zero_add _))
  have hrun := Model.infer_charge (m := m) (s := ⟨job.slot.operands, {}⟩) (l := s.ledger)
    job.work.plan (s.frames job.work.ticket)
  rw [hcharged, hinfer] at hrun
  rw [runInference_eq m job.slot job.work s hrun]
  have hledger : ∀ live : Nat, (⟨(store.ledger + s.ledger).allocated,
      (store.ledger + s.ledger).released + live⟩ : Ledger) =
        s.ledger + (store.ledger + ⟨0, live⟩) := by
    intro live
    ext
    · exact Nat.add_comm _ _
    · change store.ledger.released + s.ledger.released + live =
        s.ledger.released + (store.ledger.released + live)
      omega
  simp only [absorb, Job.residue, hinfer, ← hledger]
  rfl

/-- The sessions differ at most in the order of their free slots. -/
structure SameUpToPool (s t : Session) : Prop where
  tasks : s.tasks = t.tasks
  waiting : s.waiting = t.waiting
  free : s.free.Perm t.free
  jobs : s.jobs = t.jobs
  inFlight : s.inFlight = t.inFlight
  ledger : s.ledger = t.ledger
  nextTicket : s.nextTicket = t.nextTicket

namespace SameUpToPool

theorem refl (s : Session) : SameUpToPool s s := ⟨rfl, rfl, .refl _, rfl, rfl, rfl, rfl⟩

theorem trans (h : SameUpToPool s t) (h' : SameUpToPool t u) : SameUpToPool s u :=
  ⟨h.tasks.trans h'.tasks, h.waiting.trans h'.waiting, h.free.trans h'.free,
    h.jobs.trans h'.jobs, h.inFlight.trans h'.inFlight, h.ledger.trans h'.ledger,
    h.nextTicket.trans h'.nextTicket⟩

theorem absorb (h : SameUpToPool s t) (i : Nat) (x : Residue) :
    SameUpToPool (s.absorb i x) (t.absorb i x) := by
  refine ⟨?_, h.waiting, h.free.append_right _, h.jobs, h.inFlight, ?_, h.nextTicket⟩
  · simp only [Session.absorb, updateTask, h.tasks]
  · simp only [Session.absorb, h.ledger]

/-- The residues of two tasks may come in either order. -/
theorem absorb_comm (s : Session) (hne : i ≠ j) (x y : Residue) :
    SameUpToPool ((s.absorb i x).absorb j y) ((s.absorb j y).absorb i x) := by
  refine ⟨?_, rfl, ?_, rfl, rfl, Ledger.add_right_comm, rfl⟩
  · simp only [Session.absorb, updateTask, List.map_map]
    refine List.map_congr_left fun t _ => ?_
    by_cases hi : t.ticket = i
    · have hj : t.ticket ≠ j := fun he => hne (hi.symm.trans he)
      simp [Task.settle, hi, hne]
    · by_cases hj : t.ticket = j
      · simp [Task.settle, hj, Ne.symm hne]
      · simp [hi, hj]
  · simp only [Session.absorb, updateTask, List.append_assoc]
    exact (List.Perm.swap _ _ []).append_left _

theorem runInference (h : SameUpToPool s t) (job : Job) :
    SameUpToPool (runInference m job.slot job.work s).2 (runInference m job.slot job.work t).2 := by
  have hframes : s.frames job.work.ticket = t.frames job.work.ticket := by
    simp only [frames, h.tasks]
  rw [runInference_eq_absorb, runInference_eq_absorb, hframes]
  exact h.absorb _ _

theorem runJobs (h : SameUpToPool s t) (jobs : List Job) :
    SameUpToPool (runJobs m jobs s) (runJobs m jobs t) := by
  induction jobs generalizing s t with
  | nil => exact h
  | cons job jobs ih => exact ih (h.runInference job)

end SameUpToPool

/-- The frames of a task are not those that another one is left with. -/
theorem frames_absorb (hne : i ≠ j) (s : Session) (x : Residue) :
    (s.absorb i x).frames j = s.frames j := by
  have hsame : ((·.ticket == j) : Task → Bool) ∘
      (fun t => if t.ticket = i then Task.settle x.result x.frames t else t) = (·.ticket == j) := by
    funext t
    by_cases ht : t.ticket = i <;> simp [ht, Task.settle]
  simp only [frames, absorb, updateTask, List.find?_map, hsame]
  cases hfind : s.tasks.find? (·.ticket == j) with
  | none => rfl
  | some t =>
    have ht : t.ticket = j := by simpa using List.find?_some hfind
    have hti : t.ticket ≠ i := fun he => hne (he.symm.trans ht)
    simp [hti]

theorem runInference_comm (s : Session) {job job' : Job}
    (hne : job.work.ticket ≠ job'.work.ticket) :
    SameUpToPool
      (runInference m job'.slot job'.work (runInference m job.slot job.work s).2).2
      (runInference m job.slot job.work (runInference m job'.slot job'.work s).2).2 := by
  simp only [runInference_eq_absorb, frames_absorb hne, frames_absorb hne.symm]
  exact .absorb_comm s hne _ _

/-- Swapping neighbours makes any order out of any other. -/
theorem runJobs_perm {order order' : List Job} (hperm : order.Perm order')
    (hnodup : (order.map (·.work.ticket)).Nodup) (h : SameUpToPool s t) :
    SameUpToPool (runJobs m order s) (runJobs m order' t) := by
  induction hperm generalizing s t with
  | nil => exact h
  | cons job _ ih =>
    rw [List.map_cons, List.nodup_cons] at hnodup
    exact ih hnodup.2 (h.runInference job)
  | swap job job' jobs =>
    have hne : job'.work.ticket ≠ job.work.ticket := by
      intro he
      simp [he] at hnodup
    refine SameUpToPool.runJobs (SameUpToPool.trans (runInference_comm s hne) ?_) jobs
    exact (h.runInference job).runInference job'
  | trans hfirst _ ih ih' =>
    have hnodup' := ((hfirst.map (·.work.ticket)).nodup_iff).1 hnodup
    exact (ih hnodup h).trans (ih' hnodup' (.refl _))

end Session

section

variable {α : Type} {xs order : List α}

/-- What is taken from a list at one place after the other, and what is left of it. -/
def takeAt : List α → List Nat → List α × List α
  | xs, [] => ([], xs)
  | xs, place :: places =>
    match xs[place]? with
    | none => takeAt xs places
    | some x =>
      let (taken, left) := takeAt (xs.eraseIdx place) places
      (x :: taken, left)

theorem takeAt_none {place : Nat} (h : xs[place]? = none) (places : List Nat) :
    takeAt xs (place :: places) = takeAt xs places := by
  simp only [takeAt, h]

theorem takeAt_some {place : Nat} {x : α} (h : xs[place]? = some x) (places : List Nat) :
    takeAt xs (place :: places) =
      (x :: (takeAt (xs.eraseIdx place) places).1, (takeAt (xs.eraseIdx place) places).2) := by
  simp only [takeAt, h]

theorem takeAt_perm (xs : List α) (places : List Nat) :
    ((takeAt xs places).1 ++ (takeAt xs places).2).Perm xs := by
  induction places generalizing xs with
  | nil => exact .refl _
  | cons place places ih =>
    cases hx : xs[place]? with
    | none =>
      rw [takeAt_none hx]
      exact ih xs
    | some x =>
      rw [takeAt_some hx]
      obtain ⟨hlt, rfl⟩ := List.getElem?_eq_some_iff.1 hx
      exact ((ih _).cons _).trans (List.getElem_cons_eraseIdx_perm hlt)

/-- Every order can be taken. -/
theorem exists_takeAt (h : order.Perm xs) : ∃ places, takeAt xs places = (order, []) := by
  induction order generalizing xs with
  | nil =>
    rw [List.nil_perm.1 h]
    exact ⟨[], rfl⟩
  | cons x order ih =>
    obtain ⟨place, hlt, rfl⟩ := List.mem_iff_getElem.1 (h.subset List.mem_cons_self)
    have hrest := List.Perm.cons_inv (h.trans (List.getElem_cons_eraseIdx_perm hlt).symm)
    obtain ⟨places, hplaces⟩ := ih hrest
    refine ⟨place :: places, ?_⟩
    rw [takeAt_some (List.getElem?_eq_getElem hlt), hplaces]

/-- From the last place to the first, the list is taken backwards. -/
theorem takeAt_reverse_range (xs : List α) :
    takeAt xs (List.range xs.length).reverse = (xs.reverse, []) := by
  induction xs using List.reverseRecOn with
  | nil => rfl
  | append_singleton xs x ih =>
    have hlast : (xs ++ [x])[xs.length]? = some x := by simp
    have hrest : (xs ++ [x]).eraseIdx xs.length = xs := by
      rw [List.eraseIdx_append_of_length_le (Nat.le_refl _), Nat.sub_self, List.eraseIdx_cons_zero,
        List.append_nil]
    rw [List.length_append, List.length_singleton, List.range_succ, List.reverse_append,
      List.reverse_singleton, List.singleton_append, takeAt_some hlast, hrest, ih,
      List.reverse_append, List.reverse_singleton, List.singleton_append]

end

namespace Session

variable {m : Model} {s t : Session}

/-- Commands that run jobs run those at their places, one after the other. -/
theorem run_runJob (m : Model) (places : List Nat) (s : Session) :
    (run m s (places.map .runJob)).2 =
      { runJobs m (takeAt s.jobs places).1 s with
        jobs := (takeAt s.jobs places).2
        inFlight := s.inFlight - (takeAt s.jobs places).1.length } := by
  induction places generalizing s with
  | nil => rfl
  | cons place places ih =>
    have hrun : (run m s ((place :: places).map .runJob)).2 =
        (run m (s.runJob m place).2 (places.map .runJob)).2 := rfl
    rw [hrun, ih]
    cases hjob : s.jobs[place]? with
    | none =>
      rw [takeAt_none hjob]
      simp only [runJob, hjob]
    | some job =>
      rw [takeAt_some hjob]
      have hlength : s.inFlight - 1 - (takeAt (s.jobs.eraseIdx place) places).1.length =
          s.inFlight - ((takeAt (s.jobs.eraseIdx place) places).1.length + 1) := by omega
      simp only [runJob_eq m s hjob, runInference_recount, runJobs_recount, hlength]
      rfl

/-- Runs the newest job as often as there are jobs. -/
def runAllLast (m : Model) (s : Session) : Session :=
  s.jobs.foldl (fun s _ => (s.runLast m).2) s

/-- Running the newest job each time goes through the places from the last to the first. -/
theorem runAllLast_eq_run (m : Model) (s : Session) :
    s.runAllLast m = (run m s ((List.range s.jobs.length).reverse.map .runJob)).2 := by
  unfold runAllLast
  generalize hjobs : s.jobs = jobs
  have hlength : s.jobs.length = jobs.length := by rw [hjobs]
  clear hjobs
  induction jobs generalizing s with
  | nil => rfl
  | cons job jobs ih =>
    rw [List.length_cons] at hlength
    have hlt : s.jobs.length - 1 < s.jobs.length := by omega
    have hjob : s.jobs[s.jobs.length - 1]? = some s.jobs[s.jobs.length - 1] :=
      List.getElem?_eq_getElem hlt
    have hrest : (s.runLast m).2.jobs.length = jobs.length := by
      rw [runLast, runJob_eq m s hjob, runInference_recount]
      simp only [List.length_eraseIdx_of_lt hlt]
      omega
    rw [List.foldl_cons, ih _ hrest, List.length_cons, List.range_succ, List.reverse_append,
      List.reverse_singleton, List.singleton_append, List.map_cons]
    simp only [run, step, runLast, hlength, Nat.add_sub_cancel]
    rfl

/-- The jobs that are run at places of the queue, one after the other. -/
def ranAt (m : Model) (s : Session) : List Nat → List Job
  | [] => []
  | place :: places => s.jobs[place]?.toList ++ ranAt m (s.runJob m place).2 places

theorem ranAt_eq (m : Model) (s : Session) (places : List Nat) :
    ranAt m s places = (takeAt s.jobs places).1 := by
  induction places generalizing s with
  | nil => rfl
  | cons place places ih =>
    rw [ranAt, ih]
    cases hjob : s.jobs[place]? with
    | none =>
      rw [takeAt_none hjob]
      simp only [runJob, hjob]
      rfl
    | some job =>
      rw [takeAt_some hjob]
      simp only [runJob_eq m s hjob, runInference_recount]
      rfl

theorem run_runJob_jobs (m : Model) (places : List Nat) (s : Session) :
    (run m s (places.map .runJob)).2.jobs = (takeAt s.jobs places).2 := by
  rw [run_runJob]

/-- The jobs that are run until none is left are all jobs, in some order. -/
theorem ranAt_perm {places : List Nat} (hdone : (run m s (places.map .runJob)).2.jobs = []) :
    (ranAt m s places).Perm s.jobs := by
  have hperm := takeAt_perm s.jobs places
  rw [← run_runJob_jobs m, hdone, List.append_nil] at hperm
  rw [ranAt_eq]
  exact hperm

/-- Runs that leave no job end alike. -/
theorem run_runJob_same (hnodup : (s.jobs.map (·.work.ticket)).Nodup) {places places' : List Nat}
    (hdone : (run m s (places.map .runJob)).2.jobs = [])
    (hdone' : (run m s (places'.map .runJob)).2.jobs = []) :
    SameUpToPool (run m s (places.map .runJob)).2 (run m s (places'.map .runJob)).2 := by
  have hperm := ranAt_perm hdone
  have hperm' := ranAt_perm hdone'
  have hall := runJobs_perm (m := m) (hperm.trans hperm'.symm)
    ((hperm.map (·.work.ticket)).nodup_iff.2 hnodup) (.refl s)
  have hlength := hperm.length_eq.trans hperm'.length_eq.symm
  rw [run_runJob_jobs] at hdone hdone'
  rw [run_runJob, run_runJob, hdone, hdone', ← ranAt_eq m, ← ranAt_eq m, hlength]
  exact ⟨hall.tasks, hall.waiting, hall.free, rfl, rfl, hall.ledger, hall.nextTicket⟩

theorem collect_congr (h : s.tasks = t.tasks) (n : Nat) : (collect n s).1 = (collect n t).1 := by
  induction n generalizing s t with
  | zero => rfl
  | succ n ih =>
    have hanswer : s.getResult.1 = t.getResult.1 ∧ s.getResult.2.tasks = t.getResult.2.tasks := by
      unfold getResult
      rw [h]
      split
      · exact ⟨rfl, h⟩
      · split
        · exact ⟨rfl, h⟩
        · split
          · exact ⟨rfl, rfl⟩
          · split <;> exact ⟨rfl, rfl⟩
    simp only [collect, hanswer.1, ih hanswer.2]

theorem runAll_eq_run (m : Model) (s : Session) :
    (s.runAll m).2 = (run m s ((List.replicate s.jobs.length 0).map .runJob)).2 := by
  rw [runAll, foldl_runNext_eq_run, List.map_replicate]

theorem runAllLast_jobs (m : Model) (s : Session) : (s.runAllLast m).jobs = [] := by
  rw [runAllLast_eq_run, run_runJob_jobs, takeAt_reverse_range]

/-- The jobs can be run in every order, and whatever the order, all is the same in the end but the
order of the free slots. So the answers to whoever asks for the requests then are those after
running the oldest job each time, and those after running the newest. -/
theorem jobs_commute (hs : Reachable m s) :
    (∀ order : List Job, order.Perm s.jobs ↔
      ∃ places, ranAt m s places = order ∧ (run m s (places.map .runJob)).2.jobs = []) ∧
    ∀ places places' : List Nat, (run m s (places.map .runJob)).2.jobs = [] →
      (run m s (places'.map .runJob)).2.jobs = [] →
      SameUpToPool (run m s (places.map .runJob)).2 (run m s (places'.map .runJob)).2 ∧
      SameUpToPool (run m s (places.map .runJob)).2 (s.runAll m).2 ∧
      SameUpToPool (run m s (places.map .runJob)).2 (s.runAllLast m) ∧
      ∀ n, (collect n (run m s (places.map .runJob)).2).1 = (collect n (s.runAll m).2).1 ∧
        (collect n (s.runAllLast m)).1 = (collect n (s.runAll m).2).1 := by
  obtain ⟨commands, rfl⟩ := hs
  have hpending := ((Tracked.start m.anyway).run commands).1.nodup
  generalize (run m (start m) commands).2 = s at hpending ⊢
  simp only [pendingTickets, pending, List.nil_append, List.map_append, List.map_map] at hpending
  have hnodup : (s.jobs.map (·.work.ticket)).Nodup := (List.nodup_append.1 hpending).1
  refine ⟨fun order => ⟨fun hperm => ?_, ?_⟩, fun places places' hdone hdone' => ?_⟩
  · obtain ⟨places, htaken⟩ := exists_takeAt hperm
    exact ⟨places, by rw [ranAt_eq, htaken], by rw [run_runJob_jobs, htaken]⟩
  · rintro ⟨places, rfl, hdone⟩
    exact ranAt_perm hdone
  · have holdest : SameUpToPool (run m s (places.map .runJob)).2 (s.runAll m).2 := by
      have hjobs := runAll_jobs m s
      rw [runAll_eq_run] at hjobs ⊢
      exact run_runJob_same hnodup hdone hjobs
    have hnewest : SameUpToPool (run m s (places.map .runJob)).2 (s.runAllLast m) := by
      have hjobs := runAllLast_jobs m s
      rw [runAllLast_eq_run] at hjobs ⊢
      exact run_runJob_same hnodup hdone hjobs
    exact ⟨run_runJob_same hnodup hdone hdone', holdest, hnewest, fun n =>
      ⟨collect_congr holdest.tasks n, collect_congr (hnewest.tasks.symm.trans holdest.tasks) n⟩⟩

/-- The second request, for two pixels, is done after the first or before it. -/
theorem jobs_commute_of_copy :
    ∃ s, Reachable (.copy true) s ∧ s.jobs.length = 2 ∧
      SameUpToPool (run (.copy true) s [.runJob 0, .runJob 0]).2
        (run (.copy true) s [.runJob 1, .runJob 0]).2 ∧
      (run (.copy true) s [.runJob 0, .runJob 0]).2.free ≠
        (run (.copy true) s [.runJob 1, .runJob 0]).2.free := by
  let wide : Request := ⟨"x", ["y"], ⟨2, 1, .grayF32, #[2, 0, 0, 0, 3, 0, 0, 0]⟩, some (.pixel 0)⟩
  let s := (run (.copy true) (start (.copy true)) [.execute (.ofPixel 1), .execute wide]).2
  have hs : Reachable (.copy true) s := ⟨_, rfl⟩
  have hdone : (run (.copy true) s ([0, 0].map .runJob)).2.jobs = [] := by decide +kernel
  have hdone' : (run (.copy true) s ([1, 0].map .runJob)).2.jobs = [] := by decide +kernel
  obtain ⟨hsame, -⟩ := (jobs_commute hs).2 [0, 0] [1, 0] hdone hdone'
  exact ⟨s, hs, by decide +kernel, hsame, by decide +kernel⟩

end Session
end Inference
