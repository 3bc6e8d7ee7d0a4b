import Inference.Proofs.Session.Reuse
/-! Where the slots of a model are: free and emptied, or each with the one job that it is bound to.
No operation makes a slot, loses one or has two jobs share one, whether it succeeds or fails. -/
namespace Inference

/-- A slot that holds no values and no work. -/
structure Slot.Vacant (slot : Slot) : Prop where
  work : slot.work = none
  data : ∀ o ∈ slot.operands, o.data = none

namespace Slot

theorem vacant_descriptors (operands : Array Operand) :
    Vacant ⟨operands.map Operand.descriptor, none⟩ := by
  refine ⟨rfl, fun o ho => ?_⟩
  obtain ⟨p, -, rfl⟩ := Array.mem_map.1 ho
  rfl

theorem vacant_fresh (operands : Array Operand) : (fresh operands).Vacant :=
  vacant_descriptors operands

theorem vacant_reset (slot : Slot) : slot.reset.Vacant := vacant_descriptors slot.operands

end Slot

namespace Session

/-- Each slot of the model is free, with a job, or one of those in the hands of an operation. -/
structure Custody (m : Model) (inHand : Nat) (s : Session) : Prop where
  conserved : s.free.length + s.jobs.length + inHand = m.slots
  inFlight : s.inFlight = s.jobs.length
  vacant : ∀ slot ∈ s.free, slot.Vacant
  bound : ∀ job ∈ s.jobs, job.slot.work = some job.work

namespace Custody

variable {m : Model} {s s' : Session} {slot : Slot} {work : Work} {k : Nat}

theorem start (m : Model) : Custody m 0 (start m) := by
  refine ⟨?_, rfl, fun slot hslot => ?_, nofun⟩
  · simp [Session.start]
  · rw [(List.mem_replicate.1 hslot).2]
    exact Slot.vacant_fresh _

/-- Tasks, waiting work and counts of buffers are of no concern. -/
theorem congr (h : Custody m k s) (hfree : s'.free = s.free) (hjobs : s'.jobs = s.jobs)
    (hcount : s'.inFlight = s.inFlight) : Custody m k s' := by
  constructor
  case conserved =>
    rw [hfree, hjobs]
    exact h.conserved
  case inFlight =>
    rw [hcount, hjobs]
    exact h.inFlight
  case vacant =>
    rw [hfree]
    exact h.vacant
  case bound =>
    rw [hjobs]
    exact h.bound

theorem take {free : List Slot} (h : Custody m k s) (hfree : s.free = slot :: free) :
    Custody m (k + 1) { s with free } := by
  have hslots := h.conserved
  have hvacant := h.vacant
  rw [hfree] at hslots hvacant
  refine ⟨?_, h.inFlight, fun slot' hslot' => hvacant slot' (by simp [hslot']), h.bound⟩
  simp only [List.length_cons] at hslots ⊢
  omega

theorem release (h : Custody m (k + 1) s) (slot : Slot) : Custody m k (s.release slot) := by
  refine ⟨?_, h.inFlight, fun slot' hslot' => ?_, h.bound⟩
  · have := h.conserved
    simp only [Session.release, List.length_append, List.length_singleton]
    omega
  · rcases List.mem_append.1 hslot' with hslot' | hslot'
    · exact h.vacant slot' hslot'
    · rw [List.mem_singleton.1 hslot']
      exact slot.vacant_reset

/-- A slot in hand becomes the one of a new job. -/
theorem queue (h : Custody m (k + 1) s) (hbound : slot.work = some work) :
    Custody m k { s with jobs := s.jobs ++ [⟨slot, work⟩], inFlight := s.inFlight + 1 } := by
  refine ⟨?_, ?_, h.vacant, fun job hjob => ?_⟩
  · have := h.conserved
    simp only [List.length_append, List.length_singleton]
    omega
  · simp [h.inFlight]
  · rcases List.mem_append.1 hjob with hjob | hjob
    · exact h.bound job hjob
    · rw [List.mem_singleton.1 hjob]
      exact hbound

theorem runInference (h : Custody m (k + 1) s) (slot : Slot) (work : Work) :
    Custody m k (runInference m slot work s).2 := by
  rcases hinfer : m.infer work.plan (s.frames work.ticket) ⟨slot.operands, s.ledger⟩ with
    ⟨result, frames, store⟩
  rw [runInference_eq m slot work s hinfer]
  refine Custody.release ?_ _
  exact h.congr rfl rfl rfl

theorem dispatch (h : Custody m (k + 1) s) (slot : Slot) (async : Bool) :
    Custody m k (dispatch m slot async s).2 := by
  cases hwaiting : s.waiting with
  | nil =>
    simp only [Session.dispatch, hwaiting]
    exact h.release slot
  | cons work waiting =>
    obtain ⟨filled, store, -, hcases⟩ := dispatch_state m slot work s hwaiting async
    have hfilled : Custody m (k + 1) { s with waiting, ledger := store.ledger } :=
      h.congr rfl rfl rfl
    rcases hcases with ⟨e, -, heq⟩ | ⟨-, -, heq⟩ | ⟨-, -, heq⟩
    · rw [heq]
      refine Custody.release ?_ _
      exact hfilled.congr rfl rfl rfl
    · rw [heq]
      exact hfilled.queue rfl
    · rw [heq]
      exact hfilled.runInference _ _

theorem dispatchNext (h : Custody m k s) (async : Bool) :
    Custody m k (dispatchNext m async s).2 := by
  unfold Session.dispatchNext
  cases hfree : s.free with
  | nil => exact h
  | cons slot free => exact (h.take hfree).dispatch slot async

theorem execute (h : Custody m k s) (r : Request) : Custody m k (s.execute m r).2 := by
  unfold Session.execute
  cases checkRequest m r with
  | error e => exact h
  | ok =>
    refine Custody.dispatchNext ?_ _
    exact h.congr rfl rfl rfl

theorem flush (h : Custody m k s) : Custody m k (s.flush m).2 := by
  unfold Session.flush
  split
  · exact h
  · exact h.dispatchNext true

theorem getResult (h : Custody m k s) : Custody m k s.getResult.2 := by
  unfold Session.getResult
  repeat' split
  all_goals exact h.congr rfl rfl rfl

theorem getOutput (h : Custody m k s) (input : String) (width height : Nat) (output : String) :
    Custody m k (s.getOutput m input width height output).2 := by
  have hprobes := probes m s input width height output
  generalize s.getOutput m input width height output = x at hprobes ⊢
  cases hprobes with
  | unframed | exhausted => exact h
  | measured _ hfree =>
    refine Custody.release ?_ _
    exact (h.take hfree).congr rfl rfl rfl

/-- The slot of the job is in hand until its inference has ended. -/
theorem runJob (h : Custody m k s) (place : Nat) : Custody m k (s.runJob m place).2 := by
  cases hjob : s.jobs[place]? with
  | none =>
    simp only [Session.runJob, hjob]
    exact h
  | some job =>
    have hlt := (List.getElem?_eq_some_iff.1 hjob).1
    have hlength := List.length_eraseIdx_of_lt hlt
    have hconserved := h.conserved
    rw [runJob_eq m s hjob]
    refine Custody.runInference ?_ _ _
    refine ⟨?_, ?_, h.vacant, fun job' hjob' => h.bound job' (List.mem_of_mem_eraseIdx hjob')⟩
    · simp only [hlength]
      omega
    · simp only [hlength, h.inFlight]

theorem step (h : Custody m k s) (c : Command) : Custody m k (step m s c).2 := by
  cases c with
  | execute r => exact h.execute r
  | flush => exact h.flush
  | getResult => exact h.getResult
  | getInput name => exact h
  | getOutput input width height output => exact h.getOutput input width height output
  | runJob place => exact h.runJob place

theorem run (h : Custody m k s) (commands : List Command) : Custody m k (run m s commands).2 := by
  induction commands generalizing s with
  | nil => exact h
  | cons c commands ih => exact ih (h.step c)

end Custody

/-- At any time, after successes and failures alike, every slot is either free and empty or the slot
of one job, and is bound to the one task of that job. -/
theorem slots_in_custody {m : Model} {s : Session} (hs : Reachable m s) :
    s.free.length + s.jobs.length = m.slots ∧ s.free.length ≤ m.slots ∧
      s.inFlight = s.jobs.length ∧ (∀ slot ∈ s.free, slot.Vacant) ∧
      (∀ job ∈ s.jobs, job.slot.work = some job.work ∧ job.slot ∉ s.free ∧
        ∃! t, t ∈ s.tasks ∧ t.ticket = job.work.ticket) ∧
      (s.jobs.map (·.slot)).Nodup ∧ (s.jobs.map (·.work.ticket)).Nodup := by
  obtain ⟨commands, rfl⟩ := hs
  have hcustody := (Custody.start m).run commands
  have htracked := ((Tracked.start m.anyway).run commands).1
  generalize (run m (start m) commands).2 = s at hcustody htracked
  have hconserved := hcustody.conserved
  have hpending := htracked.nodup
  simp only [pendingTickets, pending, List.nil_append, List.map_append, List.map_map] at hpending
  have htickets : (s.jobs.map (·.work.ticket)).Nodup := (List.nodup_append.1 hpending).1
  refine ⟨hconserved, by omega, hcustody.inFlight, hcustody.vacant, fun job hjob => ⟨?_, ?_, ?_⟩,
    ?_, htickets⟩
  · exact hcustody.bound job hjob
  · intro hfree
    have hnone := (hcustody.vacant _ hfree).work
    rw [hcustody.bound job hjob] at hnone
    cases hnone
  · have hmem : job.work.ticket ∈ s.pendingTickets [] := by
      simp only [pendingTickets, pending, List.nil_append, List.map_append, List.map_map]
      exact List.mem_append_left _ (List.mem_map.2 ⟨job, hjob, rfl⟩)
    obtain ⟨t, ht, heq⟩ := List.mem_map.1 (htracked.pending_mem _ hmem)
    refine ⟨t, ⟨ht, heq⟩, fun u hu => ?_⟩
    exact htracked.ticket_inj hu.1 ht (hu.2.trans heq.symm)
  · have hworks : (s.jobs.map (·.slot)).map (fun slot => slot.work.map (·.ticket)) =
        (s.jobs.map (·.work.ticket)).map some := by
      rw [List.map_map, List.map_map]
      refine List.map_congr_left fun job hjob => ?_
      simp [hcustody.bound job hjob]
    refine List.Nodup.of_map (fun slot => slot.work.map (·.ticket)) ?_
    rw [hworks]
    exact htickets.map (Option.some_injective _)

/-- Two slots are with the jobs of the first two requests, and the third request waits. -/
theorem slots_busy :
    ∃ s, Reachable (.copy true) s ∧ s.jobs.length = 2 ∧ s.waiting.length = 1 ∧ s.inFlight = 2 ∧
      s.free.length + s.jobs.length = (Model.copy true).slots := by
  let s := (run (.copy true) (start (.copy true))
    [.execute (.ofPixel 1), .execute (.ofPixel 2), .execute (.ofPixel 3)]).2
  have hs : Reachable (.copy true) s := ⟨_, rfl⟩
  have hjobs : s.jobs.length = 2 := by decide +kernel
  have hwaiting : s.waiting.length = 1 := by decide +kernel
  obtain ⟨hconserved, -, hcount, -⟩ := slots_in_custody hs
  exact ⟨s, hs, hjobs, hwaiting, hcount.trans hjobs, hconserved⟩

end Session
end Inference
