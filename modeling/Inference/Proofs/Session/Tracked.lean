import Inference.Proofs.Session.Effect
import Inference.Proofs.Session.Kept
import Mathlib.Data.List.Nodup
import Mathlib.Data.List.Perm.Basic
/-! The bookkeeping of a session: its tasks carry consecutive tickets, each of them stands as it was
submitted while its work waits or is a job, and as its inference left it afterwards. What is known of
slots, of filled operands and of ended inferences is a parameter. -/
namespace Inference

namespace Request

def plan (r : Request) : Plan := { input := r.input, outputs := r.outputs }

def frames (r : Request) : Frames := ⟨some r.frame, r.output⟩

/-- The task of a request nobody has worked on. -/
def task (r : Request) (ticket : Nat) : Task := { ticket, frames := r.frames, todo := 1 }

/-- The task of a request whose inference has ended. -/
def settledTask (_r : Request) (ticket : Nat) (ok : Bool) (frames : Frames) : Task :=
  { ticket, frames, todo := 1, done := ok.toNat, failed := !ok }

end Request

/-- The operands without their values. -/
def emptied (xs : Array Operand) : Array Operand := xs.map Operand.descriptor

/-- Facts about operands of slots and ended inferences that one operation of a model hands on to the
next. -/
structure Warrant (m : Model) where
  Free : Array Operand → Prop
  Filled : Request → Array Operand → Prop
  Served : Request → Bool → Frames → Prop
  fresh : Free (Slot.fresh m.graph.operands).operands
  again : ∀ {xs}, Free xs → Free (emptied xs)
  fill_ok : ∀ {r s}, Free s.operands → (m.fill r.plan r.frames.input s).1 = .ok () →
    Filled r (m.fill r.plan r.frames.input s).2.operands
  fill_error : ∀ {r s e}, Free s.operands → (m.fill r.plan r.frames.input s).1 = .error e →
    Free (emptied (m.fill r.plan r.frames.input s).2.operands) ∧ Served r false r.frames
  infer : ∀ {r s}, Filled r s.operands → Free (emptied (m.infer r.plan r.frames s).2.2.operands) ∧
    Served r (m.infer r.plan r.frames s).1.toBool (m.infer r.plan r.frames s).2.1
  measure : ∀ {plan frame s}, Free s.operands →
    Free (emptied (Session.measure m plan frame s).2.operands)
  input : ∀ {r ok frames}, Served r ok frames → frames.input.isSome

namespace Session

/-- The work that was accepted and has not ended, `held` being in nobody's queue. -/
def pending (held : List Work) (s : Session) : List Work := held ++ s.jobs.map (·.work) ++ s.waiting

theorem frames_of_find {s : Session} {r : Request} {i : Nat}
    (h : s.tasks.find? (·.ticket == i) = some (r.task i)) : s.frames i = r.frames := by
  simp [frames, h, Request.task]

def pendingTickets (held : List Work) (s : Session) : List Nat := (s.pending held).map (·.ticket)

/-- A session after the requests, of which the first ones were handed back. -/
structure Tracked {m : Model} (w : Warrant m) (requests : List Request) (first : Nat)
    (held : List Work) (s : Session) : Prop where
  nextTicket : s.nextTicket = requests.length
  tickets : s.tasks.map (·.ticket) = List.range' first s.tasks.length
  count : first + s.tasks.length = requests.length
  waiting : s.waiting.map (·.ticket) <:+ s.tasks.map (·.ticket)
  nodup : (s.pendingTickets held).Nodup
  pending_mem : ∀ i ∈ s.pendingTickets held, i ∈ s.tasks.map (·.ticket)
  plans : ∀ work ∈ s.pending held, ∃ r, requests[work.ticket]? = some r ∧ work.plan = r.plan
  unsettled : ∀ t ∈ s.tasks, t.ticket ∈ s.pendingTickets held →
    ∃ r, requests[t.ticket]? = some r ∧ t = r.task t.ticket
  settled : ∀ t ∈ s.tasks, t.ticket ∉ s.pendingTickets held →
    ∃ r ok frames, requests[t.ticket]? = some r ∧ w.Served r ok frames ∧
      t = r.settledTask t.ticket ok frames
  jobs : ∀ job ∈ s.jobs, ∃ r, requests[job.work.ticket]? = some r ∧ w.Filled r job.slot.operands
  free : ∀ slot ∈ s.free, w.Free slot.operands

namespace Tracked

variable {m : Model} {w : Warrant m} {requests : List Request} {first : Nat} {held : List Work}
  {s s' : Session} {r : Request}

theorem start (w : Warrant m) : Tracked w [] 0 [] (start m) where
  nextTicket := rfl
  tickets := rfl
  count := rfl
  waiting := List.suffix_rfl
  nodup := List.nodup_nil
  pending_mem := nofun
  plans := nofun
  unsettled := nofun
  settled := nofun
  jobs := nofun
  free := by
    intro slot hslot
    rw [(List.mem_replicate.1 hslot).2]
    exact w.fresh

theorem ticket_lt (h : Tracked w requests first held s) {i : Nat}
    (hi : i ∈ s.tasks.map (·.ticket)) : first ≤ i ∧ i < requests.length := by
  rw [h.tickets, List.mem_range'_1] at hi
  have := h.count
  omega

theorem ticket_inj (h : Tracked w requests first held s) {t u : Task} (ht : t ∈ s.tasks)
    (hu : u ∈ s.tasks) (heq : t.ticket = u.ticket) : t = u := by
  refine List.inj_on_of_nodup_map ?_ ht hu heq
  rw [h.tickets]
  exact List.nodup_range'

/-- The next ticket is new. -/
theorem ticket_ne (h : Tracked w requests first held s) {t : Task} (ht : t ∈ s.tasks) :
    t.ticket ≠ s.nextTicket := by
  have hlt := (h.ticket_lt (List.mem_map_of_mem ht)).2
  have hnext := h.nextTicket
  omega

theorem submit (h : Tracked w requests first held s) (r : Request) :
    Tracked w (requests ++ [r]) first held (s.submit r) := by
  have hpending : (s.submit r).pending held = s.pending held ++ [⟨s.nextTicket, r.plan⟩] := by
    simp [pending, Session.submit, Request.plan]
  have htickets : (s.submit r).pendingTickets held = s.pendingTickets held ++ [s.nextTicket] := by
    simp [pendingTickets, hpending]
  have htasks : (s.submit r).tasks = s.tasks ++ [r.task s.nextTicket] := rfl
  have hlt : ∀ i ∈ s.tasks.map (·.ticket), i < requests.length := fun i hi => (h.ticket_lt hi).2
  have hold : ∀ {i : Nat} {q : Request}, requests[i]? = some q → (requests ++ [r])[i]? = some q := by
    intro i q hq
    rw [List.getElem?_append_left (List.getElem?_eq_some_iff.1 hq).1, hq]
  have hnew : (requests ++ [r])[s.nextTicket]? = some r := by
    rw [h.nextTicket]
    simp
  constructor
  case nextTicket =>
    simp [Session.submit, h.nextTicket]
  case tickets =>
    rw [htasks, List.map_append, h.tickets, List.length_append]
    have := h.count
    rw [List.length_singleton, List.range'_1_concat]
    simp [Request.task, h.nextTicket, this]
  case count =>
    rw [htasks]
    have := h.count
    simp
    omega
  case waiting =>
    obtain ⟨before, hbefore⟩ := h.waiting
    refine ⟨before, ?_⟩
    simp [Session.submit, ← hbefore]
  case nodup =>
    rw [htickets]
    refine List.nodup_append.2 ⟨h.nodup, by simp, ?_⟩
    intro i hi j hj
    have := hlt i (h.pending_mem i hi)
    simp only [List.mem_singleton] at hj
    have := h.nextTicket
    omega
  case pending_mem =>
    intro i hi
    rw [htickets, List.mem_append, List.mem_singleton] at hi
    rw [htasks, List.map_append, List.mem_append]
    rcases hi with hi | rfl
    · exact .inl (h.pending_mem i hi)
    · exact .inr (by simp [Request.task])
  case plans =>
    intro work hwork
    rw [hpending, List.mem_append, List.mem_singleton] at hwork
    rcases hwork with hwork | rfl
    · obtain ⟨q, hq, hplan⟩ := h.plans work hwork
      exact ⟨q, hold hq, hplan⟩
    · exact ⟨r, hnew, rfl⟩
  case unsettled =>
    intro t ht hpend
    rw [htasks, List.mem_append, List.mem_singleton] at ht
    rcases ht with ht | rfl
    · have hne : t.ticket ≠ s.nextTicket := by
        have := hlt t.ticket (List.mem_map_of_mem ht)
        have := h.nextTicket
        omega
      rw [htickets, List.mem_append, List.mem_singleton] at hpend
      obtain ⟨q, hq, heq⟩ := h.unsettled t ht (hpend.resolve_right hne)
      exact ⟨q, hold hq, heq⟩
    · exact ⟨r, hnew, rfl⟩
  case settled =>
    intro t ht hpend
    rw [htickets, List.mem_append, List.mem_singleton, not_or] at hpend
    rw [htasks, List.mem_append, List.mem_singleton] at ht
    rcases ht with ht | rfl
    · obtain ⟨q, ok, frames, hq, hserved⟩ := h.settled t ht hpend.1
      exact ⟨q, ok, frames, hold hq, hserved⟩
    · exact absurd rfl hpend.2
  case jobs =>
    intro job hjob
    obtain ⟨q, hq, hfilled⟩ := h.jobs job hjob
    exact ⟨q, hold hq, hfilled⟩
  case free => exact h.free

/-- Moving work between the queues, the jobs and the hands of whoever dispatches it. -/
theorem rearrange (h : Tracked w requests first held s) {held' : List Work}
    (htasks : s'.tasks = s.tasks) (hnext : s'.nextTicket = s.nextTicket)
    (hperm : (s'.pending held').Perm (s.pending held))
    (hwaiting : s'.waiting.map (·.ticket) <:+ s.waiting.map (·.ticket))
    (hjobs : ∀ job ∈ s'.jobs, ∃ r, requests[job.work.ticket]? = some r ∧
      w.Filled r job.slot.operands)
    (hfree : ∀ slot ∈ s'.free, w.Free slot.operands) : Tracked w requests first held' s' := by
  have htickets : (s'.pendingTickets held').Perm (s.pendingTickets held) := hperm.map _
  constructor
  case nextTicket => exact hnext.trans h.nextTicket
  case tickets =>
    rw [htasks, h.tickets]
  case count =>
    rw [htasks, h.count]
  case waiting =>
    rw [htasks]
    exact hwaiting.trans h.waiting
  case nodup => exact htickets.nodup_iff.2 h.nodup
  case pending_mem =>
    intro i hi
    rw [htasks]
    exact h.pending_mem i (htickets.mem_iff.1 hi)
  case plans =>
    intro work hwork
    exact h.plans work (hperm.mem_iff.1 hwork)
  case unsettled =>
    intro t ht hpend
    exact h.unsettled t (htasks ▸ ht) (htickets.mem_iff.1 hpend)
  case settled =>
    intro t ht hpend
    exact h.settled t (htasks ▸ ht) fun hi => hpend (htickets.mem_iff.2 hi)
  case jobs => exact hjobs
  case free => exact hfree

/-- The task of pending work is the one that was submitted. -/
theorem find_pending (h : Tracked w requests first held s) {work : Work}
    (hwork : work ∈ s.pending held) (hr : requests[work.ticket]? = some r) :
    s.tasks.find? (·.ticket == work.ticket) = some (r.task work.ticket) := by
  have hticket : work.ticket ∈ s.pendingTickets held := List.mem_map_of_mem hwork
  obtain ⟨t, ht, heq⟩ := List.mem_map.1 (h.pending_mem _ hticket)
  cases hfind : s.tasks.find? (·.ticket == work.ticket) with
  | none => exact absurd heq (by simpa using List.find?_eq_none.1 hfind t ht)
  | some u =>
    have hu : u.ticket = work.ticket := by simpa using List.find?_some hfind
    obtain ⟨q, hq, huq⟩ := h.unsettled u (List.mem_of_find?_eq_some hfind) (hu ▸ hticket)
    rw [hu] at hq huq
    cases hq.symm.trans hr
    rw [huq]

theorem frames_pending (h : Tracked w requests first held s) {work : Work}
    (hwork : work ∈ s.pending held) (hr : requests[work.ticket]? = some r) :
    s.frames work.ticket = r.frames :=
  frames_of_find (h.find_pending hwork hr)

/-- The inference of held work has ended, and its slot is free again. -/
theorem settle {work : Work} (h : Tracked w requests first (work :: held) s)
    (hr : requests[work.ticket]? = some r) {ok : Bool} {frames : Frames}
    (hserved : w.Served r ok frames) {f : Task → Task}
    (hf : f (r.task work.ticket) = r.settledTask work.ticket ok frames) :
    Tracked w requests first held (s.updateTask work.ticket f) := by
  have hcons : s.pendingTickets (work :: held) = work.ticket :: s.pendingTickets held := by
    simp [pendingTickets, pending]
  have hnodup := h.nodup
  rw [hcons, List.nodup_cons] at hnodup
  have htask : ∀ t ∈ s.tasks, t.ticket = work.ticket → t = r.task work.ticket := by
    intro t ht heq
    obtain ⟨q, hq, htq⟩ := h.unsettled t ht (by simp [hcons, heq])
    rw [heq] at hq htq
    cases hq.symm.trans hr
    exact htq
  have hmap : (s.updateTask work.ticket f).tasks.map (·.ticket) = s.tasks.map (·.ticket) := by
    simp only [updateTask, List.map_map]
    refine List.map_congr_left fun t ht => ?_
    simp only [Function.comp]
    split
    next heq => rw [htask t ht heq, hf]; rfl
    next => rfl
  have hlength : (s.updateTask work.ticket f).tasks.length = s.tasks.length := by
    simp [updateTask]
  constructor
  case nextTicket => exact h.nextTicket
  case tickets => rw [hmap, h.tickets, hlength]
  case count => rw [hlength, h.count]
  case waiting =>
    rw [hmap]
    exact h.waiting
  case nodup => exact hnodup.2
  case pending_mem =>
    intro i hi
    rw [hmap]
    exact h.pending_mem i (by rw [hcons]; exact List.mem_cons_of_mem _ hi)
  case plans =>
    intro q hq
    exact h.plans q (List.mem_cons_of_mem _ hq)
  case unsettled =>
    intro t ht hpend
    obtain ⟨u, hu, rfl⟩ := List.mem_map.1 ht
    split at hpend
    next heq =>
      rw [htask u hu heq, hf] at hpend
      exact absurd hpend hnodup.1
    next hne =>
      rw [if_neg hne]
      exact h.unsettled u hu (by rw [hcons]; exact List.mem_cons_of_mem _ hpend)
  case settled =>
    intro t ht hpend
    obtain ⟨u, hu, rfl⟩ := List.mem_map.1 ht
    split
    next heq =>
      rw [htask u hu heq, hf]
      exact ⟨r, ok, frames, hr, hserved, rfl⟩
    next hne =>
      rw [if_neg hne] at hpend
      exact h.settled u hu (by rw [hcons, List.mem_cons, not_or]; exact ⟨hne, hpend⟩)
  case jobs => exact h.jobs
  case free => exact h.free

theorem release (h : Tracked w requests first held s) {slot : Slot}
    (hslot : w.Free (emptied slot.operands)) : Tracked w requests first held (s.release slot) := by
  refine h.rearrange rfl rfl (.refl _) List.suffix_rfl h.jobs fun slot' hslot' => ?_
  rcases List.mem_append.1 hslot' with hslot' | hslot'
  · exact h.free slot' hslot'
  · rw [List.mem_singleton.1 hslot']
    exact hslot

/-- Dropping counts of buffers and of jobs from sight. -/
theorem recount (h : Tracked w requests first held s) (ledger : Ledger) (inFlight : Nat) :
    Tracked w requests first held { s with ledger, inFlight } :=
  h.rearrange rfl rfl (.refl _) List.suffix_rfl h.jobs h.free

theorem runInference {work : Work} (h : Tracked w requests first (work :: held) s) (slot : Slot)
    (hr : requests[work.ticket]? = some r)
    (hslot : w.Filled r slot.operands) :
    Tracked w requests first held (runInference m slot work s).2 := by
  have hmem : work ∈ s.pending (work :: held) := by simp [pending]
  have hframes := h.frames_pending hmem hr
  obtain ⟨q, hq, hplan⟩ := h.plans work hmem
  cases hq.symm.trans hr
  obtain ⟨hfree, hserved⟩ := w.infer (s := ⟨slot.operands, s.ledger⟩) hslot
  rcases hinfer : m.infer r.plan r.frames ⟨slot.operands, s.ledger⟩ with ⟨result, frames, store⟩
  rw [hinfer] at hfree hserved
  rw [runInference_eq m slot work s (by rw [hplan, hframes, hinfer])]
  refine Tracked.release ?_ hfree
  refine (h.recount store.ledger s.inFlight).settle hr hserved ?_
  cases result <;> rfl

/-- The longest waiting work leaves the queue. -/
theorem hold {work : Work} {waiting : List Work} (h : Tracked w requests first held s)
    (hwaiting : s.waiting = work :: waiting) :
    Tracked w requests first (work :: held) { s with waiting } := by
  refine h.rearrange rfl rfl ?_ ?_ h.jobs h.free
  · simp only [pending, hwaiting, List.cons_append]
    exact List.perm_middle.symm
  · rw [hwaiting]
    exact List.suffix_cons ..

theorem dispatch {slot : Slot} (h : Tracked w requests first [] s) (hslot : w.Free slot.operands)
    (async : Bool) : Tracked w requests first [] (dispatch m slot async s).2 := by
  cases hwaiting : s.waiting with
  | nil =>
    simp only [Session.dispatch, hwaiting]
    exact h.release (w.again hslot)
  | cons work waiting =>
    obtain ⟨filled, store, hfill, hcases⟩ := dispatch_cases m slot work s hwaiting async
    have hmem : work ∈ s.pending [] := by simp [pending, hwaiting]
    obtain ⟨r, hr, hplan⟩ := h.plans work hmem
    rw [hplan, h.frames_pending hmem hr] at hfill
    have hheld := (h.hold hwaiting).recount store.ledger s.inFlight
    rcases hcases with ⟨e, rfl, heq⟩ | ⟨rfl, -, heq⟩ | ⟨rfl, -, heq⟩
    · rw [heq]
      obtain ⟨hfree, hserved⟩ := w.fill_error (r := r) (e := e) (s := ⟨slot.operands, s.ledger⟩)
        hslot (by rw [hfill])
      rw [hfill] at hfree
      exact (hheld.settle hr hserved rfl).release hfree
    · rw [heq]
      have hfilled := w.fill_ok (r := r) (s := ⟨slot.operands, s.ledger⟩) hslot (by rw [hfill])
      rw [hfill] at hfilled
      refine hheld.rearrange rfl rfl ?_ List.suffix_rfl ?_ h.free
      · simp only [pending, List.map_append, List.append_assoc, List.cons_append, List.nil_append,
          List.map_cons, List.map_nil]
        exact List.perm_middle
      · intro job hjob
        rcases List.mem_append.1 hjob with hjob | hjob
        · exact h.jobs job hjob
        · rw [List.mem_singleton.1 hjob]
          exact ⟨r, hr, hfilled⟩
    · have hfilled := w.fill_ok (r := r) (s := ⟨slot.operands, s.ledger⟩) hslot (by rw [hfill])
      rw [hfill] at hfilled
      have hended := hheld.runInference ⟨store.operands, some work⟩ hr hfilled
      rw [heq]
      split
      next hrun => rw [hrun] at hended; exact hended
      next hrun => rw [hrun] at hended; exact hended

theorem dispatchNext (h : Tracked w requests first [] s) (async : Bool) :
    Tracked w requests first [] (dispatchNext m async s).2 := by
  unfold Session.dispatchNext
  cases hfree : s.free with
  | nil => exact h
  | cons slot free =>
    have hslots := h.free
    rw [hfree] at hslots
    refine Tracked.dispatch ?_ (hslots slot (by simp)) async
    exact h.rearrange rfl rfl (.refl _) List.suffix_rfl h.jobs fun slot' hslot' =>
      hslots slot' (by simp [hslot'])

theorem flush (h : Tracked w requests first [] s) :
    Tracked w requests first [] (s.flush m).2 := by
  unfold Session.flush
  split
  · exact h
  · exact h.dispatchNext true

theorem getOutput (h : Tracked w requests first [] s) (input : String) (width height : Nat)
    (output : String) : Tracked w requests first [] (s.getOutput m input width height output).2 := by
  have hprobes := probes m s input width height output
  generalize s.getOutput m input width height output = x at hprobes ⊢
  cases hprobes with
  | unframed | exhausted => exact h
  | @measured frame slot free _ hfree =>
    have hslots := h.free
    rw [hfree] at hslots
    refine Tracked.release ?_ (w.measure (hslots slot (by simp)))
    exact h.rearrange rfl rfl (.refl _) List.suffix_rfl h.jobs fun slot' hslot' =>
      hslots slot' (by simp [hslot'])

theorem runJob (h : Tracked w requests first [] s) (place : Nat) :
    Tracked w requests first [] (s.runJob m place).2 := by
  unfold Session.runJob
  cases hjob : s.jobs[place]? with
  | none => exact h
  | some job =>
    obtain ⟨hlt, hget⟩ := List.getElem?_eq_some_iff.1 hjob
    obtain ⟨r, hr, hfilled⟩ := h.jobs job (List.mem_of_getElem? hjob)
    have hheld : Tracked w requests first [job.work]
        { s with jobs := s.jobs.eraseIdx place } := by
      refine h.rearrange rfl rfl ?_ List.suffix_rfl (fun job' hjob' => ?_) h.free
      · have hperm := (List.getElem_cons_eraseIdx_perm hlt).map (·.work)
        rw [hget] at hperm
        exact hperm.append_right _
      · exact h.jobs job' (List.mem_of_mem_eraseIdx hjob')
    exact (hheld.runInference job.slot hr hfilled).recount _ _

end Tracked

/-- What a caller is handed back for a request whose inference left these frames. -/
def outcomeOf (ok : Bool) (frames : Frames) : Except Error Outcome :=
  match frames.input with
  | none => .error (.inconsistent .lostInputFrame)
  | some input => .ok (if ok then .ready input frames.output else .failed input)

theorem getResult_settledTask {s : Session} {r : Request} {ticket : Nat} {ok : Bool}
    {frames : Frames} {tasks : List Task} (h : s.tasks = r.settledTask ticket ok frames :: tasks) :
    s.getResult = (outcomeOf ok frames, { s with tasks }) := by
  simp only [getResult, h, Request.settledTask, Task.finished, outcomeOf]
  cases frames.input <;> cases ok <;> rfl

namespace Tracked

variable {m : Model} {w : Warrant m} {requests : List Request} {first : Nat} {s : Session}

/-- The oldest request is handed back once it has ended; before, nothing changes. -/
theorem getResult (h : Tracked w requests first [] s) :
    (s.tasks = [] ∧ s.getResult = (.ok .emptyQueue, s)) ∨
      (∃ t ∈ s.tasks.head?, t.ticket ∈ s.pendingTickets [] ∧ s.getResult = (.ok .notReady, s)) ∨
      ∃ r ok frames o, requests[first]? = some r ∧ w.Served r ok frames ∧
        outcomeOf ok frames = .ok o ∧ s.getResult = (.ok o, { s with tasks := s.tasks.tail }) ∧
        Tracked w requests (first + 1) [] { s with tasks := s.tasks.tail } := by
  cases htasks : s.tasks with
  | nil => exact .inl ⟨rfl, by simp [Session.getResult, htasks]⟩
  | cons t tasks =>
    have ht : t ∈ s.tasks := by simp [htasks]
    refine .inr ?_
    by_cases hpend : t.ticket ∈ s.pendingTickets []
    · obtain ⟨r, -, heq⟩ := h.unsettled t ht hpend
      refine .inl ⟨t, by simp, hpend, ?_⟩
      simp only [Session.getResult, htasks]
      rw [heq]
      rfl
    · obtain ⟨r, ok, frames, hr, hserved, heq⟩ := h.settled t ht hpend
      have htickets := h.tickets
      rw [htasks] at htickets
      simp only [List.map_cons, List.length_cons, List.range'_succ, List.cons.injEq] at htickets
      obtain ⟨hticket, hrest⟩ := htickets
      obtain ⟨input, hinput⟩ := Option.isSome_iff_exists.1 (w.input hserved)
      have houtcome : outcomeOf ok frames =
          .ok (if ok then .ready input frames.output else .failed input) := by
        simp [outcomeOf, hinput]
      refine .inr ⟨r, ok, frames, _, hticket ▸ hr, hserved, houtcome, ?_, ?_⟩
      · rw [heq] at htasks
        rw [getResult_settledTask htasks, houtcome]
        rfl
      · refine ⟨h.nextTicket, ?_, ?_, ?_, h.nodup, ?_, h.plans, ?_, ?_, h.jobs, h.free⟩
        · simpa [htasks] using hrest
        · have := h.count
          simp only [htasks, List.length_cons, List.tail_cons] at this ⊢
          omega
        · have hsuffix := h.waiting
          rw [htasks, List.map_cons, List.suffix_cons_iff] at hsuffix
          rcases hsuffix with hall | hsuffix
          · have hwaits : t.ticket ∈ s.waiting.map (·.ticket) := by rw [hall]; simp
            refine absurd ?_ hpend
            rw [pendingTickets, pending, List.map_append, List.mem_append]
            exact .inr hwaits
          · simpa [htasks] using hsuffix
        · intro i hi
          have hmem := h.pending_mem i hi
          rw [htasks, List.map_cons, List.mem_cons] at hmem
          refine hmem.resolve_left fun heq => hpend ?_
          rw [← heq]
          exact hi
        · intro u hu
          exact h.unsettled u (by rw [htasks]; exact List.mem_cons_of_mem _ hu)
        · intro u hu
          exact h.settled u (by rw [htasks]; exact List.mem_cons_of_mem _ hu)

end Tracked
end Session
end Inference
