import Inference.Proofs.Session.Answering
import Inference.Proofs.Session.Standing
/-! The order of a session: work is dispatched in the order of submission, by whatever command, and
requests are handed back in that order, each once and with the input frame it came with. -/
namespace Inference

namespace Model

variable {m : Model} {frames : Frames} {f g : Frame} {plan : Plan} {s : Store}

/-- The frame that comes back for a submitted one: the same, in which only an analytics model may
have left what it found. -/
def Returns (m : Model) (submitted back : Frame) : Prop :=
  back = submitted ∨
    m.purpose ≠ .process ∧ ∃ image, back = (m.processor.store image submitted m.purpose).2

/-- No input frame is ever changed. -/
def KeepsFrames (m : Model) : Prop :=
  m.purpose ≠ .process → ∀ image frame, (m.processor.store image frame m.purpose).2 = frame

theorem KeepsFrames.eq (h : m.KeepsFrames) (hg : m.Returns f g) : g = f := by
  rcases hg with hg | ⟨hpurpose, image, hg⟩
  · exact hg
  · exact hg.trans (h hpurpose image f)

/-- The plain conversion serves processing only. -/
theorem keepsFrames_plain (h : m.processor = .plain) : m.KeepsFrames := by
  intro hpurpose image frame
  rw [h]
  simp [FrameProcessor.plain, Frame.store, hpurpose]

/-- Handing an output over replaces the input frame for analytics alone, and by what was made of
it. -/
theorem store_returns {frame : Frame} (h : frames.input = some f)
    (hframe : m.resultFrame frames = some frame) (image : Image) :
    ∃ g, (m.withResultFrame frames (m.processor.store image frame m.purpose).2).input = some g ∧
      m.Returns f g := by
  by_cases hpurpose : m.purpose = .process
  · refine ⟨f, ?_, .inl rfl⟩
    simp [withResultFrame, hpurpose, h]
  · have hinput : frame = f := by
      refine Option.some.inj (hframe.symm.trans ?_)
      rw [← h]
      unfold resultFrame
      cases hp : m.purpose with
      | process => exact absurd hp hpurpose
      | detect => rfl
      | classify => rfl
    refine ⟨(m.processor.store image frame m.purpose).2, ?_, .inr ⟨hpurpose, image, ?_⟩⟩
    · unfold withResultFrame
      cases hp : m.purpose with
      | process => exact absurd hp hpurpose
      | detect => rfl
      | classify => rfl
    · rw [hinput]

theorem deliver_returns (plan : Plan) (xs : Array Operand) (name : String)
    (h : frames.input = some f) :
    ∃ g, (m.deliver plan xs name frames).2.input = some g ∧ m.Returns f g := by
  have hsame : ∃ g, frames.input = some g ∧ m.Returns f g := ⟨f, h, .inl rfl⟩
  unfold deliver
  split
  · exact hsame
  · cases plan.converts with
    | false =>
      simp only [Bool.false_eq_true, if_false]
      split <;> exact hsame
    | true =>
      simp only [if_true]
      split
      · exact hsame
      · split
        · exact hsame
        next frame hframe => exact store_returns h hframe _

/-- Requests ask for one output, so that at most one is handed over into the input frame. -/
theorem infer_returns (plan : Plan) (frames : Frames) (s : Store) (h : frames.input = some f)
    (hone : plan.outputs.length ≤ 1) :
    ∃ g, (m.infer plan frames s).2.1.input = some g ∧ m.Returns f g := by
  have hsame : ∃ g, frames.input = some g ∧ m.Returns f g := ⟨f, h, .inl rfl⟩
  unfold infer
  rcases runLayers m.graph.layers s with ⟨_ | _, t⟩
  · exact hsame
  · cases houtputs : plan.outputs with
    | nil => exact hsame
    | cons name names =>
      have hnames : names = [] := by
        rw [houtputs, List.length_cons] at hone
        exact List.eq_nil_of_length_eq_zero (by omega)
      subst hnames
      have hfirst := deliver_returns (m := m) plan t.operands name h
      simp only [deliverAll]
      generalize m.deliver plan t.operands name frames = x at hfirst ⊢
      rcases x with ⟨_ | _, frames⟩ <;> exact hfirst

/-- A request's input frame stays with its task. -/
def returning (m : Model) : Warrant m :=
  { m.anyway with
    Served := fun r _ frames => frames.input.isSome ∧
      (r.outputs.length ≤ 1 → ∀ g ∈ frames.input, m.Returns r.frame g)
    fill_error := by
      intro r s e hfree _
      refine ⟨(hfree.1.fill _ _).idle, rfl, fun _ g hg => .inl ?_⟩
      exact (Option.some.inj hg).symm
    infer := by
      intro r s hkept
      refine ⟨(hkept.infer r.frames).idle, (m.infer_stay _ _ _).input rfl, fun hone g hg => ?_⟩
      obtain ⟨g', hg', hreturns⟩ :=
        infer_returns (m := m) r.plan r.frames s rfl hone
      cases hg'.symm.trans hg
      exact hreturns
    input := fun hserved => hserved.1 }

end Model

/-- The input frame that comes with an outcome. -/
def Outcome.input? : Outcome → Option Frame
  | .emptyQueue | .notReady => none
  | .ready input _ | .failed input => some input

namespace Session

variable {m : Model} {s : Session} {slot : Slot} {work : Work}

theorem runInference_waiting (m : Model) (slot : Slot) (work : Work) (s : Session) :
    (runInference m slot work s).2.waiting = s.waiting :=
  (AtRest.runInference_free m slot work s).2.2

theorem dispatch_waiting (m : Model) (slot : Slot) (async : Bool) (s : Session) :
    (dispatch m slot async s).2.waiting = s.waiting.tail := by
  cases hwaiting : s.waiting with
  | nil =>
    simp only [dispatch, hwaiting]
    exact hwaiting
  | cons work waiting =>
    obtain ⟨filled, store, -, hcases⟩ := dispatch_state m slot work s hwaiting async
    rcases hcases with ⟨e, -, heq⟩ | ⟨-, -, heq⟩ | ⟨-, -, heq⟩
    · rw [heq]
      rfl
    · rw [heq]
      rfl
    · rw [heq]
      exact runInference_waiting ..

/-- Dispatching takes the longest waiting work, or none without a free slot. -/
theorem dispatchNext_waiting (m : Model) (async : Bool) (s : Session) :
    ∃ taken, taken.length ≤ 1 ∧ s.waiting = taken ++ (dispatchNext m async s).2.waiting := by
  unfold dispatchNext
  split
  · exact ⟨[], Nat.zero_le 1, rfl⟩
  · refine ⟨s.waiting.take 1, List.length_take_le 1 _, ?_⟩
    rw [dispatch_waiting, ← List.drop_one, List.take_append_drop]

/-- The tickets in the queue with the one of the request that a command submits, if it does. -/
def lined (m : Model) (s : Session) (c : Command) : List Nat :=
  s.waiting.map (·.ticket) ++ (c.accepted? m).toList.map fun _ => s.nextTicket

/-- A step takes at most one ticket out of the queue, the first. -/
theorem step_waiting (m : Model) (s : Session) (c : Command) :
    ∃ taken, taken.length ≤ 1 ∧
      lined m s c = taken ++ (step m s c).2.waiting.map (·.ticket) := by
  -- Either the queue stays as it is, or it is dispatched from with the new request at its end.
  have hsame : ∀ {c : Command} {s' : Session}, s'.waiting = s.waiting → c.accepted? m = none →
      ∃ taken, taken.length ≤ 1 ∧ lined m s c = taken ++ s'.waiting.map (·.ticket) := by
    intro c s' hwaiting hc
    refine ⟨[], Nat.zero_le 1, ?_⟩
    simp [lined, hwaiting, hc]
  have hnext : ∀ {c : Command} (s' : Session) (async : Bool),
      lined m s c = s'.waiting.map (·.ticket) → ∃ taken, taken.length ≤ 1 ∧
        lined m s c = taken ++ (dispatchNext m async s').2.waiting.map (·.ticket) := by
    intro c s' async hlined
    obtain ⟨taken, hlength, hwaiting⟩ := dispatchNext_waiting m async s'
    refine ⟨taken.map (·.ticket), by simpa using hlength, ?_⟩
    rw [hlined, ← List.map_append, ← hwaiting]
  cases c with
  | execute r =>
    cases hcheck : checkRequest m r with
    | error e =>
      refine hsame ?_ ?_
      · simp [step, execute, hcheck]
      · simp [Command.accepted?, hcheck]
    | ok =>
      simp only [step, execute, hcheck]
      refine hnext (s.submit r) m.options.async ?_
      simp [lined, Command.accepted?, hcheck, submit]
  | flush =>
    cases hwaiting : s.waiting with
    | nil => exact hsame (by simp [step, flush, hwaiting]) rfl
    | cons work waiting =>
      simp only [step, flush, hwaiting, List.isEmpty_cons, Bool.false_eq_true, if_false]
      exact hnext s true (List.append_nil _)
  | getResult =>
    refine hsame ?_ rfl
    simp only [step, Prod.map_snd, id, getResult]
    repeat' split
    all_goals rfl
  | getInput name => exact hsame rfl rfl
  | getOutput input width height output =>
    exact hsame (getOutput_requests m s input width height output).2.1 rfl
  | runJob place =>
    refine hsame ?_ rfl
    cases hjob : s.jobs[place]? with
    | none => simp [step, runJob, hjob]
    | some job =>
      simp only [step, runJob_eq m s hjob]
      exact runInference_waiting ..

/-- The tickets whose work a step takes out of the queue. -/
def dispatchedBy (m : Model) (s : Session) (c : Command) : List Nat :=
  (lined m s c).filter (· ∉ (step m s c).2.waiting.map (·.ticket))

/-- The tickets in the order in which a run dispatches their work. -/
def dispatched (m : Model) (s : Session) : List Command → List Nat
  | [] => []
  | c :: commands => dispatchedBy m s c ++ dispatched m (step m s c).2 commands

theorem filter_not_mem_right {xs ys : List Nat} (h : (xs ++ ys).Nodup) :
    (xs ++ ys).filter (· ∉ ys) = xs := by
  have hdisjoint := (List.nodup_append.1 h).2.2
  have hleft : xs.filter (· ∉ ys) = xs := by
    refine List.filter_eq_self.2 fun x hx => ?_
    simpa using fun hy => hdisjoint x hx x hy rfl
  have hright : ys.filter (· ∉ ys) = [] := by
    refine List.filter_eq_nil_iff.2 fun y hy => ?_
    simpa using hy
  rw [List.filter_append, hleft, hright, List.append_nil]

namespace Tracked

variable {w : Warrant m} {requests : List Request} {first : Nat}

theorem lined_nodup (h : Tracked w requests first [] s) (c : Command) : (lined m s c).Nodup := by
  refine List.nodup_append.2 ⟨?_, ?_, ?_⟩
  · refine h.waiting.sublist.nodup ?_
    rw [h.tickets]
    exact List.nodup_range'
  · cases c.accepted? m <;> simp
  · intro i hi j hj
    obtain ⟨r, -, rfl⟩ := List.mem_map.1 hj
    have hlt := (h.ticket_lt (h.waiting.subset hi)).2
    rw [h.nextTicket]
    exact Nat.ne_of_lt hlt

theorem dispatchedBy_append (h : Tracked w requests first [] s) (c : Command) :
    dispatchedBy m s c ++ (Session.step m s c).2.waiting.map (·.ticket) = lined m s c := by
  obtain ⟨taken, -, hlined⟩ := step_waiting m s c
  have hnodup := h.lined_nodup c
  rw [dispatchedBy, hlined]
  rw [hlined] at hnodup
  rw [filter_not_mem_right hnodup]

/-- The work that a run dispatches is what waited at first and what was submitted, in this order, as
far as it does not wait at the end. -/
theorem dispatched_append (h : Tracked w requests first [] s) (commands : List Command) :
    dispatched m s commands ++ (Session.run m s commands).2.waiting.map (·.ticket) =
      s.waiting.map (·.ticket) ++ List.range' s.nextTicket (accepted m commands).length := by
  induction commands generalizing requests first s with
  | nil => simp [dispatched, Session.run, accepted]
  | cons c commands ih =>
    obtain ⟨first', h'⟩ := h.step_requests c
    have hnext : (Session.step m s c).2.nextTicket =
        s.nextTicket + (c.accepted? m).toList.length := by
      rw [h'.nextTicket, h.nextTicket, List.length_append]
    have hlined : lined m s c = s.waiting.map (·.ticket) ++
        List.range' s.nextTicket (c.accepted? m).toList.length := by
      cases hc : c.accepted? m <;> simp [lined, hc]
    calc dispatched m s (c :: commands) ++
          (Session.run m s (c :: commands)).2.waiting.map (·.ticket)
      _ = dispatchedBy m s c ++ ((Session.step m s c).2.waiting.map (·.ticket) ++
            List.range' (Session.step m s c).2.nextTicket (accepted m commands).length) := by
          rw [← ih h', ← List.append_assoc]
          rfl
      _ = lined m s c ++
            List.range' (Session.step m s c).2.nextTicket (accepted m commands).length := by
          rw [← List.append_assoc, h.dispatchedBy_append]
      _ = _ := by
          rw [hlined, hnext, accepted_cons, List.length_append, List.append_assoc,
            List.range'_append_1]

end Tracked

theorem checkRequest_outputs {r : Request} (h : checkRequest m r = .ok ()) :
    r.outputs.length = 1 := by
  unfold checkRequest at h
  split at h
  · cases h
  next houtputs => simp [houtputs]
  · cases h

/-- The frames of the outcomes are the ones of the requests. -/
theorem forall₂_returns {outcomes : List Outcome} {requests : List Request}
    (h : List.Forall₂ m.returning.HandsBack outcomes requests)
    (hcheck : ∀ r ∈ requests, checkRequest m r = .ok ()) :
    List.Forall₂ (fun o r => ∃ f, Outcome.input? o = some f ∧ m.Returns r.frame f)
      outcomes requests := by
  induction h with
  | nil => exact .nil
  | @cons o r outcomes requests hback _ ih =>
    refine .cons ?_ (ih fun q hq => hcheck q (List.mem_cons_of_mem _ hq))
    obtain ⟨ok, frames, ⟨hsome, hreturns⟩, houtcome⟩ := hback
    obtain ⟨f, hf⟩ := Option.isSome_iff_exists.1 hsome
    have hone : r.outputs.length ≤ 1 := Nat.le_of_eq (checkRequest_outputs (hcheck r (by simp)))
    refine ⟨f, ?_, hreturns hone f hf⟩
    rw [outcomeOf, hf] at houtcome
    cases houtcome
    cases ok <;> rfl

/-- After any run each queued request stands in one place, and the queue tells where its oldest one
stands. Work was dispatched in the order of submission, what waits being the rest; the first
requests were handed back in that order, each with its input frame, and the others are queued. -/
theorem requests_in_order (m : Model) (commands : List Command) :
    let s := (run m (start m) commands).2
    let back := handedBack (run m (start m) commands).1
    let requests := accepted m commands
    s.Orderly ∧ s.Polled ∧
      dispatched m (start m) commands ++ s.waiting.map (·.ticket) = List.range requests.length ∧
      List.range back.length ++ s.tasks.map (·.ticket) = List.range requests.length ∧
      List.Forall₂ (fun o r => ∃ f, Outcome.input? o = some f ∧ m.Returns r.frame f) back
        (requests.take back.length) ∧
      (m.KeepsFrames →
        back.map Outcome.input? = (requests.take back.length).map fun r => some r.frame) := by
  intro s back requests
  have hdispatched := (Tracked.start m.returning).dispatched_append commands
  obtain ⟨htracked, hall⟩ := (Tracked.start m.returning).run commands
  simp only [List.nil_append, List.drop_zero, Nat.zero_add] at htracked hall
  have hframes := forall₂_returns hall fun r hr =>
    checkRequest_of_mem_accepted (List.mem_of_mem_take hr)
  refine ⟨htracked.orderly, htracked.polled, ?_, ?_, hframes, fun hkeeps => ?_⟩
  · rw [List.range_eq_range']
    exact hdispatched
  · have hcount := htracked.count
    rw [htracked.tickets, List.range_eq_range', List.range_eq_range', ← hcount,
      ← List.range'_append_1, Nat.zero_add]
  · rw [← List.forall₂_eq_eq_eq, List.forall₂_map_left_iff, List.forall₂_map_right_iff]
    refine hframes.imp fun o r hreturns => ?_
    obtain ⟨f, hf, hreturns⟩ := hreturns
    rw [hf, hkeeps.eq hreturns]

/-- The jobs ended in another order than the one in which they were submitted. -/
theorem inputs_outOfOrder :
    (Model.copy true).KeepsFrames ∧
      (handedBack (run (.copy true) (start (.copy true)) outOfOrder).1).map Outcome.input? =
        [some (.pixel 1), some (.pixel 2), some (.pixel 3)] := by
  have hkeeps : (Model.copy true).KeepsFrames := Model.keepsFrames_plain rfl
  obtain ⟨-, -, -, -, -, hframes⟩ := requests_in_order (.copy true) outOfOrder
  refine ⟨hkeeps, (hframes hkeeps).trans ?_⟩
  decide +kernel

end Session
end Inference
