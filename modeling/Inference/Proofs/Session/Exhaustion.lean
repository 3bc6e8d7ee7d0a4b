import Inference.Proofs.Checked
import Inference.Proofs.Session.Schedule
/-! Want of a slot: which operations it stops, and what is left of them then. Nothing else that goes
wrong looks like it. -/
namespace Inference

namespace Model

variable (m : Model) (plan : Plan) (s : Store)

theorem fill_ne_noFreeSlot (frame : Option Frame) :
    (m.fill plan frame s).1 ≠ .error .noFreeSlot := by
  intro h
  cases fill_failure h with
  | place hplace => cases hplace

theorem infer_ne_noFreeSlot (frames : Frames) :
    (m.infer plan frames s).1 ≠ .error .noFreeSlot := by
  intro h
  cases infer_failure h with
  | deliver _ hdeliver => cases hdeliver

theorem serve_ne_noFreeSlot (frames : Frames) :
    (m.serve plan frames s).1 ≠ .error .noFreeSlot := by
  unfold serve
  have hfill := m.fill_ne_noFreeSlot plan s frames.input
  generalize m.fill plan frames.input s = x at hfill
  rcases x with ⟨e | _, t⟩
  · exact hfill
  · exact m.infer_ne_noFreeSlot plan t frames

end Model

namespace Session

variable {m : Model} {s : Session}

theorem runInference_ne_noFreeSlot (m : Model) (slot : Slot) (work : Work) (s : Session) :
    (runInference m slot work s).1 ≠ .error .noFreeSlot := by
  rw [runInference_result]
  exact m.infer_ne_noFreeSlot work.plan _ _

theorem checkFinished_ne_noFreeSlot (s : Session) (ticket : Nat) :
    s.checkFinished ticket ≠ .error .noFreeSlot := by
  unfold checkFinished
  split
  · split <;> nofun
  · nofun

/-- Once a slot is taken, none is wanting. -/
theorem dispatch_ne_noFreeSlot (m : Model) (slot : Slot) (async : Bool) (s : Session) :
    (dispatch m slot async s).1 ≠ .error .noFreeSlot := by
  cases hwaiting : s.waiting with
  | nil =>
    unfold dispatch
    rw [hwaiting]
    nofun
  | cons work waiting =>
    obtain ⟨filled, store, hfill, hcases⟩ := dispatch_cases m slot work s hwaiting async
    rcases hcases with ⟨e, rfl, heq⟩ | ⟨-, -, heq⟩ | ⟨-, -, heq⟩
    · have hne := m.fill_ne_noFreeSlot work.plan ⟨slot.operands, s.ledger⟩
        (s.frames work.ticket).input
      rw [hfill] at hne
      rw [heq]
      exact hne
    · rw [heq]
      nofun
    · have hrun := runInference_ne_noFreeSlot m ⟨store.operands, some work⟩ work
        { s with waiting, ledger := store.ledger }
      rw [heq]
      split
      next h =>
        rw [h] at hrun
        exact hrun
      next => exact checkFinished_ne_noFreeSlot _ _

theorem dispatchNext_of_exhausted (hfree : s.free = []) (async : Bool) :
    s.dispatchNext m async = (.error .noFreeSlot, s) := by
  unfold dispatchNext
  rw [hfree]

theorem dispatchNext_eq_noFreeSlot_iff (async : Bool) :
    (s.dispatchNext m async).1 = .error .noFreeSlot ↔ s.free = [] := by
  constructor
  · intro h
    by_contra hfree
    obtain ⟨slot, free, hslots⟩ := List.exists_cons_of_ne_nil hfree
    have hnext : s.dispatchNext m async = dispatch m slot async { s with free } := by
      simp only [dispatchNext, hslots]
    rw [hnext] at h
    exact dispatch_ne_noFreeSlot m slot async _ h
  · intro hfree
    rw [dispatchNext_of_exhausted hfree]

/-- A request that is let in wants a slot. -/
theorem execute_eq_noFreeSlot_iff {r : Request} :
    (s.execute m r).1 = .error .noFreeSlot ↔ checkRequest m r = .ok () ∧ s.free = [] := by
  unfold execute
  cases hcheck : checkRequest m r with
  | error e =>
    refine iff_of_false (fun h => ?_) nofun
    cases h
    exact (checkRequest_refusal hcheck).ne_noFreeSlot rfl
  | ok =>
    exact (dispatchNext_eq_noFreeSlot_iff (s := s.submit r) _).trans (and_iff_right rfl).symm

/-- Four bytes for each pixel. -/
theorem byteCount_grayF32 {width : Nat} (hwidth : width < Checked.sizeLimit) (height : Nat) :
    Frame.byteCount width height .grayF32 = Checked.size (4 * (width * height)) := by
  have hfirst : Checked.mul 1 width = .ok width := by
    rw [Checked.mul_of_lt (by rwa [Nat.one_mul]), Nat.one_mul]
  have hbytes : Checked.mul (width * height) 4 = Checked.size (4 * (width * height)) := by
    rw [Checked.mul, Nat.mul_comm]
  have hsteps : Frame.byteCount width height .grayF32 = (do
      let pixels ← Checked.mul width height
      Checked.mul (← Checked.mul pixels 1) 4) := by
    simp only [Frame.byteCount, Checked.product, List.foldlM_cons, List.foldlM_nil, hfirst,
      PixelFormat.channels, PixelFormat.bytesPerSample, bind_pure]
    rfl
  by_cases hpixels : width * height < Checked.sizeLimit
  · have hchannel : Checked.mul (width * height) 1 = .ok (width * height) := by
      rw [Checked.mul_of_lt (by rwa [Nat.mul_one]), Nat.mul_one]
    rw [hsteps, Checked.mul_of_lt hpixels, ← hbytes]
    change (Checked.mul (width * height) 1 >>= fun n => Checked.mul n 4) = _
    rw [hchannel]
    rfl
  · have hover : ∀ n, ¬n < Checked.sizeLimit → Checked.size n = .error .overflow := by
      intro n hn
      exact if_neg hn
    rw [hsteps, Checked.mul, hover _ hpixels, hover _ (by omega)]
    rfl

/-- A blank frame is there just when 63 bits hold the number of its bytes. -/
theorem blankFrame_eq {width : Nat} (hwidth : width < Checked.sizeLimit) (height : Nat) :
    blankFrame width height =
      if 4 * (width * height) < Checked.offsetLimit then .ok ⟨width, height, .grayF32, #[]⟩
      else .error (.fault .overflow) := by
  have hlimits : Checked.offsetLimit < Checked.sizeLimit := by decide
  unfold blankFrame
  rw [byteCount_grayF32 hwidth]
  by_cases hbytes : 4 * (width * height) < Checked.sizeLimit
  · rw [Checked.size, if_pos hbytes]
  · rw [Checked.size, if_neg hbytes, if_neg (by omega)]

theorem getOutput_of_too_large {width height : Nat} (hwidth : width < Checked.sizeLimit)
    (hbytes : Checked.offsetLimit ≤ 4 * (width * height)) (input output : String) :
    s.getOutput m input width height output = (.error (.fault .overflow), s) := by
  unfold getOutput
  rw [blankFrame_eq hwidth, if_neg (Nat.not_lt.2 hbytes)]

theorem getOutput_of_exhausted {width height : Nat} (hwidth : width < Checked.sizeLimit)
    (hbytes : 4 * (width * height) < Checked.offsetLimit) (hfree : s.free = [])
    (input output : String) :
    s.getOutput m input width height output = (.error .noFreeSlot, s) := by
  unfold getOutput
  rw [blankFrame_eq hwidth, if_pos hbytes, hfree]

theorem getOutput_ne_noFreeSlot (hfree : s.free ≠ []) (input : String) (width height : Nat)
    (output : String) : (s.getOutput m input width height output).1 ≠ .error .noFreeSlot := by
  have hprobes := probes m s input width height output
  generalize s.getOutput m input width height output = x at hprobes ⊢
  cases hprobes with
  | unframed => nofun
  | exhausted _ hnone => exact absurd hnone hfree
  | measured => exact fun h => m.serve_ne_noFreeSlot _ _ _ (Model.measure_failure h)

theorem getOutput_eq_noFreeSlot_iff {width height : Nat} (hwidth : width < Checked.sizeLimit)
    (input output : String) :
    (s.getOutput m input width height output).1 = .error .noFreeSlot ↔
      s.free = [] ∧ 4 * (width * height) < Checked.offsetLimit := by
  by_cases hbytes : 4 * (width * height) < Checked.offsetLimit
  · by_cases hfree : s.free = []
    · rw [getOutput_of_exhausted hwidth hbytes hfree]
      exact iff_of_true rfl ⟨hfree, hbytes⟩
    · exact iff_of_false (getOutput_ne_noFreeSlot hfree _ _ _ _) fun h => hfree h.1
  · rw [getOutput_of_too_large hwidth (Nat.not_lt.1 hbytes)]
    exact iff_of_false nofun fun h => hbytes h.2

theorem getResult_ne_noFreeSlot (s : Session) : s.getResult.1 ≠ .error .noFreeSlot := by
  unfold getResult
  repeat' split
  all_goals nofun

theorem ofBytes_ne_noFreeSlot (file : List UInt8) (purpose : Purpose) (options : Options)
    (processor : FrameProcessor) (threads : Nat) :
    Model.ofBytes file purpose options processor threads ≠ .error .noFreeSlot := by
  unfold Model.ofBytes
  split
  · nofun
  next e _ => cases e <;> nofun

/-- How a session tells that a slot is wanting. A request that is let in is queued all the same,
and nothing more happens to it. One that is not, a flush and a probe leave the session as it was.
A probe wants a slot only once there is a blank frame of its size. -/
structure TellsExhaustion (m : Model) (s : Session) : Prop where
  execute : ∀ r, checkRequest m r = .ok () →
    ((s.execute m r).1 = .error .noFreeSlot ↔ s.free = [])
  queued : ∀ r, (s.execute m r).1 = .error .noFreeSlot → (s.execute m r).2 =
    { s with
      tasks := s.tasks ++ [r.task s.nextTicket]
      waiting := s.waiting ++ [⟨s.nextTicket, r.plan⟩]
      nextTicket := s.nextTicket + 1 }
  rejected : ∀ r e, checkRequest m r = .error e →
    e ≠ .noFreeSlot ∧ s.execute m r = (.error e, s)
  flush : (s.flush m).1 = .error .noFreeSlot ↔ s.waiting ≠ [] ∧ s.free = []
  flush_unchanged : (s.flush m).1 = .error .noFreeSlot → (s.flush m).2 = s
  flush_idle : s.waiting = [] → s.flush m = (.ok (), s)
  probe : ∀ input width height output, width < Checked.sizeLimit →
    ((s.getOutput m input width height output).1 = .error .noFreeSlot ↔
      s.free = [] ∧ 4 * (width * height) < Checked.offsetLimit)
  probe_unchanged : ∀ input width height output,
    (s.getOutput m input width height output).1 = .error .noFreeSlot →
      (s.getOutput m input width height output).2 = s
  probe_too_large : ∀ input width height output, width < Checked.sizeLimit →
    Checked.offsetLimit ≤ 4 * (width * height) →
      s.getOutput m input width height output = (.error (.fault .overflow), s)
  result : s.getResult.1 ≠ .error .noFreeSlot
  input : ∀ name, m.inputInfo name ≠ .error .noFreeSlot
  job : ∀ place job, s.jobs[place]? = some job →
    (runInference m job.slot job.work { s with jobs := s.jobs.eraseIdx place }).1 ≠
      .error .noFreeSlot
  load : ∀ file purpose options processor threads,
    Model.ofBytes file purpose options processor threads ≠ .error .noFreeSlot

/-- Whatever the state, the want of a slot is told where a slot is wanted and nowhere else. -/
theorem exhaustion_told (m : Model) (s : Session) : TellsExhaustion m s where
  execute r hcheck := execute_eq_noFreeSlot_iff.trans (and_iff_right hcheck)
  queued r h := by
    obtain ⟨hcheck, hfree⟩ := execute_eq_noFreeSlot_iff.1 h
    have hsubmitted : (s.submit r).free = [] := hfree
    simp only [Session.execute, hcheck, dispatchNext_of_exhausted hsubmitted]
    rfl
  rejected r e hcheck := by
    refine ⟨(checkRequest_refusal hcheck).ne_noFreeSlot, ?_⟩
    simp only [Session.execute, hcheck]
  flush := by
    unfold Session.flush
    by_cases hwaiting : s.waiting = []
    · rw [if_pos (by simpa using hwaiting)]
      exact iff_of_false (by rintro ⟨⟩) fun h => h.1 hwaiting
    · rw [if_neg (by simpa using hwaiting), dispatchNext_eq_noFreeSlot_iff]
      exact (and_iff_right hwaiting).symm
  flush_unchanged h := by
    unfold Session.flush at h ⊢
    split at h
    · cases h
    next hwaiting =>
      rw [if_neg hwaiting, dispatchNext_of_exhausted ((dispatchNext_eq_noFreeSlot_iff _).1 h)]
  flush_idle hwaiting := by
    unfold Session.flush
    rw [if_pos (by simpa using hwaiting)]
  probe input width height output hwidth := getOutput_eq_noFreeSlot_iff hwidth input output
  probe_unchanged input width height output h := by
    by_cases hfree : s.free = []
    · unfold Session.getOutput
      cases blankFrame width height with
      | error e => rfl
      | ok frame => rw [hfree]
    · exact absurd h (getOutput_ne_noFreeSlot hfree input width height output)
  probe_too_large input width height output hwidth hbytes :=
    getOutput_of_too_large hwidth hbytes input output
  result := getResult_ne_noFreeSlot s
  input name h := (Model.inputInfo_refusal h).ne_noFreeSlot rfl
  job _ job _ := runInference_ne_noFreeSlot m job.slot job.work _
  load := ofBytes_ne_noFreeSlot

/-- Both slots are in use, and a probe for more pixels than there can be does not tell so. -/
theorem too_large_probe_of_copy :
    ∃ s, Reachable (.copy true) s ∧ s.free = [] ∧
      (s.getOutput (.copy true) "x" (2 ^ 61) 1 "y").1 ≠ .error .noFreeSlot := by
  let s := (run (.copy true) (start (.copy true)) [.execute (.ofPixel 1), .execute (.ofPixel 2)]).2
  have hfree : s.free = [] := by decide +kernel
  refine ⟨s, ⟨_, rfl⟩, hfree, ?_⟩
  rw [getOutput_of_too_large (by decide) (by decide)]
  nofun

end Session
end Inference
