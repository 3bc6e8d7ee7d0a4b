import Inference.Proofs.Session.Exhaustion
import Inference.Proofs.Session.Order
/-! A session is never at odds with itself: what is inconsistent is the outputs that are asked for,
with the operands of the model or with what the layers leave in them. -/
namespace Inference

open Operand

/-- An output that cannot be handed over: no operand of the model has its name, or the one that has
it holds no values. -/
inductive OutputFault (m : Model) (names : List String) (xs : Array Operand) :
    Inconsistency → Prop where
  | noOutput {name : String} (hname : name ∈ names)
      (hnone : ∀ o ∈ m.graph.operands, o.name ≠ name) : OutputFault m names xs (.noOutput name)
  | emptyOutput {name : String} {o : Operand} (hname : name ∈ names)
      (hfind : xs.find? (·.name == name) = some o) (hdata : o.data = none) :
    OutputFault m names xs (.emptyOutput (.noData name))

namespace Model

/-- A slot knows the names of the model. -/
theorem Kept.find?_eq_none {m : Model} {xs : Array Operand} (h : m.Kept xs) {name : String}
    (hfind : xs.find? (·.name == name) = none) : ∀ o ∈ m.graph.operands, o.name ≠ name := by
  have hfound := h.find?_rel (fun _ _ _ hop => hop.name) name
  rw [hfind] at hfound
  generalize hx : m.graph.operands.find? (·.name == name) = x at hfound
  cases hfound
  intro o ho hname
  have hnone := Array.find?_eq_none.1 hx o ho
  simp [hname] at hnone

/-- The frame that outputs are handed over to. -/
def target (m : Model) (plan : Plan) (frames : Frames) : Option Frame :=
  if plan.converts then m.resultFrame frames else frames.output

end Model

/-- With the frame there that outputs go to, what is missing is an output or its values. -/
theorem DeliverFailure.outputFault {m : Model} {plan : Plan} {frames : Frames}
    {xs : Array Operand} {names : List String} {cause : Inconsistency}
    (h : DeliverFailure m plan xs frames names (.inconsistent cause)) (hkept : m.Kept xs)
    (htarget : (m.target plan frames).isSome) : OutputFault m names xs cause := by
  unfold Model.target at htarget
  cases h with
  | noOutput hname hfind => exact .noOutput hname (hkept.find?_eq_none hfind)
  | emptyOutput hname _ hfind hdata => exact .emptyOutput hname hfind hdata
  | noFrameToFill hconverts hframe => simp [hconverts, hframe] at htarget
  | noOutputFrame hconverts hframe => simp [hconverts, hframe] at htarget

theorem InferFailure.outputFault {m : Model} {plan : Plan} {frames : Frames} {s : Store}
    {cause : Inconsistency} (h : InferFailure m plan frames s (.inconsistent cause))
    (hkept : m.Kept s.operands) (htarget : (m.target plan frames).isSome) :
    (Model.runLayers m.graph.layers s).1 = .ok () ∧
      OutputFault m plan.outputs (Model.runLayers m.graph.layers s).2.operands cause := by
  cases h with
  | deliver hlayers hdeliver => exact ⟨hlayers, hdeliver.outputFault hkept.runLayers htarget⟩

namespace Model

variable {m : Model} {plan : Plan} {frames : Frames} {s : Store} {cause : Inconsistency}

theorem serve_outputFault (h : (m.serve plan frames s).1 = .error (.inconsistent cause))
    (hkept : m.Kept s.operands) (hinput : frames.input.isSome)
    (htarget : (m.target plan frames).isSome) :
    (m.compute plan frames.input s).1 = .ok () ∧
      OutputFault m plan.outputs (m.compute plan frames.input s).2.operands cause := by
  obtain ⟨f, hf⟩ := Option.isSome_iff_exists.1 hinput
  rw [hf]
  rcases serve_failure h with hfill | ⟨hfill, hfailure⟩
  · rw [hf] at hfill
    exact absurd hfill (m.fill_ne_inconsistent plan f s cause)
  · have hfilled := hkept.fill plan frames.input
    have hfault := hfailure.outputFault hfilled htarget
    rw [hf] at hfill hfault
    unfold compute
    rcases hstore : m.fill plan (some f) s with ⟨e | _, t⟩
    · rw [hstore] at hfill
      cases hfill
    · rw [hstore] at hfault
      exact hfault

/-- The frames of a request that was let in have the one that its output goes to. -/
theorem target_of_check {r : Request} (h : Session.checkRequest m r = .ok ()) :
    (m.target r.plan r.frames).isSome := by
  unfold Session.checkRequest at h
  have hconverts : r.plan.converts = true := rfl
  unfold target resultFrame
  rw [hconverts]
  split at h
  · cases h
  · split at h
    · cases h
    next hframe =>
      cases hpurpose : m.purpose with
      | process =>
        cases houtput : r.output with
        | none => exact absurd ⟨hpurpose, houtput⟩ hframe
        | some f => simp [Request.frames, houtput]
      | detect => rfl
      | classify => rfl
  · cases h

/-- A probe reads no values, so that only the name of its output can be wrong. -/
theorem measure_noOutput {input output : String} {frame : Frame} (hkept : m.Kept s.operands)
    (h : (Session.measure m { input, outputs := [output], converts := false } frame s).1 =
      .error (.inconsistent cause)) :
    cause = .noOutput output ∧ ∀ o ∈ m.graph.operands, o.name ≠ output := by
  rcases serve_failure (measure_failure h) with hfill | ⟨-, hfailure⟩
  · exact absurd hfill (m.fill_ne_inconsistent _ frame s cause)
  · cases hfailure with
    | deliver _ hdeliver =>
      cases hdeliver with
      | noOutput hname hfind =>
        cases List.mem_singleton.1 hname
        exact ⟨rfl, (hkept.fill _ (some frame)).runLayers.find?_eq_none hfind⟩
      | emptyOutput _ hconverts => cases hconverts
      | noFrameToFill hconverts => cases hconverts
      | noOutputFrame _ hframe => cases hframe

end Model

namespace Session

variable {m : Model} {s : Session} {cause : Inconsistency}

/-- The books of a session, with requests alone that were let in. -/
theorem Reachable.books (hs : Reachable m s) :
    ∃ requests first, Tracked m.anyway requests first [] s ∧
      ∀ r ∈ requests, checkRequest m r = .ok () := by
  obtain ⟨commands, rfl⟩ := hs
  have htracked := ((Tracked.start m.anyway).run commands).1
  exact ⟨_, _, htracked, fun r hr => checkRequest_of_mem_accepted hr⟩

/-- Where requests are served at once, none waits that there is a slot for. -/
theorem Reachable.waiting_of_sync (hs : Reachable m s) (hsync : m.options.async = false)
    (hfree : s.free ≠ []) : s.waiting = [] := by
  obtain ⟨commands, rfl⟩ := hs
  have hstart : AtRest m (start m) := ⟨rfl, List.length_replicate, .inl rfl⟩
  have hrest := hstart.run hsync commands
  apply hrest.waiting.resolve_right
  intro hslots
  exact hfree (List.eq_nil_of_length_eq_zero (hrest.free.trans hslots))

namespace Tracked

variable {requests : List Request} {first : Nat}

/-- What becomes a job was filled in, or its input is refused. -/
theorem dispatchNext_ne_inconsistent (h : Tracked m.anyway requests first [] s)
    (hwaiting : s.waiting ≠ []) (cause : Inconsistency) :
    (s.dispatchNext m true).1 ≠ .error (.inconsistent cause) := by
  obtain ⟨work, waiting, hqueue⟩ := List.exists_cons_of_ne_nil hwaiting
  unfold Session.dispatchNext
  cases hfree : s.free with
  | nil => nofun
  | cons slot free =>
    have hmem : work ∈ s.pending [] := by simp [pending, hqueue]
    obtain ⟨r, hr, -⟩ := h.plans work hmem
    have hfind := h.find_pending hmem hr
    have hanswer := dispatch_result (s := { s with free }) m slot hqueue hfind true
    intro herror
    exact m.fill_ne_inconsistent work.plan r.frame ⟨slot.operands, s.ledger⟩ cause
      (hanswer.symm.trans herror)

/-- The layers of a job ran, and an output of it was not there or left empty. -/
theorem job_outputFault (h : Tracked m.anyway requests first [] s)
    (hcheck : ∀ r ∈ requests, checkRequest m r = .ok ()) {place : Nat} {job : Job}
    (hjob : s.jobs[place]? = some job)
    (herror : (Session.runInference m job.slot job.work
      { s with jobs := s.jobs.eraseIdx place }).1 = .error (.inconsistent cause)) :
    (Model.runLayers m.graph.layers ⟨job.slot.operands, s.ledger⟩).1 = .ok () ∧
      OutputFault m job.work.plan.outputs
        (Model.runLayers m.graph.layers ⟨job.slot.operands, s.ledger⟩).2.operands cause := by
  have hmem : job ∈ s.jobs := List.mem_of_getElem? hjob
  have hpending : job.work ∈ s.pending [] := List.mem_append_left _ (List.mem_map_of_mem hmem)
  obtain ⟨r, hr, hplan⟩ := h.plans job.work hpending
  obtain ⟨q, hq, hkept⟩ := h.jobs job hmem
  cases hq.symm.trans hr
  let t : Session := { s with jobs := s.jobs.eraseIdx place }
  have hframes : t.frames job.work.ticket = r.frames := frames_of_find (h.find_pending hpending hr)
  have hinfer : (m.infer job.work.plan r.frames ⟨job.slot.operands, s.ledger⟩).1 =
      .error (.inconsistent cause) := by
    rw [← hframes]
    exact (runInference_result m job.slot job.work t).symm.trans herror
  refine (Model.infer_failure hinfer).outputFault hkept ?_
  rw [hplan]
  exact Model.target_of_check (hcheck r (List.mem_of_getElem? hr))

theorem execute_async_ne_inconsistent (h : Tracked m.anyway requests first [] s)
    (hasync : m.options.async = true) (r : Request) (cause : Inconsistency) :
    (s.execute m r).1 ≠ .error (.inconsistent cause) := by
  unfold Session.execute
  cases hcheck : checkRequest m r with
  | error e =>
    intro herror
    cases herror
    exact (checkRequest_refusal hcheck).ne_inconsistent cause rfl
  | ok =>
    simp only [hasync]
    exact (h.submit r).dispatchNext_ne_inconsistent (by simp [Session.submit]) cause

/-- A request that is served at once fails likewise on the first slot. -/
theorem execute_outputFault (h : Tracked m.anyway requests first [] s)
    (hwaiting : s.free ≠ [] → s.waiting = []) (hsync : m.options.async = false) {r : Request}
    (herror : (s.execute m r).1 = .error (.inconsistent cause)) :
    ∃ slot ∈ s.free.head?,
      (m.compute r.plan (some r.frame) ⟨slot.operands, s.ledger⟩).1 = .ok () ∧
        OutputFault m r.outputs
          (m.compute r.plan (some r.frame) ⟨slot.operands, s.ledger⟩).2.operands cause := by
  have hcheck : checkRequest m r = .ok () := by
    cases hcheck : checkRequest m r with
    | ok => rfl
    | error e =>
      simp only [Session.execute, hcheck] at herror
      cases herror
      exact absurd rfl ((checkRequest_refusal hcheck).ne_inconsistent cause)
  rcases hfree : s.free with _ | ⟨slot, free⟩
  · have hnone := execute_eq_noFreeSlot_iff.2 ⟨hcheck, hfree⟩
    cases hnone.symm.trans herror
  · refine ⟨slot, rfl, ?_⟩
    obtain ⟨hanswer, -⟩ := execute_at_once hsync hcheck (fun t ht => h.ticket_ne ht)
      (hwaiting (by simp [hfree])) hfree
    have hkept : m.Idle slot.operands := h.free slot (by simp [hfree])
    exact Model.serve_outputFault (hanswer.symm.trans herror) hkept.1 rfl
      (Model.target_of_check hcheck)

theorem getOutput_noOutput (h : Tracked m.anyway requests first [] s) {input output : String}
    {width height : Nat}
    (herror : (s.getOutput m input width height output).1 = .error (.inconsistent cause)) :
    cause = .noOutput output ∧ ∀ o ∈ m.graph.operands, o.name ≠ output := by
  have hprobes := probes m s input width height output
  generalize s.getOutput m input width height output = x at hprobes herror
  cases hprobes with
  | unframed | exhausted => cases herror
  | @measured frame slot free _ hfree =>
    have hidle : m.Idle slot.operands := h.free slot (by simp [hfree])
    exact Model.measure_noOutput hidle.1 herror

end Tracked

/-- All that can be inconsistent in the operations of a session: an output is asked for that is not
there, or one that the layers leave without values. -/
structure Consistent (m : Model) (s : Session) : Prop where
  execute : ∀ r cause, (s.execute m r).1 = .error (.inconsistent cause) →
    ∃ slot ∈ s.free.head?,
      (m.compute r.plan (some r.frame) ⟨slot.operands, s.ledger⟩).1 = .ok () ∧
        OutputFault m r.outputs
          (m.compute r.plan (some r.frame) ⟨slot.operands, s.ledger⟩).2.operands cause
  flush : ∀ cause, (s.flush m).1 ≠ .error (.inconsistent cause)
  result : ∃ o, s.getResult.1 = .ok o
  input : ∀ name cause, m.inputInfo name ≠ .error (.inconsistent cause)
  probe : ∀ input width height output cause,
    (s.getOutput m input width height output).1 = .error (.inconsistent cause) →
      cause = .noOutput output ∧ ∀ o ∈ m.graph.operands, o.name ≠ output
  job : ∀ place job cause, s.jobs[place]? = some job →
    (runInference m job.slot job.work { s with jobs := s.jobs.eraseIdx place }).1 =
      .error (.inconsistent cause) →
    (Model.runLayers m.graph.layers ⟨job.slot.operands, s.ledger⟩).1 = .ok () ∧
      OutputFault m job.work.plan.outputs
        (Model.runLayers m.graph.layers ⟨job.slot.operands, s.ledger⟩).2.operands cause

/-- In no run does a session lose track of its requests, their frames or their slots. -/
theorem session_consistent (hs : Reachable m s) : Consistent m s := by
  obtain ⟨requests, first, h, hcheck⟩ := hs.books
  refine ⟨fun r cause herror => ?_, fun cause herror => ?_, ?_, fun name cause herror => ?_,
    fun input width height output cause herror => ?_, fun place job cause hjob herror => ?_⟩
  · cases hasync : m.options.async with
    | true => exact absurd herror (h.execute_async_ne_inconsistent hasync r cause)
    | false => exact h.execute_outputFault (hs.waiting_of_sync hasync) hasync herror
  · unfold Session.flush at herror
    by_cases hwaiting : s.waiting = []
    · rw [if_pos (by simpa using hwaiting)] at herror
      cases herror
    · rw [if_neg (by simpa using hwaiting)] at herror
      exact h.dispatchNext_ne_inconsistent hwaiting cause herror
  · rcases h.getResult with ⟨-, heq⟩ | ⟨t, -, -, heq⟩ | ⟨r, ok, frames, o, -, -, -, heq, -⟩
    · exact ⟨_, by rw [heq]⟩
    · exact ⟨_, by rw [heq]⟩
    · exact ⟨o, by rw [heq]⟩
  · exact (Model.inputInfo_refusal herror).ne_inconsistent cause rfl
  · exact h.getOutput_noOutput herror
  · exact h.job_outputFault hcheck hjob herror

/-- The output that is asked for is not there, for a request and for a probe. -/
theorem session_consistent_of_copy :
    let r : Request := { Request.ofPixel 1 with outputs := ["q"] }
    let s := (run (.copy false) (start (.copy false)) [.execute (.ofPixel 2)]).2
    (s.execute (.copy false) r).1 = .error (.inconsistent (.noOutput "q")) ∧
      (∃ slot ∈ s.free.head?, OutputFault (.copy false) ["q"]
        ((Model.copy false).compute r.plan (some r.frame) ⟨slot.operands, s.ledger⟩).2.operands
        (.noOutput "q")) ∧
      ∀ o ∈ (Model.copy false).graph.operands, o.name ≠ "q" := by
  intro r s
  have hs : Reachable (.copy false) s := ⟨_, rfl⟩
  have hconsistent := session_consistent hs
  have herror : (s.execute (.copy false) r).1 = .error (.inconsistent (.noOutput "q")) := by
    decide +kernel
  have hprobe : (s.getOutput (.copy false) "x" 1 1 "q").1 =
      .error (.inconsistent (.noOutput "q")) := by decide +kernel
  obtain ⟨slot, hslot, -, hfault⟩ := hconsistent.execute r _ herror
  exact ⟨herror, ⟨slot, hslot, hfault⟩, (hconsistent.probe _ _ _ _ _ hprobe).2⟩

/-- Where the copy is made in place, the output is left without values. -/
example :
    let layers : List Layer := [⟨.identity, [0], 0⟩]
    let m := { Model.copy false with graph := { (Model.copy false).graph with layers } }
    ((start m).execute m (.ofPixel 1)).1 =
      .error (.inconsistent (.emptyOutput (.noData "y"))) := by
  decide +kernel

end Session
end Inference
