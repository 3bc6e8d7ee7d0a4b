import Inference.Proofs.Session.Faultless
/-! Coherent operands in a session: those of a slot are coherent from when its input is filled until
they are emptied, layer by layer. So no layer finds a buffer of another length than its operand has,
and what is handed over is a whole image. -/
namespace Inference

namespace Model

variable {m : Model} {s : Store} {plan : Plan} {xs : Array Operand}

/-- The same model with another way to put an image into a frame. -/
def storing (m : Model) (store : Image → Frame → Purpose → Except FrameError Unit × Frame) : Model :=
  { m with processor := { m.processor with store } }

/-- What is known of an inference from the operands that its input was filled in. -/
structure CoherentFrom (m : Model) (s : Store) : Prop where
  filled : AllCoherent s.operands
  /-- After each layer that succeeds. -/
  layers : ∀ count, (runLayers (m.graph.layers.take count) s).1 = .ok () →
    AllCoherent (runLayers (m.graph.layers.take count) s).2.operands
  /-- Of whatever layer fails. -/
  failure : ∀ index kind cause, (runLayers m.graph.layers s).1 = .error (.layer index kind cause) →
    ¬cause.IsMismatch ∧ (kind.Elementwise → ¬cause.IsMisfit)
  /-- Images with another number of values do not matter, as none is handed over. -/
  handedOver : ∀ store, (∀ i : Image, i.values.size = i.height * i.width * i.channels →
      store i = m.processor.store i) →
    ∀ plan frames, (m.storing store).infer plan frames s = m.infer plan frames s

theorem deliver_storing {store : Image → Frame → Purpose → Except FrameError Unit × Frame}
    (hstore : ∀ i : Image, i.values.size = i.height * i.width * i.channels →
      store i = m.processor.store i) (h : AllCoherent xs) (name : String) (frames : Frames) :
    (m.storing store).deliver plan xs name frames = m.deliver plan xs name frames := by
  unfold deliver
  cases hfind : xs.find? (·.name == name) with
  | none => rfl
  | some o =>
    cases plan.converts with
    | false => rfl
    | true =>
      cases hdata : o.data with
      | none => simp only [Operand.values, hdata]
      | some values =>
        have hresult : (m.storing store).resultFrame frames = m.resultFrame frames := rfl
        have hcoherent := h o (Array.mem_of_find?_eq_some hfind) values hdata
        have hsame : (m.storing store).processor.store (o.picture values) =
            m.processor.store (o.picture values) := hstore _ hcoherent.image_count
        simp only [Operand.values, hdata, hresult]
        cases m.resultFrame frames with
        | none => rfl
        | some frame =>
          simp only [Operand.picture] at hsame
          simp only [Shape.ofDims, hsame]
          rfl

theorem deliverAll_storing {store : Image → Frame → Purpose → Except FrameError Unit × Frame}
    (hstore : ∀ i : Image, i.values.size = i.height * i.width * i.channels →
      store i = m.processor.store i) (h : AllCoherent xs) (names : List String) (frames : Frames) :
    (m.storing store).deliverAll plan xs names frames = m.deliverAll plan xs names frames := by
  induction names generalizing frames with
  | nil => rfl
  | cons name names ih =>
    simp only [deliverAll, deliver_storing hstore h]
    rcases m.deliver plan xs name frames with ⟨_ | _, frames⟩
    · rfl
    · exact ih frames

/-- From coherent operands on. -/
theorem CoherentFrom.of_coherent (hsound : m.Sound) (h : AllCoherent s.operands) :
    m.CoherentFrom s where
  filled := h
  layers _ hok := runLayers_keeps (fun _ _ _ => Layer.exec_coherent) h hok
  failure index kind cause he := by
    obtain ⟨l, hl, i, t, cause', ht, hcause, herror⟩ :=
      runLayers_failure (fun _ _ _ => Layer.exec_coherent) h he
    cases herror
    obtain ⟨hparams, hsize⟩ := hsound l hl
    exact ⟨Layer.exec_matched hparams hsize ht.fit cause hcause,
      fun hkind => Layer.exec_fitting hparams hsize ht.fit hkind cause hcause⟩
  handedOver store hstore plan frames := by
    have hrun : (runLayers m.graph.layers s).1 = .ok () →
        AllCoherent (runLayers m.graph.layers s).2.operands :=
      runLayers_keeps (fun _ _ _ => Layer.exec_coherent) h
    have hlayers : (m.storing store).graph.layers = m.graph.layers := rfl
    unfold infer
    rw [hlayers]
    generalize runLayers m.graph.layers s = x at hrun
    rcases x with ⟨_ | _, t⟩
    · rfl
    · simp only [deliverAll_storing hstore (hrun rfl)]

end Model

namespace Session

variable {m : Model} {s : Session}

/-- A model that is read from a file, in whatever state requests and probes have brought its session,
with stale descriptors in its slots and inferences that failed behind it. Whichever input is filled on
whichever free slot, and also where that fails, the operands are coherent from there on, and so they
are in the slots of all jobs that have yet to run. -/
theorem coherent_inferences {file : List UInt8} (hfile : ModelFile.parse file = .ok m.graph)
    (hs : Reachable m s) :
    (∀ slot ∈ s.free, ∀ plan frame ledger,
      m.CoherentFrom (m.fill plan frame ⟨slot.operands, ledger⟩).2) ∧
    ∀ job ∈ s.jobs, ∀ ledger, m.CoherentFrom ⟨job.slot.operands, ledger⟩ := by
  have hsound := Model.sound_of_parse hfile
  refine ⟨fun slot hslot plan frame ledger => ?_, fun job hjob ledger => ?_⟩
  · exact .of_coherent hsound (Model.fill_coherent (hs.free_empty hslot) plan frame)
  · exact .of_coherent hsound (hs.jobs_coherent hjob)

/-- A queued job, and a frame for the slot that is still free. -/
theorem coherent_inferences_of_affine :
    let plan : Plan := ⟨"x\ufffd", ["y"], true⟩
    ModelFile.parse ModelFile.affineFile = .ok affine.graph ∧
      ∃ s slot job, Reachable affine s ∧ slot ∈ s.free ∧ job ∈ s.jobs ∧
        affine.CoherentFrom (affine.fill plan (some (.pixel 7)) ⟨slot.operands, s.ledger⟩).2 ∧
        affine.CoherentFrom ⟨job.slot.operands, s.ledger⟩ ∧
        job.slot.operands.any (·.data.isSome) := by
  intro plan
  have hfile : ModelFile.parse ModelFile.affineFile = .ok affine.graph := by decide +kernel
  let s := (run affine (start affine) [.execute (.ofPixel 7 "x\ufffd")]).2
  have hs : Reachable affine s := ⟨_, rfl⟩
  obtain ⟨slot, hslot⟩ : ∃ slot, slot ∈ s.free :=
    List.exists_mem_of_ne_nil _ (by decide +kernel)
  obtain ⟨job, hjob, hheld⟩ : ∃ job ∈ s.jobs, job.slot.operands.any (·.data.isSome) := by
    decide +kernel
  obtain ⟨hfree, hjobs⟩ := coherent_inferences hfile hs
  exact ⟨hfile, s, slot, job, hs, hslot, hjob, hfree slot hslot plan _ _, hjobs job hjob _, hheld⟩

end Session
end Inference
