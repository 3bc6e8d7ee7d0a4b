import Inference.Proofs.Layer.Unchanged
import Inference.Proofs.Session.Alike
import Inference.Proofs.Session.Filling
import Inference.Session.State
/-! What an inference leaves as it was, and what the operands of a slot keep of the model's own ones
whatever ran on them. -/
namespace Inference

open Operand

namespace Model

variable {m : Model} {s : Store} {plan : Plan} {frame : Option Frame}

theorem runLayers_frame (layers : List Layer) (s : Store) (index : Nat) :
    OthersUnchanged (fun i => ∃ l ∈ layers, l.output = i) s.operands
      (runLayers layers s index).2.operands := by
  induction layers generalizing s index with
  | nil => exact .refl _
  | cons l layers ih =>
    have hfirst := l.exec_frame s
    simp only [runLayers]
    generalize l.exec s = x at hfirst ⊢
    rcases x with ⟨_ | _, t⟩
    · exact hfirst.mono fun i hi => ⟨l, by simp, hi.symm⟩
    · refine (hfirst.trans (ih t (index + 1))).mono ?_
      rintro i (rfl | ⟨l', hl', rfl⟩)
      · exact ⟨l, by simp, rfl⟩
      · exact ⟨l', by simp [hl'], rfl⟩

/-- Once all layers have run, each has left values in its output. -/
theorem runLayers_holds {layers : List Layer} {s : Store} {index : Nat}
    (h : (runLayers layers s index).1 = .ok ()) {l : Layer} (hl : l ∈ layers) :
    ∃ p, (runLayers layers s index).2.operands[l.output]? = some p ∧ p.data.isSome := by
  induction layers generalizing s index with
  | nil => cases hl
  | cons l' layers ih =>
    have hfirst := Layer.exec_holds (l := l') (s := s)
    simp only [runLayers] at h ⊢
    rcases hexec : l'.exec s with ⟨_ | _, t⟩
    · simp [hexec] at h
    · simp only [hexec] at h hfirst ⊢
      rcases List.mem_cons.1 hl with rfl | hl
      · obtain ⟨o, ho, hdata⟩ := hfirst trivial
        obtain ⟨p, hp, hop, -⟩ := (runLayers_frame layers t (index + 1)).of_getElem?_some ho
        exact ⟨p, hp, hop.data hdata⟩
      · exact ih h hl

/-- The dims of a frame whose size can be said in signed 32-bit numbers. -/
theorem frameDims_eq_ok {f : Frame} {channels : Int32} {dims : Dims}
    (h : frameDims f channels = .ok dims) :
    dims.batch = 1 ∧ dims.height.toNatClampNeg = f.height ∧ dims.width.toNatClampNeg = f.width ∧
      dims.channels = channels := by
  unfold frameDims at h
  simp only [ite_throw_bind_eq_ok] at h
  obtain ⟨hheight, hwidth, h⟩ := h
  cases h
  exact ⟨rfl, Int32.toNatClampNeg_ofNat_of_lt (by omega),
    Int32.toNatClampNeg_ofNat_of_lt (by omega), rfl⟩

theorem frameDims_eq {f : Frame} {channels : Int32} (hheight : f.height < 2 ^ 31)
    (hwidth : f.width < 2 ^ 31) :
    frameDims f channels = .ok ⟨1, .ofNat f.height, .ofNat f.width, channels⟩ := by
  unfold frameDims
  rw [if_neg (by omega), if_neg (by omega)]
  rfl

theorem placeInput_eq_ok {xs : Array Operand} {name : String} {i : Nat} {o : Operand} {f : Frame}
    {dims : Dims} : m.placeInput xs name frame = .ok (i, o, f, dims) ↔
      m.fillable xs name = .ok (i, o) ∧ frame = some f ∧ frameDims f o.dims.channels = .ok dims := by
  unfold placeInput
  cases hfill : m.fillable xs name with
  | error e => simp [bind, Except.bind]
  | ok a =>
    obtain ⟨j, p⟩ := a
    cases frame with
    | none => simp [bind, Except.bind, throw, throwThe, MonadExceptOf.throw]
    | some g =>
      cases hdims : frameDims g p.dims.channels with
      | error e =>
        simp only [bind, Except.bind, hdims]
        refine ⟨nofun, ?_⟩
        rintro ⟨hop, hg, hd⟩
        cases hop
        cases hg
        simp [hdims] at hd
      | ok d =>
        simp only [bind, Except.bind, hdims, pure, Except.pure, Except.ok.injEq, Prod.mk.injEq,
          Option.some.injEq]
        constructor
        · rintro ⟨rfl, rfl, rfl, rfl⟩
          exact ⟨⟨rfl, rfl⟩, rfl, hdims⟩
        · rintro ⟨⟨rfl, rfl⟩, rfl, hd⟩
          exact ⟨rfl, rfl, rfl, by simpa [hdims] using hd⟩

/-- Filling sets one operand: the input of the plan's name, with its type and channel count. -/
theorem fill_cases (m : Model) (plan : Plan) (frame : Option Frame) (s : Store) :
    (∃ e, (m.fill plan frame s).1 = .error e ∧ (m.fill plan frame s).2 = s) ∨
      ∃ i o p, findOperand? s.operands plan.input = some i ∧ s.operands[i]? = some o ∧
        o.kind = .input ∧ (m.fill plan frame s).2.operands = s.operands.setIfInBounds i p ∧
        o.Survives p ∧ o.dataType = p.dataType ∧ o.dims.channels = p.dims.channels ∧
        ((m.fill plan frame s).1 = .ok () → p.data.isSome) := by
  have hplaced : ∀ {i o f dims}, m.placeInput s.operands plan.input frame = .ok (i, o, f, dims) →
      findOperand? s.operands plan.input = some i ∧ s.operands[i]? = some o ∧ o.kind = .input ∧
        o.dims.channels = dims.channels := by
    intro i o f dims hplace
    obtain ⟨hfill, -, hdims⟩ := placeInput_eq_ok.1 hplace
    obtain ⟨-, hi, ho, hkind, -, -⟩ := fillable_eq_ok.1 hfill
    exact ⟨hi, ho, hkind, (frameDims_eq_ok hdims).2.2.2.symm⟩
  have hfills := m.fills plan frame s
  generalize m.fill plan frame s = x at hfills ⊢
  cases hfills with
  | refused => exact .inl ⟨_, rfl, rfl⟩
  | overlong hplace =>
    obtain ⟨hi, ho, hkind, hchannels⟩ := hplaced hplace
    exact .inr ⟨_, _, _, hi, ho, hkind, rfl, ⟨rfl, rfl, rfl, id⟩, rfl, hchannels, nofun⟩
  | unloaded hplace =>
    obtain ⟨hi, ho, hkind, hchannels⟩ := hplaced hplace
    exact .inr ⟨_, _, _, hi, ho, hkind, rfl, ⟨rfl, rfl, rfl, fun _ => rfl⟩, rfl, hchannels, nofun⟩
  | filled hplace =>
    obtain ⟨hi, ho, hkind, hchannels⟩ := hplaced hplace
    exact .inr ⟨_, _, _, hi, ho, hkind, rfl, ⟨rfl, rfl, rfl, fun _ => rfl⟩, rfl, hchannels,
      fun _ => rfl⟩

/-- An operand of a slot beside the model's own one: still the same operand; where no layer writes
it, of the same type and channel count, and of the same dims unless inputs are put there. -/
structure KeptAt (m : Model) (i : Nat) (o p : Operand) : Prop where
  name : o.name = p.name
  kind : o.kind = p.kind
  nhwc : o.nhwc = p.nhwc
  input : (∀ l ∈ m.graph.layers, l.output ≠ i) →
    o.dataType = p.dataType ∧ o.dims.channels = p.dims.channels
  dims : (∀ l ∈ m.graph.layers, l.output ≠ i) → o.kind ≠ .input → o.dims = p.dims

def Kept (m : Model) (xs : Array Operand) : Prop := TableRel m.KeptAt m.graph.operands xs

theorem KeptAt.of_unchanged {i : Nat} {o p q : Operand} (h : m.KeptAt i o p) (hpq : p.Survives q)
    (hsame : ¬(∃ l ∈ m.graph.layers, l.output = i) → p = q) : m.KeptAt i o q where
  name := h.name.trans hpq.name
  kind := h.kind.trans hpq.kind
  nhwc := h.nhwc.trans hpq.nhwc
  input hi := by
    rw [← hsame (by simpa using hi)]
    exact h.input hi
  dims hi := by
    rw [← hsame (by simpa using hi)]
    exact h.dims hi

theorem kept_fresh (m : Model) : m.Kept (Slot.fresh m.graph.operands).operands := by
  intro i
  simp only [Slot.fresh, Array.getElem?_map]
  cases m.graph.operands[i]? with
  | none => exact .none
  | some o => exact .some ⟨rfl, rfl, rfl, fun _ => ⟨rfl, rfl⟩, fun _ _ => rfl⟩

theorem Kept.descriptors {xs : Array Operand} (h : m.Kept xs) :
    m.Kept (xs.map Operand.descriptor) := by
  intro i
  have hi := h i
  simp only [Array.getElem?_map]
  generalize m.graph.operands[i]? = x, xs[i]? = y at hi
  cases hi with
  | none => exact .none
  | some hop => exact .some ⟨hop.name, hop.kind, hop.nhwc, hop.input, hop.dims⟩

theorem Kept.fill (h : m.Kept s.operands) (plan : Plan) (frame : Option Frame) :
    m.Kept (m.fill plan frame s).2.operands := by
  rcases m.fill_cases plan frame s with ⟨e, -, hs⟩ |
    ⟨i, o, p, -, ho, hkind, hs, hop, htype, hchannels, -⟩
  · rwa [hs]
  · rw [hs]
    refine h.set_right fun q hq => ?_
    obtain ⟨o', ho', hqo⟩ := h.of_getElem?_some hq
    cases ho.symm.trans ho'
    refine ⟨hqo.name.trans hop.name, hqo.kind.trans hop.kind, hqo.nhwc.trans hop.nhwc,
      fun hi => ?_, fun _ hinput => absurd (hqo.kind.trans hkind) hinput⟩
    rw [← htype, ← hchannels]
    exact hqo.input hi

theorem Kept.runLayers (h : m.Kept s.operands) :
    m.Kept (runLayers m.graph.layers s).2.operands :=
  h.trans (runLayers_frame m.graph.layers s 0) fun _ _ _ _ hop hpq =>
    hop.of_unchanged hpq.1 hpq.2

theorem Kept.infer (h : m.Kept s.operands) (frames : Frames) :
    m.Kept (m.infer plan frames s).2.2.operands := by
  have hlayers := h.runLayers
  unfold Model.infer
  generalize Model.runLayers m.graph.layers s = x at hlayers ⊢
  rcases x with ⟨_ | _, t⟩ <;> exact hlayers

end Model
end Inference
