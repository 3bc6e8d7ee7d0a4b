import Inference.Proofs.Layer.Alike
import Inference.Session.Pass
/-! One inference on two tables that hold the same tensors. It looks at the descriptor of an empty
operand in two places only: where it fills the input, and where it reads off the size of an output
without its values. -/
namespace Inference

open Operand

variable {m : Model} {xs ys : Array Operand} {name : String}

/-- If the operand with a name takes inputs, then of one type and channel count in both tables. -/
def SameInput (name : String) (xs ys : Array Operand) : Prop :=
  ∀ i o p, findOperand? xs name = some i → xs[i]? = some o → ys[i]? = some p → o.kind = .input →
    o.dataType = p.dataType ∧ o.dims.channels = p.dims.channels

/-- The operand with a name has the same dims in both tables. -/
def SameDims (name : String) (xs ys : Array Operand) : Prop :=
  ∀ o p, xs.find? (·.name == name) = some o → ys.find? (·.name == name) = some p → o.dims = p.dims

namespace Model

theorem fillable_eq_ok {i : Nat} {o : Operand} :
    m.fillable xs name = .ok (i, o) ↔
      m.graph.layers ≠ [] ∧ findOperand? xs name = some i ∧ xs[i]? = some o ∧
        o.kind = .input ∧ o.dataType = .float ∧ 0 < o.dims.channels := by
  unfold fillable findOperand?
  simp only [Array.findIdx?_eq_map_findFinIdx?_val, ite_throw_bind_eq_ok]
  cases hfin : xs.findFinIdx? (·.name == name) with
  | none => simp [throw, throwThe, MonadExceptOf.throw]
  | some j =>
    have hne : xs ≠ #[] := by
      intro he
      subst he
      exact j.elim0
    simp only [ite_throw_bind_eq_ok, hne, or_false, Option.map_some, Option.some.injEq]
    constructor
    · rintro ⟨hl, hk, ht, hc, h⟩
      cases h
      simp_all
    · rintro ⟨hl, rfl, ho, hk, ht, hc⟩
      simp_all
      rfl

theorem fillable_alike (h : AllAlike xs ys) (hin : SameInput name xs ys) :
    Concur (fun _ _ => True) (fun a b => a.1 = b.1 ∧ xs[a.1]? = some a.2 ∧ ys[a.1]? = some b.2 ∧
      Alike a.2 b.2 ∧ a.2.dataType = b.2.dataType ∧ a.2.dims.channels = b.2.dims.channels)
      (m.fillable xs name) (m.fillable ys name) := by
  have hnames := h.findOperand?_eq (fun _ _ _ hop => hop.name) name
  refine Concur.of_ok ?_ ?_
  · rintro ⟨i, o⟩ hx
    obtain ⟨hl, hi, ho, hk, ht, hc⟩ := fillable_eq_ok.1 hx
    obtain ⟨p, hp, hop⟩ := h.of_getElem?_some ho
    obtain ⟨htype, hchannels⟩ := hin i o p hi ho hp hk
    refine ⟨(i, p), fillable_eq_ok.2 ⟨hl, hnames ▸ hi, hp, hop.kind ▸ hk, htype ▸ ht, ?_⟩, ?_⟩
    · rwa [← hchannels]
    · exact ⟨rfl, ho, hp, hop, htype, hchannels⟩
  · rintro ⟨i, p⟩ hy
    obtain ⟨hl, hi, hp, hk, ht, hc⟩ := fillable_eq_ok.1 hy
    have hi' : findOperand? xs name = some i := hnames.trans hi
    cases ho : xs[i]? with
    | none => simp [h.getElem?_none_iff.1 ho] at hp
    | some o =>
      obtain ⟨q, hq, hop⟩ := h.of_getElem?_some ho
      cases hp.symm.trans hq
      obtain ⟨htype, hchannels⟩ := hin i o p hi' ho hp (hop.kind.trans hk)
      refine ⟨(i, o), fillable_eq_ok.2 ⟨hl, hi', ho, hop.kind ▸ hk, htype ▸ ht, ?_⟩⟩
      rwa [hchannels]

theorem placeInput_alike (h : AllAlike xs ys) (hin : SameInput name xs ys)
    (frame : Option Frame) :
    Concur (fun _ _ => True) (fun a b => a.1 = b.1 ∧ Alike a.2.1 b.2.1 ∧
      a.2.1.dataType = b.2.1.dataType ∧ a.2.1.dims.channels = b.2.1.dims.channels ∧ a.2.2 = b.2.2)
      (m.placeInput xs name frame) (m.placeInput ys name frame) := by
  refine (fillable_alike h hin).bind ?_
  rintro ⟨i, o⟩ ⟨j, p⟩ ⟨hij, -, -, hop, htype, hchannels⟩
  cases frame with
  | none => exact .error trivial
  | some frame =>
    have hdims := Concordant.refl (frameDims frame o.dims.channels)
    refine Concur.bind (R := Eq) (hchannels ▸ hdims) fun dims _ he => ?_
    exact .ok ⟨hij, hop, htype, hchannels, by rw [he]⟩

variable {s s' : Store} {plan : Plan}

theorem fill_alike (h : AllAlike s.operands s'.operands)
    (hin : SameInput plan.input s.operands s'.operands) (frame : Option Frame) :
    Concordant (m.fill plan frame s).1 (m.fill plan frame s').1 ∧
      AllAlike (m.fill plan frame s).2.operands (m.fill plan frame s').2.operands := by
  have hp := placeInput_alike (m := m) h hin frame
  unfold fill
  generalize m.placeInput s.operands plan.input frame = x,
    m.placeInput s'.operands plan.input frame = y at hp
  cases hp with
  | error => exact ⟨.error trivial, h⟩
  | @ok a b hab =>
    obtain ⟨i, o, frame, dims⟩ := a
    obtain ⟨j, p, frame', dims'⟩ := b
    simp only at hab
    obtain ⟨rfl, hop, htype, -, heq⟩ := hab
    cases heq
    simp only [Operand.resize]
    cases dims.byteLength? with
    | none =>
      refine ⟨.error trivial, h.set fun _ => ?_⟩
      exact hop.redescribe (fun q => { q with dims }) fun _ => ⟨rfl, rfl, rfl, rfl⟩
    | some length =>
      have hover : ∀ values : Array Single,
          Alike { o with dataType := p.dataType, dims, length, data := some values }
            { p with dims, length, data := some values } := by
        intro values
        rw [hop.overwrite_eq]
        exact .same _
      have hblank := h.set (i := i) fun _ => hover (Array.replicate (length / 4) .zero)
      simp only [Operand.allocZeroed, htype]
      cases plan.converts with
      | false => exact ⟨.ok rfl, hblank⟩
      | true =>
        generalize m.processor.load frame frame.height frame.width dims.channels.toNatClampNeg
          p.dataType (Vector.replicate (length / 4) Single.zero) = loaded
        cases loaded with
        | error => exact ⟨.error trivial, hblank⟩
        | ok tensor => exact ⟨.ok rfl, hblank.set fun _ => hover _⟩

theorem runLayers_alike (layers : List Layer) (h : AllAlike s.operands s'.operands) (index : Nat) :
    Concordant (runLayers layers s index).1 (runLayers layers s' index).1 ∧
      AllAlike (runLayers layers s index).2.operands (runLayers layers s' index).2.operands := by
  induction layers generalizing s s' index with
  | nil => exact ⟨.ok rfl, h⟩
  | cons layer layers ih =>
    obtain ⟨hresult, htable⟩ := layer.exec_alike h
    simp only [runLayers]
    generalize layer.exec s = x, layer.exec s' = y at hresult htable
    obtain ⟨result, t⟩ := x
    obtain ⟨result', t'⟩ := y
    cases hresult with
    | error => exact ⟨.error trivial, htable⟩
    | ok => exact ih htable (index + 1)

theorem deliver_alike (h : AllAlike xs ys) (hdims : plan.converts = false → SameDims name xs ys)
    (frames : Frames) :
    Concordant (m.deliver plan xs name frames).1 (m.deliver plan ys name frames).1 ∧
      (m.deliver plan xs name frames).2 = (m.deliver plan ys name frames).2 := by
  have hname := h.find?_rel (fun _ _ _ hop => hop.name) name
  unfold deliver
  cases hx : xs.find? (·.name == name) with
  | none =>
    rw [hx] at hname
    generalize ys.find? (·.name == name) = y at hname
    cases hname
    exact ⟨.error trivial, rfl⟩
  | some o =>
    rw [hx] at hname
    cases hy : ys.find? (·.name == name) with
    | none => rw [hy] at hname; cases hname
    | some p =>
      rw [hy] at hname
      cases hname with
      | some hop =>
        obtain ⟨i, -, -, -, hop⟩ := hop
        rcases hop.eq_or_empty with rfl | ⟨ho, hp⟩
        · exact ⟨.refl _, rfl⟩
        · cases hc : plan.converts with
          | true =>
            simp only [if_true, Operand.values, ho, hp]
            exact ⟨.error trivial, trivial⟩
          | false =>
            simp only [hdims hc o p hx hy]
            exact ⟨.refl _, rfl⟩

theorem deliverAll_alike (h : AllAlike xs ys) {names : List String}
    (hdims : plan.converts = false → ∀ name ∈ names, SameDims name xs ys) (frames : Frames) :
    Concordant (m.deliverAll plan xs names frames).1 (m.deliverAll plan ys names frames).1 ∧
      (m.deliverAll plan xs names frames).2 = (m.deliverAll plan ys names frames).2 := by
  induction names generalizing frames with
  | nil => exact ⟨.ok rfl, rfl⟩
  | cons name names ih =>
    obtain ⟨hresult, hframes⟩ :=
      deliver_alike (m := m) h (fun hc => hdims hc name (by simp)) frames
    simp only [deliverAll]
    generalize m.deliver plan xs name frames = x, m.deliver plan ys name frames = y
      at hresult hframes
    obtain ⟨result, frames⟩ := x
    obtain ⟨result', frames'⟩ := y
    simp only at hframes
    subst hframes
    cases hresult with
    | error => exact ⟨.error trivial, rfl⟩
    | ok => exact ih (fun hc name hname => hdims hc name (by simp [hname])) frames

theorem infer_alike (plan : Plan) (h : AllAlike s.operands s'.operands)
    (hdims : plan.converts = false → (runLayers m.graph.layers s).1 = .ok () →
      (runLayers m.graph.layers s').1 = .ok () → ∀ name ∈ plan.outputs, SameDims name
        (runLayers m.graph.layers s).2.operands (runLayers m.graph.layers s').2.operands)
    (frames : Frames) :
    Concordant (m.infer plan frames s).1 (m.infer plan frames s').1 ∧
      (m.infer plan frames s).2.1 = (m.infer plan frames s').2.1 ∧
      AllAlike (m.infer plan frames s).2.2.operands (m.infer plan frames s').2.2.operands := by
  obtain ⟨hresult, htable⟩ := runLayers_alike m.graph.layers h 0
  unfold infer
  generalize runLayers m.graph.layers s 0 = x, runLayers m.graph.layers s' 0 = y
    at hresult htable hdims
  obtain ⟨result, t⟩ := x
  obtain ⟨result', t'⟩ := y
  cases hresult with
  | error => exact ⟨.error trivial, rfl, htable⟩
  | ok =>
    obtain ⟨hdelivered, hframes⟩ :=
      deliverAll_alike (m := m) htable (fun hc => hdims hc rfl rfl) frames
    exact ⟨hdelivered, hframes, htable⟩

end Model
end Inference
