import Inference.Proofs.Layer.Exec
import Inference.Proofs.Operand.Alike
/-! Layers on tables that hold the same tensors: they make the same tensors or fail on both. -/
namespace Inference

namespace Operand.Agrees

variable {o p : Operand}

theorem values (h : Agrees o p) : Concordant o.values p.values := by
  unfold Operand.values
  cases h with
  | empty hleft hright =>
    rw [hleft, hright]
    exact .error trivial
  | same h =>
    rw [h.data]
    cases p.data with
    | none => exact .error trivial
    | some values => exact .ok rfl

theorem mapValues (h : Agrees o p) (f : Single → Single) :
    Concordant (o.mapValues f) (p.mapValues f) := by
  have hvalues := h.values
  unfold Operand.mapValues
  cases h with
  | empty hleft hright =>
    simp only [Operand.values, hleft, hright]
    exact .error trivial
  | same h =>
    rw [h.dims, h.dataType]
    exact hvalues.bind_same _

theorem image (h : Agrees o p) : Concordant o.image p.image := by
  cases h with
  | empty hleft hright =>
    obtain ⟨e, he⟩ := image_of_empty hleft
    obtain ⟨e', he'⟩ := image_of_empty hright
    rw [he, he']
    exact .error trivial
  | same h =>
    unfold Operand.image
    rw [h.dims, h.dataType]
    refine Concordant.check fun _ => (same h).values.bind fun values _ hsame => ?_
    subst hsame
    exact Concordant.fork fun needed _ => Concordant.check fun _ => .refl _

end Operand.Agrees

namespace MathBinary

open Operand

/-- Sources of one kind, with the same value or operands that agree. -/
inductive Source.Agrees : Source → Source → Prop where
  | scalar (x : Single) : Source.Agrees (.scalar x) (.scalar x)
  | tensor {o p : Operand} (h : o.Agrees p) : Source.Agrees (.tensor o) (.tensor p)

theorem resolve_agrees (side : BinarySide) {os ps : List Operand}
    (h : List.Forall₂ Operand.Agrees os ps) :
    Concur (fun _ _ => True)
      (fun a b => Source.Agrees a.1 b.1 ∧ List.Forall₂ Operand.Agrees a.2 b.2)
      (resolve side os) (resolve side ps) := by
  cases side with
  | scalar x => exact .ok ⟨.scalar x, h⟩
  | tensor =>
    cases h with
    | nil => exact .error trivial
    | cons hop h => exact .ok ⟨.tensor hop, h⟩

theorem combine_agrees (op : BinaryOp) {a a' b b' : Source} (ha : a.Agrees a') (hb : b.Agrees b') :
    Concordant (combine op a b) (combine op a' b') := by
  cases ha with
  | scalar x =>
    cases hb with
    | scalar y => exact .refl _
    | tensor h => exact h.mapValues _
  | @tensor left left' hl =>
    cases hb with
    | scalar y => exact hl.mapValues _
    | tensor hr =>
      have hvalues := hl.values
      cases hl with
      | empty hleft hright =>
        simp only [combine, Operand.values, hleft, hright]
        exact .error trivial
      | same hl =>
        simp only [combine, hl.dims, hl.dataType]
        refine hvalues.bind fun xs _ hxs => ?_
        subst hxs
        exact hr.values.bind_same _

theorem apply_agrees (p : MathBinary) {os ps : List Operand}
    (h : List.Forall₂ Operand.Agrees os ps) : Concordant (p.apply os) (p.apply ps) := by
  refine (resolve_agrees p.left h).bind fun a a' ha => ?_
  refine (resolve_agrees p.right ha.2).bind fun b b' hb => ?_
  exact combine_agrees p.op ha.1 hb.1

end MathBinary

namespace Store

open Operand

theorem write_alike {s s' : Store} (h : AllAlike s.operands s'.operands) (i : Nat) (t : Tensor) :
    Concordant (s.write i t).1 (s'.write i t).1 ∧
      AllAlike (s.write i t).2.operands (s'.write i t).2.operands := by
  have hw := s.writes i t
  generalize s.write i t = r at hw ⊢
  cases hw with
  | oversized hsize =>
    rw [(Writes.oversized hsize).eq]
    exact ⟨.error trivial, h⟩
  | missing hsize ho =>
    rw [(Writes.missing hsize (h.getElem?_none_iff.1 ho)).eq]
    exact ⟨.error trivial, h⟩
  | overlong hsize ho hlength =>
    obtain ⟨p, hp, hop⟩ := h.of_getElem?_some ho
    rw [(Writes.overlong hsize hp hlength).eq]
    refine ⟨.error trivial, h.set fun _ => ?_⟩
    exact hop.redescribe (fun q => { q with dataType := t.dataType, dims := t.shape.toDims })
      fun _ => ⟨rfl, rfl, rfl, rfl⟩
  | @unfilled _ length hsize ho hlength hfill =>
    obtain ⟨p, hp, hop⟩ := h.of_getElem?_some ho
    rw [(Writes.unfilled hsize hp hlength hfill).eq]
    refine ⟨.error trivial, h.set fun _ => ?_⟩
    exact hop.redescribe
      (fun q => { q with dataType := t.dataType, dims := t.shape.toDims, length })
      fun _ => ⟨rfl, rfl, rfl, rfl⟩
  | held ho ht =>
    obtain ⟨p, hp, hop⟩ := h.of_getElem?_some ho
    rw [write_of_writable hp ht]
    refine ⟨.ok rfl, h.set fun _ => ?_⟩
    unfold holding
    rw [hop.overwrite_eq]
    exact .same _

end Store

namespace Layer

open Operand

variable {xs ys : Array Operand} {l m : Layer}

/-- The input operands of the one layer, in the one table, agree with those of the other. -/
def InputsAgree (l m : Layer) (xs ys : Array Operand) : Prop :=
  List.Forall₂ (fun i j => Option.Rel Agrees xs[i]? ys[j]?) l.inputs m.inputs

theorem read_agrees {i j : Nat} (h : Option.Rel Agrees xs[i]? ys[j]?) :
    Concur (fun _ _ => True) Agrees ((Checked.read xs i).mapError KernelError.fault)
      ((Checked.read ys j).mapError KernelError.fault) := by
  unfold Checked.read
  generalize xs[i]? = x, ys[j]? = y at h
  cases h with
  | none => exact .error trivial
  | some hop => exact .ok hop

theorem InputsAgree.operand (h : InputsAgree l m xs ys) :
    Concur (fun _ _ => True) Agrees (l.operand xs) (m.operand ys) := by
  unfold InputsAgree at h
  unfold Layer.operand
  generalize l.inputs = is, m.inputs = js at h
  cases h with
  | nil => exact .error trivial
  | cons hfirst _ => exact read_agrees hfirst

theorem InputsAgree.image (h : InputsAgree l m xs ys) : Concordant (l.image xs) (m.image ys) :=
  h.operand.bind fun _ _ hop => hop.image

/-- What a layer makes depends on its parameters and on the tensors that it reads. -/
theorem InputsAgree.compute (h : InputsAgree l m xs ys) (hparams : l.params = m.params)
    (hstray : l.strayIndex? xs.size = none) (hstray' : m.strayIndex? ys.size = none) :
    Concordant (l.compute xs) (m.compute ys) := by
  unfold Layer.compute
  rw [hstray, hstray', hparams]
  cases m.params with
  | identity => exact h.operand.bind fun _ _ hop => hop.mapValues _
  | conv2d p => exact h.image.bind_same _
  | depthToSpace b => exact h.image.bind_same _
  | mirrorPad p =>
    exact Concordant.fork fun _ _ => h.image.bind_same _
  | maximum v => exact h.operand.bind fun _ _ hop => hop.mapValues _
  | mathBinary p =>
    have hread := h.imp fun _ _ => read_agrees
    exact (Concur.mapM hread).bind fun _ _ hos => p.apply_agrees hos
  | mathUnary op => exact h.operand.bind fun _ _ hop => hop.mapValues _
  | avgPool p => exact h.image.bind_same _
  | dense p => exact h.image.bind_same _

variable (l)

theorem compute_alike (h : AllAlike xs ys) : Concordant (l.compute xs) (l.compute ys) := by
  have hinputs : InputsAgree l l xs ys := List.forall₂_same.2 fun i _ => by
    have hi := h i
    generalize xs[i]? = x, ys[i]? = y at hi
    cases hi with
    | none => exact .none
    | some hop => exact .some hop.agrees
  cases hstray : l.strayIndex? xs.size with
  | none => exact hinputs.compute rfl hstray (h.size_eq ▸ hstray)
  | some i =>
    unfold Layer.compute
    rw [← h.size_eq, hstray]
    exact .error trivial

theorem exec_alike {s s' : Store} (h : AllAlike s.operands s'.operands) :
    Concordant (l.exec s).1 (l.exec s').1 ∧
      AllAlike (l.exec s).2.operands (l.exec s').2.operands := by
  have hc := l.compute_alike h
  rw [Layer.exec_eq, Layer.exec_eq]
  generalize l.compute s.operands = x, l.compute s'.operands = y at hc
  cases hc with
  | error => exact ⟨.error trivial, h⟩
  | ok ht =>
    subst ht
    exact Store.write_alike h l.output _

end Layer
end Inference
