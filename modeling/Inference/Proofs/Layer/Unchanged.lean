import Inference.Proofs.Layer.Exec
import Inference.Proofs.Operand.Alike
/-! What a layer leaves as it was: the identity of every operand, the values that are there, and every
operand but its output. -/
namespace Inference

/-- An operand that is still the same one and has lost no values. -/
structure Operand.Survives (o p : Operand) : Prop where
  name : o.name = p.name
  kind : o.kind = p.kind
  nhwc : o.nhwc = p.nhwc
  data : o.data.isSome → p.data.isSome

namespace Operand.Survives

variable {o p q : Operand}

theorem refl (o : Operand) : Survives o o := ⟨rfl, rfl, rfl, id⟩

theorem trans (h : Survives o p) (h' : Survives p q) : Survives o q :=
  ⟨h.name.trans h'.name, h.kind.trans h'.kind, h.nhwc.trans h'.nhwc, h'.data ∘ h.data⟩

end Operand.Survives

/-- Every operand survives, and those that no index of a set stands for are unchanged. -/
def OthersUnchanged (written : Nat → Prop) (xs ys : Array Operand) : Prop :=
  TableRel (fun i o p => o.Survives p ∧ (¬written i → o = p)) xs ys

namespace OthersUnchanged

variable {written : Nat → Prop} {xs ys zs : Array Operand}

theorem refl (xs : Array Operand) : OthersUnchanged written xs xs :=
  TableRel.refl (fun _ o => ⟨.refl o, fun _ => rfl⟩) xs

theorem trans {written' : Nat → Prop} (h : OthersUnchanged written xs ys)
    (h' : OthersUnchanged written' ys zs) :
    OthersUnchanged (fun i => written i ∨ written' i) xs zs :=
  TableRel.trans h h' fun _ _ _ _ hop hpq => ⟨hop.1.trans hpq.1, fun hi =>
    (hop.2 fun hw => hi (.inl hw)).trans (hpq.2 fun hw => hi (.inr hw))⟩

theorem mono {written' : Nat → Prop} (h : OthersUnchanged written xs ys)
    (hw : ∀ i, written i → written' i) : OthersUnchanged written' xs ys :=
  TableRel.mono h fun i _ _ hop => ⟨hop.1, fun hi => hop.2 fun hwi => hi (hw i hwi)⟩

theorem set {i : Nat} {p : Operand} (hp : ∀ o, xs[i]? = some o → o.Survives p) :
    OthersUnchanged (· = i) xs (xs.setIfInBounds i p) :=
  (refl xs).set_right fun o ho => ⟨hp o ho, fun hi => absurd rfl hi⟩

end OthersUnchanged

theorem Store.write_frame (s : Store) (i : Nat) (t : Tensor) :
    OthersUnchanged (· = i) s.operands (s.write i t).2.operands := by
  have hset : ∀ {o p : Operand}, s.operands[i]? = some o → o.Survives p →
      OthersUnchanged (· = i) s.operands (s.operands.setIfInBounds i p) := by
    intro o p ho hp
    refine .set fun q hq => ?_
    cases ho.symm.trans hq
    exact hp
  have hw := s.writes i t
  generalize s.write i t = r at hw ⊢
  cases hw with
  | oversized | missing => exact .refl _
  | overlong _ ho => exact hset ho ⟨rfl, rfl, rfl, id⟩
  | unfilled _ ho => exact hset ho ⟨rfl, rfl, rfl, id⟩
  | held ho => exact hset ho ⟨rfl, rfl, rfl, fun _ => rfl⟩

theorem Layer.exec_frame (l : Layer) (s : Store) :
    OthersUnchanged (· = l.output) s.operands (l.exec s).2.operands := by
  rw [Layer.exec_eq]
  cases l.compute s.operands with
  | error => exact .refl _
  | ok t => exact s.write_frame l.output t

/-- A layer that succeeds has written the tensor that it computed. -/
theorem Layer.exec_eq_ok {l : Layer} {s : Store} (h : (l.exec s).1 = .ok ()) :
    ∃ t o, l.compute s.operands = .ok t ∧ s.operands[l.output]? = some o ∧ t.Writable ∧ l.exec s =
      (.ok (), { s.set l.output (o.holding t) with ledger := s.ledger.replace o.data }) := by
  rw [Layer.exec_eq] at h ⊢
  cases hcompute : l.compute s.operands with
  | error e => simp [hcompute] at h
  | ok t =>
    simp only [hcompute] at h ⊢
    obtain ⟨o, ho, ht⟩ := Store.writable_of_write h
    exact ⟨t, o, rfl, ho, ht, Store.write_of_writable ho ht⟩

/-- And a tensor that can be written is written. -/
theorem Layer.exec_of_writable {l : Layer} {s : Store} {t : Tensor}
    (hcompute : l.compute s.operands = .ok t) (ht : t.Writable) : ∃ o, s.operands[l.output]? = some o ∧
      l.exec s = (.ok (), { s.set l.output (o.holding t) with ledger := s.ledger.replace o.data }) := by
  have hout := (Layer.strayIndex?_eq_none_iff.1 (Layer.compute_inRange hcompute)).2
  have ho := Array.getElem?_eq_getElem hout
  refine ⟨_, ho, ?_⟩
  rw [Layer.exec_eq, hcompute]
  exact Store.write_of_writable ho ht

theorem Layer.exec_holds {l : Layer} {s : Store} (h : (l.exec s).1 = .ok ()) :
    ∃ p, (l.exec s).2.operands[l.output]? = some p ∧ p.data.isSome := by
  obtain ⟨t, o, -, ho, -, hexec⟩ := Layer.exec_eq_ok h
  have hlt : l.output < s.operands.size := (Array.getElem?_eq_some_iff.1 ho).1
  rw [hexec]
  exact ⟨_, Array.getElem?_setIfInBounds_self_of_lt hlt, rfl⟩

end Inference
