import Inference.Proofs.Layer.Exec
/-! How many buffers a layer takes: one if it writes its output, in place of the one that was there,
and none if it fails, wherever that is. -/
namespace Inference

/-- The number of buffers that the operand holds. -/
def Operand.held (o : Operand) : Nat := o.data.elim 0 fun _ => 1

theorem Operand.held_eq (o : Operand) : o.held = if o.data.isSome = true then 1 else 0 := by
  rcases hdata : o.data <;> simp [held, hdata]

namespace Store

/-- The number of buffers that the operands hold. -/
def live (s : Store) : Nat := s.operands.countP (·.data.isSome)

/-- From one store to the other so many buffers were taken, and those not held any more were let
go. -/
structure Took (n : Nat) (s t : Store) : Prop where
  allocated : t.ledger.allocated = s.ledger.allocated + n
  released : t.ledger.released + t.live = s.ledger.released + s.live + n

variable {s t u : Store} {i j k : Nat} {o p : Operand}

theorem live_set (ho : s.operands[i]? = some o) (p : Operand) :
    (s.set i p).live + o.held = s.live + p.held := by
  obtain ⟨hlt, rfl⟩ := Array.getElem?_eq_some_iff.1 ho
  have hle := Array.boole_getElem_le_countP (p := (·.data.isSome)) hlt
  simp only [live, Store.set, Array.setIfInBounds_def, hlt, dite_true, Array.countP_set,
    Operand.held_eq]
  omega

namespace Took

theorem refl (s : Store) : Took 0 s s := ⟨rfl, rfl⟩

theorem trans (h : Took j s t) (h' : Took k t u) : Took (j + k) s u := by
  have hallocated := h.allocated
  have hallocated' := h'.allocated
  have hreleased := h.released
  have hreleased' := h'.released
  constructor <;> omega

/-- An operand that changes and keeps or lacks its buffer takes and lets go of nothing. -/
theorem keep (ho : s.operands[i]? = some o) (hheld : p.held = o.held) : Took 0 s (s.set i p) := by
  have hlive := live_set ho p
  refine ⟨rfl, ?_⟩
  change s.ledger.released + _ = _
  omega

/-- New values in an operand are one buffer taken in place of an old one, if there was one. -/
theorem replace (ho : s.operands[i]? = some o) (hdata : p.data.isSome) :
    Took 1 s { s.set i p with ledger := s.ledger.replace o.data } := by
  have hlive := live_set ho p
  have hheld : p.held = 1 := by rw [p.held_eq, if_pos hdata]
  refine ⟨rfl, ?_⟩
  change s.ledger.released + o.held + (s.set i p).live = _
  omega

end Took

theorem write_took (s : Store) (i : Nat) (t : Tensor) :
    Took (s.write i t).1.toBool.toNat s (s.write i t).2 := by
  have hw := s.writes i t
  generalize s.write i t = r at hw ⊢
  cases hw with
  | oversized | missing => exact .refl s
  | overlong _ ho => exact .keep ho rfl
  | unfilled _ ho => exact .keep ho rfl
  | held ho => exact .replace ho rfl

end Store

theorem Layer.exec_took (l : Layer) (s : Store) :
    Store.Took (l.exec s).1.toBool.toNat s (l.exec s).2 := by
  rw [Layer.exec_eq]
  cases l.compute s.operands with
  | error e => exact .refl s
  | ok tensor => exact s.write_took l.output tensor

end Inference
