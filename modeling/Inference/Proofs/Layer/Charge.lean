import Inference.Proofs.Layer.Exec
/-! The count of buffers steers nothing: whatever was counted before, a layer does the same and
counts the same. -/
namespace Inference

namespace Ledger

instance : Add Ledger := ⟨fun a b => ⟨a.allocated + b.allocated, a.released + b.released⟩⟩

variable {a b c : Ledger}

@[ext]
theorem ext (hallocated : a.allocated = b.allocated) (hreleased : a.released = b.released) :
    a = b := by
  cases a
  cases b
  simp_all

theorem add_right_comm : a + b + c = a + c + b :=
  ext (Nat.add_right_comm ..) (Nat.add_right_comm ..)

theorem replace_add (old : Option (Array Single)) : (a + b).replace old = a.replace old + b :=
  ext (Nat.add_right_comm ..) (Nat.add_right_comm ..)

end Ledger

/-- The same operands with more buffers on the account. -/
def Store.charge (s : Store) (l : Ledger) : Store := { s with ledger := s.ledger + l }

variable {s : Store} {l : Ledger}

theorem Store.write_charge (i : Nat) (t : Tensor) :
    (s.charge l).write i t = ((s.write i t).1, (s.write i t).2.charge l) := by
  have hread : (s.charge l).operands[i]? = s.operands[i]? := rfl
  have hw := s.writes i t
  generalize s.write i t = r at hw ⊢
  cases hw with
  | oversized hsize => exact (Writes.oversized hsize).eq
  | missing hsize ho => exact (Writes.missing hsize (hread.trans ho)).eq
  | overlong hsize ho hlength => exact (Writes.overlong hsize (hread.trans ho) hlength).eq
  | unfilled hsize ho hlength hfill =>
    exact (Writes.unfilled hsize (hread.trans ho) hlength hfill).eq
  | held ho ht =>
    rw [write_of_writable (hread.trans ho) ht]
    simp only [charge, Ledger.replace_add]
    rfl

theorem Layer.exec_charge (layer : Layer) :
    layer.exec (s.charge l) = ((layer.exec s).1, (layer.exec s).2.charge l) := by
  have hsame : layer.compute (s.charge l).operands = layer.compute s.operands := rfl
  rw [Layer.exec_eq, Layer.exec_eq]
  rw [hsame]
  cases layer.compute s.operands with
  | error => rfl
  | ok tensor => exact Store.write_charge _ _

end Inference
