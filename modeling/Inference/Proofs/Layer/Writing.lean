import Inference.Layer
import Inference.Proofs.Kernel.Tensor
/-! All that writing a tensor can come to. The checks come one after the other, and each leaves what
those before it have changed. -/
namespace Inference

/-- The operand with a tensor in it, which is the whole of it but for name, kind and layout. -/
def Operand.holding (o : Operand) (t : Tensor) : Operand :=
  { o with
    dataType := t.dataType
    dims := t.shape.toDims
    length := 4 * t.values.size
    data := some t.values }

namespace Store

/-- What is said and what is left of a store when a tensor was to be written. -/
inductive Writes (s : Store) (i : Nat) (t : Tensor) : Except KernelError Unit × Store → Prop
  | oversized {size : Nat} (hsize : t.shape.oversized? = some size) :
    Writes s i t (.error (.oversizedAxis size), s)
  | missing (hsize : t.shape.oversized? = none) (ho : s.operands[i]? = none) :
    Writes s i t (.error (.fault .outOfBounds), s)
  | overlong {o : Operand} (hsize : t.shape.oversized? = none) (ho : s.operands[i]? = some o)
      (hlength : t.shape.toDims.byteLength? = none) :
    Writes s i t (.error (.lengthOverflow o.name),
      s.set i { o with dataType := t.dataType, dims := t.shape.toDims })
  | unfilled {o : Operand} {length : Nat} (hsize : t.shape.oversized? = none)
      (ho : s.operands[i]? = some o) (hlength : t.shape.toDims.byteLength? = some length)
      (hfill : 4 * t.values.size ≠ length) :
    Writes s i t (.error (.wrongLength o.name length (4 * t.values.size)),
      s.set i { o with dataType := t.dataType, dims := t.shape.toDims, length })
  | held {o : Operand} (ho : s.operands[i]? = some o) (ht : t.Writable) :
    Writes s i t (.ok (), { s.set i (o.holding t) with ledger := s.ledger.replace o.data })

variable {s : Store} {i : Nat} {o : Operand} {t : Tensor}

theorem Writes.eq {r : Except KernelError Unit × Store} (h : Writes s i t r) : s.write i t = r := by
  unfold write
  cases h with
  | oversized hsize => simp only [hsize]
  | missing hsize ho => simp only [hsize, ho]
  | overlong hsize ho hlength => simp only [hsize, ho, Operand.resize, hlength]
  | unfilled hsize ho hlength hfill =>
    simp only [hsize, ho, Operand.resize, hlength, Operand.install, if_neg hfill]
  | held ho ht =>
    simp only [ht.sizes, ho, Operand.resize, ht.length, Operand.install, if_true]
    rfl

/-- Of the ways to write one always applies, so that what holds of each holds of every write. -/
theorem writes (s : Store) (i : Nat) (t : Tensor) : Writes s i t (s.write i t) := by
  suffices h : ∃ r, Writes s i t r by
    obtain ⟨r, hr⟩ := h
    rwa [hr.eq]
  cases hsize : t.shape.oversized? with
  | some size => exact ⟨_, .oversized hsize⟩
  | none =>
    cases ho : s.operands[i]? with
    | none => exact ⟨_, .missing hsize ho⟩
    | some o =>
      cases hlength : t.shape.toDims.byteLength? with
      | none => exact ⟨_, .overlong hsize ho hlength⟩
      | some length =>
        by_cases hfill : 4 * t.values.size = length
        · exact ⟨_, .held ho ⟨hsize, hfill ▸ hlength⟩⟩
        · exact ⟨_, .unfilled hsize ho hlength hfill⟩

/-- A new buffer takes the place of the old one, if there was one. -/
theorem write_of_writable (ho : s.operands[i]? = some o) (ht : t.Writable) : s.write i t =
    (.ok (), { s.set i (o.holding t) with ledger := s.ledger.replace o.data }) :=
  (Writes.held ho ht).eq

/-- Nothing else can be written. -/
theorem writable_of_write (h : (s.write i t).1 = .ok ()) :
    ∃ o, s.operands[i]? = some o ∧ t.Writable := by
  have hw := s.writes i t
  generalize s.write i t = r at h hw
  cases hw with
  | held ho ht => exact ⟨_, ho, ht⟩
  | _ => cases h

/-- Dims without a byte length are as far as writing gets, whatever the values are. -/
theorem write_overlong (h : t.shape.toDims.byteLength? = none) (values : Array Single) :
    s.write i { t with values } = s.write i t := by
  have hw := s.writes i t
  generalize s.write i t = r at hw
  cases hw with
  | oversized hsize => exact Writes.eq (t := { t with values }) (.oversized hsize)
  | missing hsize ho => exact Writes.eq (t := { t with values }) (.missing hsize ho)
  | overlong hsize ho => exact Writes.eq (t := { t with values }) (.overlong hsize ho h)
  | unfilled _ _ hlength => cases h.symm.trans hlength
  | held _ ht => cases h.symm.trans ht.length

end Store
end Inference
