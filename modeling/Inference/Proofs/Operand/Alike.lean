import Inference.Layer
import Mathlib.Data.Option.Basic
/-! Operand tables related place by place, and tables that hold the same tensors: what the
descriptor of an empty operand says is left open there. -/
namespace Inference

theorem find?_of_findOperand? {xs : Array Operand} {name : String} {i : Nat} {o : Operand}
    (hi : findOperand? xs name = some i) (ho : xs[i]? = some o) :
    xs.find? (·.name == name) = some o := by
  unfold findOperand? at hi
  rw [Array.find?_eq_bind_findIdx?_getElem?, hi]
  exact ho

/-- Both tables have the same places, and each place has related operands. -/
def TableRel (R : Nat → Operand → Operand → Prop) (xs ys : Array Operand) : Prop :=
  ∀ i, Option.Rel (R i) xs[i]? ys[i]?

namespace TableRel

variable {R : Nat → Operand → Operand → Prop} {xs ys : Array Operand} {i : Nat} {o p : Operand}

theorem refl (hR : ∀ i o, R i o o) (xs : Array Operand) : TableRel R xs xs := by
  intro i
  cases xs[i]? with
  | none => exact .none
  | some o => exact .some (hR i o)

theorem trans {S T : Nat → Operand → Operand → Prop} {zs : Array Operand} (h : TableRel R xs ys)
    (h' : TableRel S ys zs) (hT : ∀ i o p q, R i o p → S i p q → T i o q) : TableRel T xs zs := by
  intro i
  have hi := h i
  have hi' := h' i
  generalize xs[i]? = x, ys[i]? = y, zs[i]? = z at hi hi'
  cases hi with
  | none => cases hi'; exact .none
  | some hop => cases hi' with
    | some hpq => exact .some (hT _ _ _ _ hop hpq)

theorem mono {S : Nat → Operand → Operand → Prop} (h : TableRel R xs ys)
    (hS : ∀ i o p, R i o p → S i o p) : TableRel S xs ys := by
  intro i
  have hi := h i
  generalize xs[i]? = x, ys[i]? = y at hi
  cases hi with
  | none => exact .none
  | some hop => exact .some (hS _ _ _ hop)

theorem of_getElem?_some (h : TableRel R xs ys) (hx : xs[i]? = some o) :
    ∃ p, ys[i]? = some p ∧ R i o p := by
  have hi := h i
  rw [hx] at hi
  generalize ys[i]? = y at hi
  cases hi with
  | some hop => exact ⟨_, rfl, hop⟩

theorem of_getElem?_right (h : TableRel R xs ys) (hy : ys[i]? = some p) :
    ∃ o, xs[i]? = some o ∧ R i o p := by
  have hi := h i
  rw [hy] at hi
  generalize xs[i]? = x at hi
  cases hi with
  | some hop => exact ⟨_, rfl, hop⟩

theorem getElem?_none_iff (h : TableRel R xs ys) : xs[i]? = none ↔ ys[i]? = none := by
  have hi := h i
  generalize xs[i]? = x, ys[i]? = y at hi
  cases hi <;> simp

theorem size_eq (h : TableRel R xs ys) : xs.size = ys.size := by
  have hx := (h.getElem?_none_iff (i := ys.size)).2 (Array.getElem?_eq_none (Nat.le_refl _))
  have hy := (h.getElem?_none_iff (i := xs.size)).1 (Array.getElem?_eq_none (Nat.le_refl _))
  exact Nat.le_antisymm (Array.getElem?_eq_none_iff.1 hx) (Array.getElem?_eq_none_iff.1 hy)

theorem set (h : TableRel R xs ys) (hop : xs[i]? ≠ none → R i o p) :
    TableRel R (xs.setIfInBounds i o) (ys.setIfInBounds i p) := by
  intro j
  rw [Array.getElem?_setIfInBounds, Array.getElem?_setIfInBounds, ← h.size_eq]
  split
  next hij =>
    split
    next hlt =>
      subst hij
      exact .some (hop (by simpa using hlt))
    next => exact .none
  next => exact h j

/-- Changing the second table alone. -/
theorem set_right (h : TableRel R xs ys) (hop : ∀ o, xs[i]? = some o → R i o p) :
    TableRel R xs (ys.setIfInBounds i p) := by
  intro j
  rw [Array.getElem?_setIfInBounds, ← h.size_eq]
  split
  next hij =>
    subst hij
    split
    next hlt =>
      rw [Array.getElem?_eq_getElem hlt]
      exact .some (hop _ (Array.getElem?_eq_getElem hlt))
    next hge => rw [Array.getElem?_eq_none (by omega)]; exact .none
  next => exact h j

theorem map_eq {α : Type} (h : TableRel R xs ys) {f : Operand → α}
    (hf : ∀ i o p, R i o p → f o = f p) : xs.map f = ys.map f := by
  apply Array.ext_getElem?
  intro i
  rw [Array.getElem?_map, Array.getElem?_map]
  have hi := h i
  generalize xs[i]? = x, ys[i]? = y at hi
  cases hi with
  | none => rfl
  | some hop => simp [hf i _ _ hop]

theorem findOperand?_eq (h : TableRel R xs ys) (hname : ∀ i o p, R i o p → o.name = p.name)
    (name : String) : findOperand? xs name = findOperand? ys name := by
  have hindex : ∀ zs : Array Operand,
      (zs.map Operand.name).findIdx? (· == name) = findOperand? zs name :=
    fun zs => Array.findIdx?_map
  rw [← hindex xs, ← hindex ys, h.map_eq hname]

/-- A name stands for the same place in both tables. -/
theorem find?_rel (h : TableRel R xs ys) (hname : ∀ i o p, R i o p → o.name = p.name)
    (name : String) :
    Option.Rel (fun o p => ∃ i, findOperand? xs name = some i ∧ xs[i]? = some o ∧ ys[i]? = some p ∧
      R i o p) (xs.find? (·.name == name)) (ys.find? (·.name == name)) := by
  have hnames := h.findOperand?_eq hname name
  unfold findOperand? at hnames ⊢
  rw [Array.find?_eq_bind_findIdx?_getElem?, Array.find?_eq_bind_findIdx?_getElem?, ← hnames]
  cases hi : xs.findIdx? (·.name == name) with
  | none => exact .none
  | some i =>
    have hlt : i < xs.size := (Array.findIdx?_eq_some_iff_getElem.1 hi).1
    obtain ⟨p, hp, hop⟩ := h.of_getElem?_some (Array.getElem?_eq_getElem hlt)
    simp only [Option.bind_some, Array.getElem?_eq_getElem hlt, hp]
    exact .some ⟨i, rfl, Array.getElem?_eq_getElem hlt, hp, hop⟩

end TableRel

namespace Operand

/-- Operands that hold the same tensor, whatever their names, kinds and layouts. -/
structure SameTensor (o p : Operand) : Prop where
  dims : o.dims = p.dims
  dataType : o.dataType = p.dataType
  data : o.data = p.data

/-- Neither holds values, or both hold the same tensor. -/
inductive Agrees : Operand → Operand → Prop where
  | empty {o p : Operand} (left : o.data = none) (right : p.data = none) : Agrees o p
  | same {o p : Operand} (h : o.SameTensor p) : Agrees o p

/-- Equal, or both empty and of one name, kind and layout. -/
inductive Alike : Operand → Operand → Prop where
  | same (o : Operand) : Alike o o
  | empty {o p : Operand} (name : o.name = p.name) (kind : o.kind = p.kind)
      (nhwc : o.nhwc = p.nhwc) (left : o.data = none) (right : p.data = none) : Alike o p

/-- Tables that hold the same tensors. -/
abbrev AllAlike (xs ys : Array Operand) : Prop := TableRel (fun _ => Alike) xs ys

namespace Alike

variable {o p : Operand}

theorem name (h : Alike o p) : o.name = p.name := by
  cases h with
  | same => rfl
  | empty hname => exact hname

theorem kind (h : Alike o p) : o.kind = p.kind := by
  cases h with
  | same => rfl
  | empty _ hkind => exact hkind

/-- Nothing differs once an operand holds values. -/
theorem eq_or_empty (h : Alike o p) : o = p ∨ o.data = none ∧ p.data = none := by
  cases h with
  | same => exact .inl rfl
  | empty _ _ _ hleft hright => exact .inr ⟨hleft, hright⟩

theorem agrees (h : Alike o p) : Agrees o p := by
  rcases h.eq_or_empty with rfl | ⟨hleft, hright⟩
  · exact .same ⟨rfl, rfl, rfl⟩
  · exact .empty hleft hright

/-- The same change of a descriptor keeps two operands alike. -/
theorem redescribe (h : Alike o p) (f : Operand → Operand)
    (hf : ∀ q, (f q).name = q.name ∧ (f q).kind = q.kind ∧ (f q).nhwc = q.nhwc ∧
      (f q).data = q.data) : Alike (f o) (f p) := by
  cases h with
  | same => exact .same _
  | empty hname hkind hnhwc hleft hright =>
    obtain ⟨ho1, ho2, ho3, ho4⟩ := hf o
    obtain ⟨hp1, hp2, hp3, hp4⟩ := hf p
    exact .empty (by rw [ho1, hp1, hname]) (by rw [ho2, hp2, hkind]) (by rw [ho3, hp3, hnhwc])
      (ho4.trans hleft) (hp4.trans hright)

/-- The same new descriptor and values make two operands equal. -/
theorem overwrite_eq (h : Alike o p) (dataType : DataType) (dims : Dims) (length : Nat)
    (data : Option (Array Single)) :
    { o with dataType, dims, length, data } = { p with dataType, dims, length, data } := by
  cases h with
  | same => rfl
  | empty hname hkind hnhwc =>
    cases o
    cases p
    simp_all

end Alike
end Operand
end Inference
