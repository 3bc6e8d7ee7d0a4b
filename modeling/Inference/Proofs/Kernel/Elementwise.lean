import Inference.Kernel.Elementwise
import Inference.Proofs.Kernel.Tensor
/-! Layers that work value by value: they keep the dims and the data type of the first operand that
they read, and as many values as it has. -/
namespace Inference

namespace KernelError

/-- There are no values, or those of two tensors do not go together. Layers that work value by value
say nothing else. -/
def Unpaired : KernelError → Prop
  | .noData _ | .noTensor | .missingTensor | .unequalLengths .. => True
  | _ => False

theorem Unpaired.not_fault {e : KernelError} (h : e.Unpaired) : ¬MayFault.IsFault e := by
  cases e <;> first | exact not_false | exact h.elim

theorem Unpaired.not_misfit {e : KernelError} (h : e.Unpaired) : ¬e.IsMisfit := by
  cases e <;> first | exact not_false | exact h.elim

end KernelError

namespace Avoids

variable {α : Type} {x : Except KernelError α}

theorem faultless (h : Avoids (¬·.Unpaired) x) : Faultless x :=
  h.mono fun _ hfault hunpaired => hunpaired.not_fault hfault

theorem fitting (h : Avoids (¬·.Unpaired) x) : Avoids KernelError.IsMisfit x :=
  h.mono fun _ hmisfit hunpaired => hunpaired.not_misfit hmisfit

end Avoids

namespace Operand

variable {o : Operand}

theorem mapValues_of_data {values : Array Single} (h : o.data = some values)
    (f : Single → Single) : o.mapValues f = .ok ⟨.ofDims o.dims, o.dataType, values.map f⟩ :=
  bind_eq_ok.2 ⟨values, values_of_data h, rfl⟩

theorem mapValues_of_empty (h : o.data = none) (f : Single → Single) :
    o.mapValues f = .error (.noData o.name) := by
  unfold mapValues values
  rw [h]
  rfl

theorem values_unpaired (o : Operand) : Avoids (¬·.Unpaired) o.values :=
  fun _ he => values_failure he ▸ not_not.2 trivial

theorem mapValues_unpaired (o : Operand) (f : Single → Single) :
    Avoids (¬·.Unpaired) (o.mapValues f) :=
  o.values_unpaired.bind fun _ _ => .ok _

theorem mapValues_madeFrom (o : Operand) (f : Single → Single) :
    Ensures (·.MadeFrom o) (o.mapValues f) :=
  .bind fun _ hvalues => .ok ⟨by rw [values_eq_ok hvalues]; rfl, rfl, rfl⟩

/-- Values that take the place of as many others fill the same dims. -/
theorem Fits.writable (h : o.Fits) {old values : Array Single} (hdata : o.data = some old)
    (hsize : values.size = old.size) : (Tensor.mk (.ofDims o.dims) o.dataType values).Writable := by
  obtain ⟨hlength, hold⟩ := h old hdata
  obtain ⟨hpos, -, -⟩ := h.volume hdata
  refine ⟨Shape.oversized?_ofDims o.dims, ?_⟩
  rw [Shape.toDims_ofDims hpos, hlength, hsize, hold]

theorem Fits.mapValues_writable (h : o.Fits) (f : Single → Single) :
    Ensures Tensor.Writable (o.mapValues f) :=
  .bind fun _ hvalues => .ok (h.writable (values_eq_ok hvalues) (Array.size_map ..))

end Operand

/-- Another operand with the dims and the data type of an operand and one value in all its places. -/
structure Operand.Constant (x : Single) (o q : Operand) : Prop where
  dims : q.dims = o.dims
  dataType : q.dataType = o.dataType
  data : ∃ n, q.data = some (.replicate n x) ∧ ∀ xs ∈ o.data, xs.size = n

/-- A tensor was expected and there was none. -/
def KernelError.LacksTensor (e : KernelError) : Prop := e = .noTensor ∨ e = .missingTensor

namespace MathBinary

/-- The operand of a tensor side. -/
def Source.operand? : Source → Option Operand
  | .scalar _ => none
  | .tensor o => some o

section

variable (side : BinarySide) (os : List Operand)

theorem resolve_unpaired : Avoids (¬·.Unpaired) (resolve side os) := by
  cases side with
  | scalar => exact .ok _
  | tensor =>
    cases os with
    | nil => exact .error (not_not.2 trivial)
    | cons => exact .ok _

theorem resolve_operand? : Ensures (fun r => os = r.1.operand?.toList ++ r.2) (resolve side os) := by
  cases side with
  | scalar x => exact .ok rfl
  | tensor =>
    cases os with
    | nil => exact .error _
    | cons o os => exact .ok rfl

end

section

variable (op : BinaryOp) (a b : Source)

theorem combine_unpaired : Avoids (¬·.Unpaired) (combine op a b) := by
  have htrue : ¬¬True := not_not.2 trivial
  cases a with
  | scalar =>
    cases b with
    | scalar => exact .error htrue
    | tensor right => exact right.mapValues_unpaired _
  | tensor left =>
    cases b with
    | scalar => exact left.mapValues_unpaired _
    | tensor right =>
      refine left.values_unpaired.bind fun xs _ => right.values_unpaired.bind fun ys _ => ?_
      exact .check htrue fun _ => .ok _

theorem combine_madeFrom :
    Ensures (fun t => ∃ o ∈ a.operand?.or b.operand?, t.MadeFrom o) (combine op a b) := by
  cases a with
  | tensor left =>
    cases b with
    | tensor right =>
      refine .bind fun xs hxs => .bind fun _ _ => .check fun _ => .ok ⟨left, rfl, ?_, rfl, rfl⟩
      rw [Operand.values_eq_ok hxs]
      rfl
    | scalar y => exact fun t ht => ⟨left, rfl, left.mapValues_madeFrom _ t ht⟩
  | scalar x =>
    cases b with
    | tensor right => exact fun t ht => ⟨right, rfl, right.mapValues_madeFrom _ t ht⟩
    | scalar y => exact .error _

variable {a b}

theorem combine_writable (h : ∀ o ∈ a.operand?.or b.operand?, o.Fits) :
    Ensures Tensor.Writable (combine op a b) := by
  cases a with
  | tensor left =>
    have hleft : left.Fits := h left rfl
    cases b with
    | tensor right =>
      refine .bind fun xs hxs => .bind fun ys hys => .check fun hsize => .ok ?_
      refine hleft.writable (Operand.values_eq_ok hxs) ?_
      rw [Array.size_zipWith, ← not_not.1 hsize, Nat.min_self]
    | scalar y => exact hleft.mapValues_writable _
  | scalar x =>
    cases b with
    | tensor right => exact (h right rfl).mapValues_writable _
    | scalar y => exact .error _

end

/-- Two tensors go together place by place, in the shape of the left one. -/
theorem combine_tensors_eq_ok {op : BinaryOp} {o p : Operand} {t : Tensor} :
    combine op (.tensor o) (.tensor p) = .ok t ↔ ∃ xs ys, o.data = some xs ∧ p.data = some ys ∧
      xs.size = ys.size ∧ t = ⟨.ofDims o.dims, o.dataType, xs.zipWith op.apply ys⟩ := by
  constructor
  · intro h
    obtain ⟨xs, hxs, h⟩ := bind_eq_ok.1 h
    obtain ⟨ys, hys, h⟩ := bind_eq_ok.1 h
    obtain ⟨hsize, h⟩ := ite_throw_bind_eq_ok.1 h
    exact ⟨xs, ys, Operand.values_eq_ok hxs, Operand.values_eq_ok hys, not_not.1 hsize,
      (Except.ok.inj h).symm⟩
  · rintro ⟨xs, ys, hxs, hys, hsize, rfl⟩
    refine bind_eq_ok.2 ⟨xs, Operand.values_of_data hxs, ?_⟩
    refine bind_eq_ok.2 ⟨ys, Operand.values_of_data hys, ?_⟩
    exact if_neg (not_not.2 hsize)

section

variable {x : Single} {o q : Operand} (h : o.Constant x q) (op : BinaryOp)

include h

/-- A value on the left is as good as a tensor that has it everywhere. -/
theorem combine_constant_left :
    combine op (.tensor q) (.tensor o) = combine op (.scalar x) (.tensor o) := by
  obtain ⟨n, hq, hsize⟩ := h.data
  cases ho : o.data with
  | none => simp only [combine, Operand.mapValues, Operand.values, hq, ho]; rfl
  | some ys =>
    have hsame : (Array.replicate n x).size = ys.size := by
      rw [Array.size_replicate, hsize ys ho]
    have hzip : (Array.replicate n x).zipWith op.apply ys = ys.map (op.apply x) :=
      Array.ext (by simp [hsize ys ho]) fun i _ _ => by simp
    rw [combine_tensors_eq_ok.2 ⟨_, ys, hq, ho, hsame, rfl⟩, h.dims, h.dataType, hzip]
    exact (Operand.mapValues_of_data ho _).symm

/-- And so is a value on the right. -/
theorem combine_constant_right :
    combine op (.tensor o) (.tensor q) = combine op (.tensor o) (.scalar x) := by
  obtain ⟨n, hq, hsize⟩ := h.data
  cases ho : o.data with
  | none => simp only [combine, Operand.mapValues, Operand.values, ho]; rfl
  | some xs =>
    have hsame : xs.size = (Array.replicate n x).size := by
      rw [Array.size_replicate, hsize xs ho]
    have hzip : xs.zipWith op.apply (Array.replicate n x) = xs.map (op.apply · x) :=
      Array.ext (by simp [hsize xs ho]) fun i _ _ => by simp
    rw [combine_tensors_eq_ok.2 ⟨xs, _, ho, hq, hsame, rfl⟩, hzip]
    exact (Operand.mapValues_of_data ho _).symm

end

/-- As soon as one side is a tensor, none is missing. -/
theorem combine_failure {op : BinaryOp} {a b : Source} (h : a.operand?.or b.operand? ≠ none)
    {e : KernelError} (he : combine op a b = .error e) : ¬e.LacksTensor := by
  have hvalues : ∀ {o : Operand}, o.values = .error e → ¬e.LacksTensor := fun he => by
    rw [Operand.values_failure he]
    rintro (h | h) <;> cases h
  have hmap : ∀ {o : Operand} {f : Single → Single}, o.mapValues f = .error e → ¬e.LacksTensor := by
    intro o f he
    obtain he | ⟨_, -, he⟩ := bind_eq_error.1 he
    · exact hvalues he
    · cases he
  cases a with
  | scalar x =>
    cases b with
    | scalar y => exact absurd rfl h
    | tensor right => exact hmap he
  | tensor left =>
    cases b with
    | scalar y => exact hmap he
    | tensor right =>
      obtain he | ⟨xs, -, he⟩ := bind_eq_error.1 he
      · exact hvalues he
      obtain he | ⟨ys, -, he⟩ := bind_eq_error.1 he
      · exact hvalues he
      obtain ⟨-, rfl⟩ | ⟨-, he⟩ := ite_throw_bind_eq_error.1 he
      · rintro (h | h) <;> cases h
      · cases he

variable (p : MathBinary) (os : List Operand)

theorem apply_unpaired : Avoids (¬·.Unpaired) (p.apply os) := by
  refine (resolve_unpaired p.left os).bind fun left _ => ?_
  refine (resolve_unpaired p.right left.2).bind fun right _ => ?_
  exact combine_unpaired p.op left.1 right.1

/-- The first operand is that of the first tensor side. -/
theorem head?_of_resolve {left right : Source × List Operand}
    (hleft : resolve p.left os = .ok left) (hright : resolve p.right left.2 = .ok right) :
    ∀ o ∈ left.1.operand?.or right.1.operand?, o ∈ os.head? := by
  intro o ho
  rw [resolve_operand? _ _ _ hleft, resolve_operand? _ _ _ hright]
  cases hsource : left.1.operand? with
  | some o' => simpa [hsource] using ho
  | none => simp_all

theorem apply_madeFrom : Ensures (fun t => ∃ o ∈ os.head?, t.MadeFrom o) (p.apply os) := by
  refine .bind fun left hleft => .bind fun right hright t ht => ?_
  obtain ⟨o, ho, hmade⟩ := combine_madeFrom p.op left.1 right.1 t ht
  exact ⟨o, head?_of_resolve p os hleft hright o ho, hmade⟩

theorem apply_writable (h : ∀ o ∈ os, o.Fits) : Ensures Tensor.Writable (p.apply os) := by
  refine .bind fun left hleft => .bind fun right hright => combine_writable p.op fun o ho => ?_
  exact h o (List.mem_of_mem_head? (head?_of_resolve p os hleft hright o ho))

end MathBinary
end Inference
