import Inference.Proofs.Layer.Exec
import Inference.Proofs.Operand.Form
/-! Values never decide on sizes: on tables that differ in the values of equally long buffers alone,
a layer fails with the same error or makes tensors of one shape and type. -/
namespace Inference

open Operand

/-- Images that differ in their values alone. -/
structure Image.SameForm (i j : Image) : Prop where
  height : i.height = j.height
  width : i.width = j.width
  channels : i.channels = j.channels
  dataType : i.dataType = j.dataType
  count : i.values.size = j.values.size

/-- Tensors that differ in their values alone. -/
structure Tensor.SameForm (t u : Tensor) : Prop where
  shape : t.shape = u.shape
  dataType : t.dataType = u.dataType
  count : t.values.size = u.values.size

theorem Concur.lift {α β : Type} {R : α → β → Prop} {x : Except Fault α} {y : Except Fault β}
    (h : Parallel R x y) :
    Parallel R (x.mapError KernelError.fault) (y.mapError KernelError.fault) :=
  h.mapError fun _ _ => congrArg _

/-- Whether a position has a value depends on the number of values alone. -/
theorem Checked.read_parallel {α : Type} {xs ys : Array α} (h : xs.size = ys.size) (i : Nat) :
    Parallel (fun _ _ => True) (Checked.read xs i) (Checked.read ys i) := by
  unfold Checked.read
  by_cases hi : i < xs.size
  · simp only [Array.getElem?_eq_getElem hi, Array.getElem?_eq_getElem (h ▸ hi)]
    exact .ok trivial
  · simp only [Array.getElem?_eq_none (Nat.not_lt.1 hi),
      Array.getElem?_eq_none (Nat.not_lt.1 (h ▸ hi))]
    exact .error rfl

theorem Checked.write_parallel {α : Type} {xs ys : Array α} (h : xs.size = ys.size) (i : Nat)
    (x y : α) :
    Parallel (fun xs ys => xs.size = ys.size) (Checked.write xs i x) (Checked.write ys i y) := by
  unfold Checked.write
  by_cases hi : i < xs.size
  · simp only [dif_pos hi, dif_pos (h ▸ hi : i < ys.size)]
    exact .ok (by simpa using h)
  · simp only [dif_neg hi, dif_neg (h ▸ hi : ¬i < ys.size)]
    exact .error rfl

theorem tabulate_parallel {height width channels : Nat}
    {f g : Nat → Nat → Nat → Except Fault Single}
    (h : ∀ y x channel, Parallel (fun _ _ => True) (f y x channel) (g y x channel)) :
    Parallel (fun xs ys => xs.size = ys.size) (tabulate height width channels f)
      (tabulate height width channels g) := by
  refine .fork fun count => .fork fun _ => ?_
  rw [Array.mapM_eq_mapM_toList, Array.mapM_eq_mapM_toList]
  refine (Concur.mapM (List.forall₂_same.2 fun i _ =>
    h (i / channels / width) (i / channels % width) (i % channels))).map fun xs ys hall => ?_
  rw [List.size_toArray, List.size_toArray, hall.length_eq]

theorem Image.SameForm.read {i j : Image} (h : i.SameForm j) (row column channel : Nat) :
    Parallel (fun _ _ => True) (i.read row column channel) (j.read row column channel) := by
  unfold Image.read Image.position
  rw [h.width, h.channels]
  exact Checked.read_parallel h.count _

namespace Operand.SameForm

variable {o p : Operand}

theorem values (h : SameForm o p) :
    Parallel (fun xs ys => xs.size = ys.size) o.values p.values := by
  have hcount := h.count
  unfold Operand.values
  rw [h.name]
  cases ho : o.data with
  | none =>
    cases hp : p.data with
    | none => exact .error rfl
    | some ys => simp [ho, hp] at hcount
  | some xs =>
    cases hp : p.data with
    | none => simp [ho, hp] at hcount
    | some ys => exact .ok (by simpa [ho, hp] using hcount)

theorem mapValues (h : SameForm o p) (f g : Single → Single) :
    Parallel Tensor.SameForm (o.mapValues f) (p.mapValues g) := by
  refine h.values.bind fun xs ys hsize => .ok ⟨?_, h.dataType, ?_⟩
  · rw [h.dims]
  · simpa using hsize

theorem image (h : SameForm o p) : Parallel Image.SameForm o.image p.image := by
  unfold Operand.image
  rw [h.dims, h.name]
  refine .check (h.values.bind fun xs ys hsize => .fork fun needed => ?_)
  rw [hsize]
  exact .check (.ok ⟨rfl, rfl, rfl, h.dataType, hsize⟩)

end Operand.SameForm

section

variable {i j : Image}

theorem Conv2d.addTap_parallel (p : Conv2d) (h : i.SameForm j) (filter ky kx row column : Nat)
    (x y : Single) :
    Parallel (fun _ _ => True) (p.addTap i filter ky kx row column x)
      (p.addTap j filter ky kx row column y) :=
  .foldlM trivial fun _ _ _ channel _ =>
    (h.read row column channel).bind fun _ _ _ => .fork fun _ => .ok trivial

theorem Conv2d.value_parallel (p : Conv2d) (h : i.SameForm j) (y x filter : Nat) :
    Parallel (fun _ _ => True) (p.value i y x filter) (p.value j y x filter) := by
  unfold Conv2d.value
  rw [h.height, h.width]
  refine .fork fun bias => Concur.bind (R := fun _ _ => True) ?_ fun _ _ _ => .ok trivial
  refine .foldlM trivial fun _ _ _ ky _ => .fork fun row => ?_
  refine .foldlM trivial fun _ _ _ kx _ => .fork fun column => ?_
  cases row with
  | none => exact .ok trivial
  | some row => cases column with
    | none => exact .ok trivial
    | some column => exact p.addTap_parallel h filter ky kx row column _ _

theorem Conv2d.placeRow_parallel (p : Conv2d) (h : i.SameForm j) (margin width row : Nat)
    {xs ys : Array Single} (hsize : xs.size = ys.size) :
    Parallel (fun xs ys => xs.size = ys.size) (p.placeRow i margin width row xs)
      (p.placeRow j margin width row ys) := by
  refine .foldlM hsize fun xs ys hsize x _ => .foldlM hsize fun xs ys hsize filter _ => ?_
  exact (p.value_parallel h _ _ _).bind fun a b _ => Checked.write_parallel hsize _ a b

theorem Conv2d.apply_parallel (p : Conv2d) (h : i.SameForm j) :
    Parallel Tensor.SameForm (p.apply i) (p.apply j) := by
  unfold Conv2d.apply Conv2d.checkLines
  rw [h.height, h.width, h.channels, h.dataType]
  refine .check (.fork fun margin => .fork fun border => .check (.fork fun rowLength => ?_))
  refine .check (.fork fun _ => ?_)
  have hrows : ∀ height width order, Parallel (fun xs ys => xs.size = ys.size)
      (p.placeRows i margin height width order) (p.placeRows j margin height width order) := by
    intro height width order
    refine .fork fun count => .fork fun _ => .foldlM rfl fun xs ys hsize row _ => ?_
    exact p.placeRow_parallel h margin width row hsize
  exact (hrows _ _ _).lift.bind fun xs ys hsize => .ok ⟨rfl, rfl, hsize⟩

theorem Dense.value_parallel (p : Dense) (h : i.SameForm j) (y x filter : Nat) :
    Parallel (fun _ _ => True) (p.value i y x filter) (p.value j y x filter) := by
  refine .fork fun bias => Concur.bind (R := fun _ _ => True) ?_ fun _ _ _ => .ok trivial
  refine .foldlM trivial fun _ _ _ channel _ => ?_
  exact (h.read y x channel).bind fun _ _ _ => .fork fun _ => .ok trivial

theorem Dense.apply_parallel (p : Dense) (h : i.SameForm j) :
    Parallel Tensor.SameForm (p.apply i) (p.apply j) := by
  unfold Dense.apply
  rw [h.height, h.width, h.channels, h.dataType]
  refine .check (.fork fun _ => .fork fun filters => ?_)
  exact (tabulate_parallel (p.value_parallel h)).lift.bind fun xs ys hsize => .ok ⟨rfl, rfl, hsize⟩

theorem DepthToSpace.placeTile_parallel (block depth : Nat) (h : i.SameForm j) (y x : Nat)
    {xs ys : Array Single} (hsize : xs.size = ys.size) :
    Parallel (fun xs ys => xs.size = ys.size) (placeTile block depth i y x xs)
      (placeTile block depth j y x ys) := by
  unfold placeTile
  rw [h.width]
  refine .foldlM hsize fun xs ys hsize ty _ => ?_
  refine .foldlM hsize fun xs ys hsize tx _ => ?_
  refine .foldlM hsize fun xs ys hsize channel _ => ?_
  exact (h.read y x _).bind fun a b _ => Checked.write_parallel hsize _ a b

theorem DepthToSpace.placeTiles_parallel (block depth : Nat) (h : i.SameForm j) :
    Parallel (fun xs ys => xs.size = ys.size) (placeTiles block depth i)
      (placeTiles block depth j) := by
  unfold placeTiles
  rw [h.height, h.width, h.count]
  refine .foldlM rfl fun xs ys hsize y _ => .foldlM hsize fun xs ys hsize x _ => ?_
  exact placeTile_parallel block depth h y x hsize

theorem DepthToSpace.apply_parallel (block : Nat) (h : i.SameForm j) :
    Parallel Tensor.SameForm (apply block i) (apply block j) := by
  unfold apply
  rw [h.height, h.width, h.channels, h.dataType]
  refine .fork fun area => .fork fun excess => .check ?_
  refine .fork fun height => .fork fun width => ?_
  exact (placeTiles_parallel block _ h).lift.bind fun xs ys hsize => .ok ⟨rfl, rfl, hsize⟩

theorem MirrorPad.value_parallel (p : MirrorPad) (h : i.SameForm j) (y x channel : Nat) :
    Parallel (fun _ _ => True) (p.value i y x channel) (p.value j y x channel) := by
  unfold MirrorPad.value
  rw [h.height, h.width, h.channels]
  refine .fork fun row => .fork fun column => .fork fun channel => ?_
  split
  · exact h.read _ _ _
  · exact .ok trivial

theorem MirrorPad.apply_parallel (p : MirrorPad) (h : i.SameForm j) :
    Parallel Tensor.SameForm (p.apply i) (p.apply j) := by
  unfold MirrorPad.apply
  rw [h.height, h.width, h.channels, h.dataType]
  refine .fork fun _ => .fork fun _ => .fork fun _ => ?_
  refine .fork fun height => .fork fun width => .fork fun channels => .fork fun _ => ?_
  exact (tabulate_parallel (p.value_parallel h)).lift.bind fun xs ys hsize => .ok ⟨rfl, rfl, hsize⟩

theorem AvgPool.mean_parallel (h : i.SameForm j) (rows columns : List Nat) (channel : Nat) :
    Parallel (fun _ _ => True) (mean i rows columns channel) (mean j rows columns channel) := by
  unfold mean
  dsimp only
  split
  · exact .ok trivial
  · refine Concur.bind (R := fun _ _ => True) ?_ fun _ _ _ => .ok trivial
    refine .foldlM trivial fun _ _ _ row _ => .foldlM trivial fun _ _ _ column _ => ?_
    exact (h.read row column channel).bind fun _ _ _ => .ok trivial

theorem AvgPool.means_parallel (p : AvgPool) (h : i.SameForm j) (above before : Nat) :
    Parallel (fun xs ys => xs.size = ys.size) (p.means i above before) (p.means j above before) := by
  unfold means
  rw [h.height, h.width, h.channels]
  refine .foldlM rfl fun xs ys hsize y _ => .foldlM hsize fun xs ys hsize x _ => ?_
  refine .foldlM hsize fun xs ys hsize channel _ => .fork fun rows => .fork fun columns => ?_
  exact (mean_parallel h rows columns channel).bind fun a b _ => .ok (by simpa using hsize)

theorem AvgPool.apply_parallel (p : AvgPool) (h : i.SameForm j) :
    Parallel Tensor.SameForm (p.apply i) (p.apply j) := by
  unfold AvgPool.apply
  rw [h.height, h.width, h.channels, h.dataType]
  refine .check (.fork fun above => .fork fun before => ?_)
  refine .fork fun height => .fork fun width => .fork fun count => .fork fun _ => ?_
  exact (p.means_parallel h above before).lift.bind fun xs ys hsize => .ok ⟨rfl, rfl, hsize⟩

end

namespace MathBinary

/-- Sources of one kind, with any values or operands of one form. -/
inductive Source.SameForm : Source → Source → Prop where
  | scalar (x y : Single) : Source.SameForm (.scalar x) (.scalar y)
  | tensor {o p : Operand} (h : o.SameForm p) : Source.SameForm (.tensor o) (.tensor p)

theorem resolve_parallel (side : BinarySide) {os ps : List Operand}
    (h : List.Forall₂ Operand.SameForm os ps) :
    Parallel (fun a b => Source.SameForm a.1 b.1 ∧ List.Forall₂ Operand.SameForm a.2 b.2)
      (resolve side os) (resolve side ps) := by
  cases side with
  | scalar x => exact .ok ⟨.scalar x x, h⟩
  | tensor =>
    cases h with
    | nil => exact .error rfl
    | cons hop h => exact .ok ⟨.tensor hop, h⟩

theorem combine_parallel (op : BinaryOp) {a a' b b' : Source} (ha : a.SameForm a')
    (hb : b.SameForm b') : Parallel Tensor.SameForm (combine op a b) (combine op a' b') := by
  cases ha with
  | scalar x y =>
    cases hb with
    | scalar => exact .error rfl
    | tensor h => exact h.mapValues _ _
  | tensor hl =>
    cases hb with
    | scalar => exact hl.mapValues _ _
    | tensor hr =>
      refine hl.values.bind fun xs xs' hxs => hr.values.bind fun ys ys' hys => ?_
      rw [hxs, hys, hl.dims, hl.dataType]
      exact .check (.ok ⟨rfl, rfl, by simp [hxs, hys]⟩)

theorem apply_parallel (p : MathBinary) {os ps : List Operand}
    (h : List.Forall₂ Operand.SameForm os ps) :
    Parallel Tensor.SameForm (p.apply os) (p.apply ps) := by
  refine (resolve_parallel p.left h).bind fun a a' ha => ?_
  refine (resolve_parallel p.right ha.2).bind fun b b' hb => ?_
  exact combine_parallel p.op ha.1 hb.1

end MathBinary

theorem Store.write_parallel {s s' : Store} (h : AllSameForm s.operands s'.operands) (i : Nat)
    {t u : Tensor} (ht : t.SameForm u) :
    (s.write i t).1 = (s'.write i u).1 ∧
      AllSameForm (s.write i t).2.operands (s'.write i u).2.operands := by
  have hw := s.writes i t
  have hsizes : t.shape.oversized? = u.shape.oversized? := by rw [ht.shape]
  have hlengths : t.shape.toDims.byteLength? = u.shape.toDims.byteLength? := by rw [ht.shape]
  generalize s.write i t = r at hw ⊢
  cases hw with
  | oversized hsize =>
    rw [(Writes.oversized (hsizes ▸ hsize)).eq]
    exact ⟨rfl, h⟩
  | missing hsize ho =>
    rw [(Writes.missing (hsizes ▸ hsize) (h.getElem?_none_iff.1 ho)).eq]
    exact ⟨rfl, h⟩
  | @overlong o hsize ho hlength =>
    obtain ⟨p, hp, hop⟩ := h.of_getElem?_some ho
    rw [(Writes.overlong (hsizes ▸ hsize) hp (hlengths ▸ hlength)).eq, ht.shape, ht.dataType]
    refine ⟨by rw [hop.name], h.set fun _ => ?_⟩
    exact hop.length ▸ hop.redescribe u.dataType u.shape.toDims o.length
  | @unfilled o length hsize ho hlength hfill =>
    obtain ⟨p, hp, hop⟩ := h.of_getElem?_some ho
    rw [(Writes.unfilled (hsizes ▸ hsize) hp (hlengths ▸ hlength) (ht.count ▸ hfill)).eq,
      ht.shape, ht.dataType, ht.count]
    exact ⟨by rw [hop.name], h.set fun _ => hop.redescribe u.dataType u.shape.toDims length⟩
  | held ho hwritable =>
    obtain ⟨p, hp, hop⟩ := h.of_getElem?_some ho
    have hwritable' : u.Writable :=
      ⟨hsizes ▸ hwritable.sizes, hlengths ▸ ht.count ▸ hwritable.length⟩
    rw [write_of_writable hp hwritable']
    unfold Operand.holding
    rw [ht.shape, ht.dataType, ht.count]
    refine ⟨rfl, h.set fun _ => ?_⟩
    exact (hop.redescribe u.dataType u.shape.toDims (4 * u.values.size)).refill ht.count

namespace Layer

variable {xs ys : Array Operand} (l : Layer)

theorem read_parallel (h : AllSameForm xs ys) (i : Nat) :
    Parallel SameForm (Checked.read xs i) (Checked.read ys i) := by
  have hi := h i
  unfold Checked.read
  generalize xs[i]? = x, ys[i]? = y at hi
  cases hi with
  | none => exact .error rfl
  | some hop => exact .ok hop

theorem operand_parallel (h : AllSameForm xs ys) :
    Parallel SameForm (l.operand xs) (l.operand ys) := by
  unfold Layer.operand
  cases l.inputs with
  | nil => exact .error rfl
  | cons i is => exact (read_parallel h i).lift

theorem image_parallel (h : AllSameForm xs ys) :
    Parallel Image.SameForm (l.image xs) (l.image ys) :=
  (l.operand_parallel h).bind fun _ _ hop => hop.image

theorem compute_parallel (h : AllSameForm xs ys) :
    Parallel Tensor.SameForm (l.compute xs) (l.compute ys) := by
  unfold Layer.compute
  rw [h.size_eq]
  cases l.strayIndex? ys.size with
  | some i => exact .error rfl
  | none =>
    cases l.params with
    | identity => exact (l.operand_parallel h).bind fun _ _ hop => hop.mapValues _ _
    | conv2d p => exact (l.image_parallel h).bind fun _ _ hij => p.apply_parallel hij
    | depthToSpace b =>
      exact (l.image_parallel h).bind fun _ _ hij => DepthToSpace.apply_parallel b hij
    | mirrorPad p =>
      exact .fork fun _ => (l.image_parallel h).bind fun _ _ hij => p.apply_parallel hij
    | maximum v => exact (l.operand_parallel h).bind fun _ _ hop => hop.mapValues _ _
    | mathBinary p =>
      have hread : ∀ i ∈ l.inputs, Parallel SameForm
          ((Checked.read xs i).mapError KernelError.fault)
          ((Checked.read ys i).mapError KernelError.fault) := fun i _ => (read_parallel h i).lift
      exact (Concur.mapM (List.forall₂_same.2 hread)).bind fun _ _ hos => p.apply_parallel hos
    | mathUnary op => exact (l.operand_parallel h).bind fun _ _ hop => hop.mapValues _ _
    | avgPool p => exact (l.image_parallel h).bind fun _ _ hij => p.apply_parallel hij
    | dense p => exact (l.image_parallel h).bind fun _ _ hij => p.apply_parallel hij

theorem exec_parallel {s s' : Store} (h : AllSameForm s.operands s'.operands) :
    (l.exec s).1 = (l.exec s').1 ∧ AllSameForm (l.exec s).2.operands (l.exec s').2.operands := by
  have hc := l.compute_parallel h
  rw [Layer.exec_eq, Layer.exec_eq]
  generalize l.compute s.operands = x, l.compute s'.operands = y at hc
  cases hc with
  | error he =>
    subst he
    exact ⟨rfl, h⟩
  | ok ht => exact Store.write_parallel h l.output ht

end Layer

end Inference
