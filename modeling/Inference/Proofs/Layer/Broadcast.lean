import Inference.Proofs.Kernel.Elementwise
import Inference.Proofs.Layer.Image
import Inference.Proofs.ModelFile.LayerGrammar
/-! Binary layers from a model file: each side is a value or the operand that stands in its place in
the record, and a value does what an operand would do that has it everywhere. -/
namespace Inference

open ModelFile (Writer.nat Writer.payload Writer.side)

/-- A side of a binary layer as its record has it: a value, or the operand that it names. -/
inductive Term where
  | value (x : Single)
  | operand (index : Nat)

namespace Term

def side : Term → BinarySide
  | .value x => .scalar x
  | .operand _ => .tensor

/-- The operands that the side takes. -/
def inputs : Term → List Nat
  | .value _ => []
  | .operand i => [i]

/-- What the side stands for in a table. -/
def source? (xs : Array Operand) : Term → Option MathBinary.Source
  | .value x => some (.scalar x)
  | .operand i => xs[i]?.map .tensor

/-- What the record has for the side. -/
def bytes (yes : UInt32) : Term → List UInt8
  | .value x => LittleEndian.encode yes ++ LittleEndian.encode x.bits
  | .operand i => Writer.nat 0 ++ Writer.nat i

theorem writer_side (yes : UInt32) (t : Term) (others : List Nat) :
    Writer.side yes (t.inputs ++ others) t.side = (t.bytes yes, others) := by
  cases t with
  | value x => rfl
  | operand i => simp [Writer.side, inputs, side, bytes]

/-- A side with as many operands as it takes. -/
theorem exists_term {side : BinarySide} {is : List Nat} (h : is.length = side.arity) :
    ∃ t : Term, t.side = side ∧ t.inputs = is := by
  cases side with
  | scalar x =>
    obtain rfl := List.eq_nil_of_length_eq_zero h
    exact ⟨.value x, rfl, rfl⟩
  | tensor =>
    obtain ⟨i, rfl⟩ := List.length_eq_one_iff.1 h
    exact ⟨.operand i, rfl, rfl⟩

variable {t : Term} {a : MathBinary.Source} {xs : Array Operand}

theorem source?_operand {i : Nat} {o : Operand} (h : xs[i]? = some o) :
    (operand i).source? xs = some (.tensor o) := by
  rw [source?, h]
  rfl

theorem exists_source (h : ∀ i ∈ t.inputs, i < xs.size) : ∃ a, t.source? xs = some a := by
  cases t with
  | value x => exact ⟨_, rfl⟩
  | operand i =>
    have hi : i < xs.size := h i (List.mem_singleton_self i)
    exact ⟨_, source?_operand (Array.getElem?_eq_getElem hi)⟩

theorem inputs_lt (h : t.source? xs = some a) : ∀ i ∈ t.inputs, i < xs.size := by
  cases t with
  | value x => exact nofun
  | operand i =>
    obtain ⟨o, ho, -⟩ := Option.map_eq_some_iff.1 h
    simpa [inputs] using (Array.getElem?_eq_some_iff.1 ho).1

theorem source?_push (h : t.source? xs = some a) (q : Operand) :
    t.source? (xs.push q) = some a := by
  cases t with
  | value x => exact h
  | operand i =>
    have hi : i < xs.size := inputs_lt h i (List.mem_singleton_self i)
    rw [← h, source?, source?, Array.getElem?_push_lt hi, Array.getElem?_eq_getElem hi]

/-- The operands of a side are read and handed to it, and the others are left. -/
theorem mapM_read (h : t.source? xs = some a) :
    t.inputs.mapM (fun i => (Checked.read xs i).mapError KernelError.fault) =
      .ok a.operand?.toList := by
  cases t with
  | value x =>
    cases h
    rfl
  | operand i =>
    obtain ⟨o, ho, rfl⟩ := Option.map_eq_some_iff.1 h
    rw [inputs, List.mapM_cons, Checked.read_eq_ok.2 ho]
    rfl

theorem resolve (h : t.source? xs = some a) (others : List Operand) :
    MathBinary.resolve t.side (a.operand?.toList ++ others) = .ok (a, others) := by
  cases t with
  | value x =>
    cases h
    rfl
  | operand i =>
    obtain ⟨o, -, rfl⟩ := Option.map_eq_some_iff.1 h
    rfl

end Term

/-- The table with one more operand. -/
def Store.push (s : Store) (q : Operand) : Store := { s with operands := s.operands.push q }

theorem Store.write_push {s : Store} {i : Nat} (hi : i < s.operands.size) (t : Tensor) (q : Operand) :
    (s.push q).write i t = ((s.write i t).1, (s.write i t).2.push q) := by
  have hget : (s.push q).operands[i]? = s.operands[i]? := by
    rw [push, Array.getElem?_push_lt hi, Array.getElem?_eq_getElem hi]
  have hset : ∀ p, (s.push q).set i p = (s.set i p).push q := by
    intro p
    have hplaced : (s.operands.push q).setIfInBounds i p = (s.operands.setIfInBounds i p).push q := by
      refine Array.ext_getElem? fun n => ?_
      grind
    rw [set, push, hplaced]
    rfl
  have hw := s.writes i t
  generalize s.write i t = r at hw ⊢
  cases hw with
  | oversized hsize => exact (Writes.oversized hsize).eq
  | missing _ ho => cases (Array.getElem?_eq_getElem hi).symm.trans ho
  | overlong hsize ho hlength => rw [(Writes.overlong hsize (hget.trans ho) hlength).eq, hset]
  | unfilled hsize ho hlength hfill =>
    rw [(Writes.unfilled hsize (hget.trans ho) hlength hfill).eq, hset]
  | held ho ht =>
    rw [write_of_writable (hget.trans ho) ht, hset]
    rfl

theorem Store.write_failure {s : Store} {i : Nat} {t : Tensor} {e : KernelError}
    (h : (s.write i t).1 = .error e) : ¬e.LacksTensor := by
  have hw := s.writes i t
  generalize s.write i t = r at h hw
  cases hw with
  | held => cases h
  | _ =>
    cases h
    rintro (h | h) <;> cases h

namespace Layer

/-- A layer that puts two sides together. -/
def binary (op : BinaryOp) (left right : Term) (output : Nat) : Layer :=
  ⟨.mathBinary ⟨op, left.side, right.side⟩, left.inputs ++ right.inputs, output⟩

variable {op : BinaryOp} {left right : Term} {a b : MathBinary.Source} {output : Nat} {s : Store}

theorem payload_binary (yes : Nat → UInt32) : Writer.payload yes (binary op left right output) =
    Writer.nat op.code ++ left.bytes (yes 0) ++ right.bytes (yes 1) ++ Writer.nat output := by
  have hright := right.writer_side (yes 1) []
  rw [List.append_nil] at hright
  simp only [Writer.payload, binary, left.writer_side, hright]

theorem exists_binary {count : Nat} {l : Layer} (hl : l.WellFormed count)
    (hkind : l.kind = .mathBinary) : ∃ op left right, l = binary op left right l.output := by
  obtain ⟨params, inputs, output⟩ := l
  cases params with
  | mathBinary p =>
    have harity : inputs.length = p.left.arity + p.right.arity := hl.arity
    have hfirst : (inputs.take p.left.arity).length = p.left.arity := by
      rw [List.length_take]
      omega
    have hsecond : (inputs.drop p.left.arity).length = p.right.arity := by
      rw [List.length_drop]
      omega
    obtain ⟨left, hleft, htake⟩ := Term.exists_term hfirst
    obtain ⟨right, hright, hdrop⟩ := Term.exists_term hsecond
    refine ⟨p.op, left, right, ?_⟩
    rw [binary, hleft, hright, htake, hdrop, List.take_append_drop]
  | _ => cases hkind

theorem compute_binary {xs : Array Operand} (hleft : left.source? xs = some a)
    (hright : right.source? xs = some b) (hout : output < xs.size) :
    (binary op left right output).compute xs = MathBinary.combine op a b := by
  have hstray : (binary op left right output).strayIndex? xs.size = none :=
    strayIndex?_eq_none_iff.2
      ⟨List.forall_mem_append.2 ⟨Term.inputs_lt hleft, Term.inputs_lt hright⟩, hout⟩
  have hread : (left.inputs ++ right.inputs).mapM
      (fun i => (Checked.read xs i).mapError KernelError.fault) =
        .ok (a.operand?.toList ++ b.operand?.toList) := by
    rw [List.mapM_append, Term.mapM_read hleft, Term.mapM_read hright]
    rfl
  have hrest := Term.resolve hright []
  rw [List.append_nil] at hrest
  unfold compute
  rw [hstray]
  have happly : MathBinary.apply ⟨op, left.side, right.side⟩
      (a.operand?.toList ++ b.operand?.toList) = MathBinary.combine op a b := by
    unfold MathBinary.apply
    rw [Term.resolve hleft]
    exact congrArg (· >>= fun r => MathBinary.combine op a r.1) hrest
  exact (congrArg (· >>= MathBinary.apply ⟨op, left.side, right.side⟩) hread).trans happly

/-- Two tensors go together only if they have as many values, and the left one's shape and data type are
those of the result. -/
structure Pairs (op : BinaryOp) (o p : Operand) (r : Except KernelError Unit × Store) (output : Nat) :
    Prop where
  ok_iff : r.1 = .ok () ↔ ∃ xs ys, o.data = some xs ∧ p.data = some ys ∧ xs.size = ys.size ∧
    o.dims.byteLength? = some (4 * xs.size)
  result : r.1 = .ok () → ∃ xs ys q, o.data = some xs ∧ p.data = some ys ∧
    r.2.operands[output]? = some q ∧ q.dims = o.dims ∧ q.dataType = o.dataType ∧
    q.data = some (xs.zipWith op.apply ys)

/-- The layer does what another one does that reads an operand in place of a value `x`, be it an operand
of the table or one that is added to it. -/
structure Broadcasts (l : Layer) (replaced : Nat → Layer) (x : Single) (s : Store) (o : Operand) :
    Prop where
  present : ∀ k q, s.operands[k]? = some q → o.Constant x q → (replaced k).exec s = l.exec s
  added : ∀ q, o.Constant x q → (replaced s.operands.size).exec (s.push q) =
    ((l.exec s).1, (l.exec s).2.push q)

theorem tensor_writable {o : Operand} {dataType : DataType} {values : Array Single} :
    (Tensor.mk (.ofDims o.dims) dataType values).Writable ↔
      o.dims.byteLength? = some (4 * values.size) := by
  rw [← Shape.byteLength?_ofDims]
  exact ⟨fun h => h.length, fun h => ⟨Shape.oversized?_ofDims o.dims, h⟩⟩

theorem pairs_of_compute {l : Layer} {o p : Operand}
    (hcompute : l.compute s.operands = MathBinary.combine op (.tensor o) (.tensor p)) :
    Pairs op o p (l.exec s) l.output := by
  have hzip : ∀ {xs ys : Array Single}, xs.size = ys.size →
      (xs.zipWith op.apply ys).size = xs.size := fun h => by
    rw [Array.size_zipWith, ← h, Nat.min_self]
  constructor
  · constructor
    · intro hok
      obtain ⟨t, -, ht, -, hwritable, -⟩ := exec_eq_ok hok
      obtain ⟨xs, ys, hxs, hys, hsize, rfl⟩ :=
        MathBinary.combine_tensors_eq_ok.1 (hcompute.symm.trans ht)
      exact ⟨xs, ys, hxs, hys, hsize, hzip hsize ▸ tensor_writable.1 hwritable⟩
    · rintro ⟨xs, ys, hxs, hys, hsize, hlength⟩
      obtain ⟨_, -, hexec⟩ := exec_of_writable
        (hcompute.trans (MathBinary.combine_tensors_eq_ok.2 ⟨xs, ys, hxs, hys, hsize, rfl⟩))
        (tensor_writable.2 (by rw [hzip hsize]; exact hlength))
      rw [hexec]
  · intro hok
    obtain ⟨t, q, ht, hq, hwritable, hexec⟩ := exec_eq_ok hok
    obtain ⟨xs, ys, hxs, hys, -, rfl⟩ :=
      MathBinary.combine_tensors_eq_ok.1 (hcompute.symm.trans ht)
    have hlt := (Array.getElem?_eq_some_iff.1 hq).1
    have hpositive : o.dims.Positive := (Dims.byteLength?_eq_some.1 (tensor_writable.1 hwritable)).1
    rw [hexec]
    exact ⟨xs, ys, _, hxs, hys, Array.getElem?_setIfInBounds_self_of_lt hlt,
      Shape.toDims_ofDims hpositive, rfl, rfl⟩

/-- A layer has its sides in one way only. -/
theorem binary_inj {op' : BinaryOp} {left' right' : Term} {output' : Nat}
    (h : binary op left right output = binary op' left' right' output') :
    op = op' ∧ left = left' ∧ right = right' ∧ output = output' := by
  unfold binary at h
  cases left <;> cases left' <;> cases right <;> cases right' <;>
    simp_all [Term.side, Term.inputs]

section

variable (hleft : left.source? s.operands = some a) (hright : right.source? s.operands = some b)
  (hout : output < s.operands.size)

include hleft hright hout

/-- An operand that is added to the table makes no difference. -/
theorem exec_binary_push (q : Operand) : (binary op left right output).exec (s.push q) =
    (((binary op left right output).exec s).1, ((binary op left right output).exec s).2.push q) := by
  have hmore : output < (s.operands.push q).size := by
    rw [Array.size_push]
    exact Nat.lt_succ_of_lt hout
  have hpushed : (binary op left right output).compute (s.push q).operands = _ :=
    compute_binary (Term.source?_push hleft q) (Term.source?_push hright q) hmore
  rw [exec_eq, exec_eq, hpushed, compute_binary hleft hright hout]
  cases MathBinary.combine op a b with
  | error e => rfl
  | ok t => exact Store.write_push hout t q

/-- Sides that stand for other sources with the same result are as good. -/
theorem exec_binary_congr {left' right' : Term} {a' b' : MathBinary.Source}
    (hleft' : left'.source? s.operands = some a') (hright' : right'.source? s.operands = some b')
    (hsame : MathBinary.combine op a' b' = MathBinary.combine op a b) :
    (binary op left' right' output).exec s = (binary op left right output).exec s := by
  rw [exec_eq, exec_eq, compute_binary hleft hright hout, compute_binary hleft' hright' hout, hsame]
  rfl

/-- None of the failures is that a tensor is missing. -/
theorem exec_binary_failure (hsome : left.inputs ++ right.inputs ≠ []) {e : KernelError}
    (he : ((binary op left right output).exec s).1 = .error e) : ¬e.LacksTensor := by
  have hoperand : a.operand?.or b.operand? ≠ none := by
    cases left with
    | operand i =>
      obtain ⟨o, -, rfl⟩ := Option.map_eq_some_iff.1 hleft
      exact nofun
    | value x =>
      cases right with
      | operand i =>
        obtain ⟨o, -, rfl⟩ := Option.map_eq_some_iff.1 hright
        cases hleft
        exact nofun
      | value y => exact absurd rfl hsome
  rw [exec_eq, compute_binary hleft hright hout] at he
  cases hcombine : MathBinary.combine op a b with
  | error e' =>
    rw [hcombine] at he
    cases he
    exact MathBinary.combine_failure hoperand hcombine
  | ok t =>
    rw [hcombine] at he
    exact Store.write_failure he

end

section

variable {x : Single} {i : Nat} {o : Operand} (ho : s.operands[i]? = some o)
  (hout : output < s.operands.size)

include ho hout

/-- What holds for the operands of all tables holds for one that is added, too. -/
theorem broadcasts_of {l : Layer} {replaced : Nat → Layer}
    (hpresent : ∀ u : Store, u.operands[i]? = some o → output < u.operands.size → ∀ k q,
      u.operands[k]? = some q → o.Constant x q → (replaced k).exec u = l.exec u)
    (hpush : ∀ q, l.exec (s.push q) = ((l.exec s).1, (l.exec s).2.push q)) :
    Broadcasts l replaced x s o := by
  refine ⟨hpresent s ho hout, fun q hq => ?_⟩
  have hi : i < s.operands.size := (Array.getElem?_eq_some_iff.1 ho).1
  have hkept : (s.push q).operands[i]? = some o := by
    rw [← ho, Store.push, Array.getElem?_push_lt hi, Array.getElem?_eq_getElem hi]
  have hmore : output < (s.push q).operands.size := by
    rw [Store.push, Array.size_push]
    exact Nat.lt_succ_of_lt hout
  rw [hpresent (s.push q) hkept hmore _ q (by simp [Store.push]) hq, hpush]

theorem broadcasts_left : Broadcasts (binary op (.value x) (.operand i) output)
    (fun k => binary op (.operand k) (.operand i) output) x s o :=
  broadcasts_of ho hout
    (fun _ ho hout _ _ hq h => exec_binary_congr rfl (Term.source?_operand ho) hout
      (Term.source?_operand hq) (Term.source?_operand ho) (MathBinary.combine_constant_left h op))
    (exec_binary_push rfl (Term.source?_operand ho) hout)

theorem broadcasts_right : Broadcasts (binary op (.operand i) (.value x) output)
    (fun k => binary op (.operand i) (.operand k) output) x s o :=
  broadcasts_of ho hout
    (fun _ ho hout _ _ hq h => exec_binary_congr (Term.source?_operand ho) rfl hout
      (Term.source?_operand ho) (Term.source?_operand hq) (MathBinary.combine_constant_right h op))
    (exec_binary_push (Term.source?_operand ho) rfl hout)

end

/-- What a binary layer with these sides does to the operands: it does not miss a tensor, two operands go
together in the order of the sides, and a value on either side is as good as an operand that has the
dims and the data type of the other one and the value everywhere. -/
structure Binds (op : BinaryOp) (left right : Term) (output : Nat) (s : Store) : Prop where
  failure : ∀ e, ((binary op left right output).exec s).1 = .error e → ¬e.LacksTensor
  operands : ∀ i j, left = .operand i → right = .operand j → ∃ o p, s.operands[i]? = some o ∧
    s.operands[j]? = some p ∧ Pairs op o p ((binary op left right output).exec s) output
  valueLeft : ∀ x i, left = .value x → right = .operand i → ∃ o, s.operands[i]? = some o ∧
    Broadcasts (binary op left right output) (fun k => binary op (.operand k) right output) x s o
  valueRight : ∀ i x, left = .operand i → right = .value x → ∃ o, s.operands[i]? = some o ∧
    Broadcasts (binary op left right output) (fun k => binary op left (.operand k) output) x s o

theorem binds (hleft : ∀ i ∈ left.inputs, i < s.operands.size)
    (hright : ∀ i ∈ right.inputs, i < s.operands.size) (hout : output < s.operands.size)
    (hsome : left.inputs ++ right.inputs ≠ []) : Binds op left right output s := by
  obtain ⟨a, ha⟩ := Term.exists_source hleft
  obtain ⟨b, hb⟩ := Term.exists_source hright
  refine ⟨fun e => exec_binary_failure ha hb hout hsome, ?_, ?_, ?_⟩
  · rintro i j rfl rfl
    obtain ⟨o, ho, rfl⟩ := Option.map_eq_some_iff.1 ha
    obtain ⟨p, hp, rfl⟩ := Option.map_eq_some_iff.1 hb
    exact ⟨o, p, ho, hp, pairs_of_compute (compute_binary ha hb hout)⟩
  · rintro x i rfl rfl
    obtain ⟨o, ho, -⟩ := Option.map_eq_some_iff.1 hb
    exact ⟨o, ho, broadcasts_left ho hout⟩
  · rintro i x rfl rfl
    obtain ⟨o, ho, -⟩ := Option.map_eq_some_iff.1 ha
    exact ⟨o, ho, broadcasts_right ho hout⟩

/-- A binary layer that was read from a file has the sides that stand in its record, the left one first,
and it binds them in every table that is large enough. -/
theorem mathBinary_binds {count : Nat} {bytes rest : List UInt8} {l : Layer}
    (h : Reader.mathBinary count bytes = .ok (l, rest)) :
    ∃ op left right output, l = binary op left right output ∧ left.inputs ++ right.inputs ≠ [] ∧
      (∃ yes yes' : UInt32, yes ≠ 0 ∧ yes' ≠ 0 ∧ bytes = Writer.nat op.code ++ left.bytes yes ++
        right.bytes yes' ++ Writer.nat output ++ rest) ∧
      ∀ s : Store, count ≤ s.operands.size → Binds op left right output s := by
  obtain ⟨taken, hbytes, hkind, hl, -, yes, hyes, htaken⟩ := Reader.mathBinary_takes bytes l rest h
  obtain ⟨op, left, right, hbinary⟩ := exists_binary hl hkind
  have hsome : left.inputs ++ right.inputs ≠ [] := by
    have hinputs := hl.someInput
    rw [hbinary] at hinputs
    exact hinputs
  have hin : ∀ i ∈ left.inputs ++ right.inputs, i < count := by
    have hinputs := hl.inputs
    rw [hbinary] at hinputs
    exact hinputs
  obtain ⟨hleft, hright⟩ := List.forall_mem_append.1 hin
  refine ⟨op, left, right, l.output, hbinary, hsome, ⟨yes 0, yes 1, hyes 0, hyes 1, ?_⟩, ?_⟩
  · rw [hbytes, htaken, hbinary, payload_binary]
    rfl
  · intro s hs
    exact binds (fun i hi => Nat.lt_of_lt_of_le (hleft i hi) hs)
      (fun i hi => Nat.lt_of_lt_of_le (hright i hi) hs) (Nat.lt_of_lt_of_le hl.output hs) hsome

/-- Two less the first operand, into the second one. -/
def complement : Layer := binary .sub (.value (.ofNat 2)) (.operand 0) 1

theorem complement_binds : Binds .sub (.value (.ofNat 2)) (.operand 0) 1 stripStore := by
  have hread : Reader.mathBinary 2 (Writer.payload (fun _ => 1) complement) = .ok (complement, []) := by
    rfl
  obtain ⟨op, left, right, output, hsides, -, -, hbinds⟩ := mathBinary_binds hread
  obtain ⟨rfl, rfl, rfl, rfl⟩ := binary_inj hsides
  exact hbinds stripStore (by decide)

end Layer
end Inference
