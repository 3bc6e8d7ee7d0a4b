import Inference.Proofs.Layer.Alike
import Inference.Proofs.Layer.Faultless
import Inference.Proofs.Layer.Image
/-! What a layer that succeeds has done, of whatever kind it is: it has made one operand hold a whole
new tensor, of the data type of what it read, and nothing but what it read decides on that tensor. -/
namespace Inference

namespace Layer

variable {l : Layer} {xs : Array Operand}

/-- The first of all input operands is the one that other layers read. -/
theorem operand_of_inputs {os : List Operand} {o : Operand}
    (hos : (l.inputs.mapM fun i => (Checked.read xs i).mapError KernelError.fault) = .ok os)
    (ho : o ∈ os.head?) : l.operand xs = .ok o := by
  unfold operand
  cases hinputs : l.inputs with
  | nil =>
    rw [hinputs] at hos
    cases hos
    cases ho
  | cons i is =>
    rw [hinputs, List.mapM_cons] at hos
    obtain ⟨first, hfirst, hos⟩ := bind_eq_ok.1 hos
    obtain ⟨rest, -, hos⟩ := bind_eq_ok.1 hos
    cases hos
    cases ho
    exact hfirst

/-- Data type and batch are those of the first operand that the layer reads. -/
theorem compute_madeFrom :
    Ensures (fun t => ∃ o, l.operand xs = .ok o ∧ t.MadeFrom o) (l.compute xs) := by
  have hmap : ∀ f : Single → Single, Ensures (fun t => ∃ o, l.operand xs = .ok o ∧ t.MadeFrom o)
      (l.operand xs >>= fun o => o.mapValues f) :=
    fun f => .bind fun o ho t ht => ⟨o, ho, o.mapValues_madeFrom f t ht⟩
  have himage : ∀ run : Image → Except KernelError Tensor, (∀ i, Ensures (·.OneImage i) (run i)) →
      Ensures (fun t => ∃ o, l.operand xs = .ok o ∧ t.MadeFrom o) (l.image xs >>= run) := by
    refine fun run hrun => .bind fun i hi t ht => ?_
    obtain ⟨o, ho, hi⟩ := bind_eq_ok.1 hi
    obtain ⟨hdata, htype, hbatch⟩ := o.image_source i hi
    have hone := hrun i t ht
    refine ⟨o, ho, hdata, ?_, hone.dataType.trans htype⟩
    rw [hone.batch, hbatch]
    rfl
  unfold compute
  cases l.strayIndex? xs.size with
  | some i => exact .error _
  | none =>
    cases l.params with
    | identity => exact hmap id
    | conv2d p => exact himage _ p.apply_oneImage
    | depthToSpace b => exact himage _ (DepthToSpace.apply_oneImage b)
    | mirrorPad p => exact .bind fun _ _ => himage _ p.apply_oneImage
    | maximum v => exact hmap _
    | mathBinary p =>
      refine .bind fun os hos t ht => ?_
      obtain ⟨o, ho, hmade⟩ := p.apply_madeFrom os t ht
      exact ⟨o, operand_of_inputs hos ho, hmade⟩
    | mathUnary op => exact hmap _
    | avgPool p => exact himage _ p.apply_oneImage
    | dense p => exact himage _ p.apply_oneImage

end Layer

/-- Another operand in place of one: a whole tensor of a data type, whose values fill its dims, under
the old name, kind and layout. -/
structure Operand.Rewritten (dataType : DataType) (o p : Operand) : Prop where
  name : p.name = o.name
  kind : p.kind = o.kind
  nhwc : p.nhwc = o.nhwc
  dataType : p.dataType = dataType
  positive : p.dims.Positive
  length : p.length = 4 * p.dims.volume
  bytes : p.length ≤ 2147483647
  data : ∃ values, p.data = some values ∧ values.size = p.dims.volume

theorem Tensor.Writable.rewritten {t : Tensor} (h : t.Writable) (o : Operand) :
    o.Rewritten t.dataType (o.holding t) := by
  obtain ⟨hpos, hle, hvolume⟩ := Dims.byteLength?_eq_some.1 h.length
  have hsize : t.values.size = t.shape.toDims.volume := Nat.eq_of_mul_eq_mul_left (by decide) hvolume
  exact ⟨rfl, rfl, rfl, rfl, hpos, hvolume, hvolume.trans_le hle, _, rfl, hsize⟩

namespace Layer

variable {l m : Layer} {s u : Store}

theorem operand_eq_ok {xs : Array Operand} {o : Operand} (h : l.operand xs = .ok o) :
    ∃ i ∈ l.inputs.head?, xs[i]? = some o := by
  unfold operand at h
  split at h
  next => cases h
  next i is hinputs =>
    refine ⟨i, by simp [hinputs], ?_⟩
    exact Checked.read_eq_ok.1 (lift_eq_ok.1 h)

/-- The layers have the same parameters and read the same tensors, wherever those are. -/
structure ReadsAlike (l m : Layer) (xs ys : Array Operand) : Prop where
  params : m.params = l.params
  inputs : List.Forall₂ (fun i j => ∃ o p, xs[i]? = some o ∧ ys[j]? = some p ∧ o.SameTensor p)
    l.inputs m.inputs
  output : m.output < ys.size

theorem ReadsAlike.compute_eq_ok {xs ys : Array Operand} (h : ReadsAlike l m xs ys) {t : Tensor}
    (ht : l.compute xs = .ok t) : m.compute ys = .ok t := by
  have hthere : List.Forall₂ (fun j i => j < ys.size ∧ i < xs.size) m.inputs l.inputs := by
    refine h.inputs.flip.imp fun j i => ?_
    rintro ⟨o, p, ho, hp, -⟩
    exact ⟨(Array.getElem?_eq_some_iff.1 hp).1, (Array.getElem?_eq_some_iff.1 ho).1⟩
  have hagree : InputsAgree l m xs ys := by
    refine h.inputs.imp fun i j => ?_
    rintro ⟨o, p, ho, hp, hsame⟩
    rw [ho, hp]
    exact .some (.same hsame)
  have hstray := strayIndex?_eq_none_iff.2 ⟨((List.forall₂_and_left _ _).1 hthere).1, h.output⟩
  exact (hagree.compute h.params.symm (compute_inRange ht) hstray).eq_ok_iff.1 ht

/-- What a layer that succeeds has done to the operands and to the count of buffers. -/
structure Fulfils (l : Layer) (s u : Store) : Prop where
  /-- The output operand is rewritten, in the data type of the first operand that is read, and no
  other one. -/
  operands : ∃ i ∈ l.inputs.head?, ∃ input o p, s.operands[i]? = some input ∧
    s.operands[l.output]? = some o ∧ o.Rewritten input.dataType p ∧
    u.operands = s.operands.setIfInBounds l.output p
  allocated : u.ledger.allocated = s.ledger.allocated + 1
  released : ∃ o, s.operands[l.output]? = some o ∧
    u.ledger.released = s.ledger.released + if o.data.isSome then 1 else 0

/-- Whatever layer succeeds on whatever operands has rewritten its output operand. The tensor in it
depends on the parameters and the tensors that were read: a layer that reads the same makes the same,
whichever operands it reads and writes, and a convolution does so in any order of its rows. -/
theorem exec_fulfils (h : (l.exec s).1 = .ok ()) :
    Fulfils l s (l.exec s).2 ∧
    (∀ m u, ReadsAlike l m s.operands u.operands → (m.exec u).1 = .ok () ∧
      ∃ o p, (l.exec s).2.operands[l.output]? = some o ∧
        (m.exec u).2.operands[m.output]? = some p ∧ o.SameTensor p) ∧
    ∀ (p : Conv2d) image order t, (∀ n, (order n).Perm (List.range n)) →
      (p.apply image order = .ok t ↔ p.apply image = .ok t) := by
  obtain ⟨t, o, hcompute, ho, ht, hexec⟩ := exec_eq_ok h
  refine ⟨?_, fun m u hsame => ?_, fun p image order t horder => ?_⟩
  · obtain ⟨input, hinput, hmade⟩ := compute_madeFrom t hcompute
    obtain ⟨i, hi, hat⟩ := operand_eq_ok hinput
    rw [hexec]
    refine ⟨⟨i, hi, input, o, _, hat, ho, hmade.dataType ▸ ht.rewritten o, rfl⟩, rfl, o, ho, ?_⟩
    cases o.data <;> rfl
  · have hcompute' := hsame.compute_eq_ok hcompute
    have hp := Array.getElem?_eq_getElem hsame.output
    have hlt := (Array.getElem?_eq_some_iff.1 ho).1
    rw [hexec, exec_eq, hcompute']
    simp only [Store.write_of_writable hp ht]
    exact ⟨trivial, _, _, Array.getElem?_setIfInBounds_self_of_lt hlt,
      Array.getElem?_setIfInBounds_self_of_lt hsame.output, rfl, rfl, rfl⟩
  · exact (p.apply_concordant image horder).eq_ok_iff

/-- A copy of an operand and the same copy in place. -/
theorem exec_copies : Fulfils ⟨.identity, [0], 1⟩ stripStore
      ((Layer.mk .identity [0] 1).exec stripStore).2 ∧
    ∃ o p, ((Layer.mk .identity [0] 1).exec stripStore).2.operands[1]? = some o ∧
      ((Layer.mk .identity [0] 0).exec stripStore).2.operands[0]? = some p ∧ o.SameTensor p := by
  have hok : ((Layer.mk .identity [0] 1).exec stripStore).1 = .ok () := by decide +kernel
  obtain ⟨hfulfils, hsame, -⟩ := exec_fulfils hok
  have hreads : ReadsAlike ⟨.identity, [0], 1⟩ ⟨.identity, [0], 0⟩ stripStore.operands
      stripStore.operands :=
    ⟨rfl, .cons ⟨_, _, rfl, rfl, rfl, rfl, rfl⟩ .nil, by decide⟩
  exact ⟨hfulfils, (hsame _ stripStore hreads).2⟩

end Layer

end Inference
