import Inference.Proofs.Layer.Image
/-! A dense layer does to the operands what a convolution with a kernel of one tap does. -/
namespace Inference.Layer

variable {d : Dense} {padding : Padding} {dilation : Nat} {s : Store} {inputs : List Nat}
  {output : Nat}

/-- Of a layer that succeeds only the tensor counts. -/
theorem exec_eq_of_compute {l l' : Layer} (houtput : l.output = l'.output)
    (h : ∀ t : Tensor, t.Writable → l.compute s.operands = .ok t → l'.compute s.operands = .ok t)
    (hok : (l.exec s).1 = .ok ()) : l'.exec s = l.exec s := by
  obtain ⟨t, o, hcompute, -, ht, -⟩ := exec_eq_ok hok
  rw [exec_eq, exec_eq, h t ht hcompute, hcompute, houtput]

theorem image_whole (l : Layer) (xs : Array Operand) :
    Ensures (fun i => i.Whole ∧ i.values.size < Checked.sizeLimit) (l.image xs) :=
  .bind fun o _ => o.image_whole

/-- The two layers look for the same operands and make their tensors of the same image. -/
theorem compute_dense_eq_ok_iff (hd : d.Shaped) {xs : Array Operand} {t : Tensor}
    (ht : t.Writable) : (Layer.mk (.dense d) inputs output).compute xs = .ok t ↔
      (Layer.mk (.conv2d (d.pointwise padding dilation)) inputs output).compute xs = .ok t := by
  unfold compute
  have hstray : (Layer.mk (.dense d) inputs output).strayIndex? xs.size =
      (Layer.mk (.conv2d (d.pointwise padding dilation)) inputs output).strayIndex? xs.size := rfl
  rw [hstray]
  cases (Layer.mk (.conv2d (d.pointwise padding dilation)) inputs output).strayIndex? xs.size with
  | some index => exact Iff.rfl
  | none =>
    refine bind_eq_ok.trans (Iff.trans (exists_congr fun i => and_congr_right fun hi => ?_)
      bind_eq_ok.symm)
    obtain ⟨hwhole, hcount⟩ := image_whole _ xs i hi
    exact Dense.apply_eq_ok_iff_pointwise hd hwhole hcount ht

/-- A dense layer succeeds just where the image of its input operand has the channels that it takes and
is small enough for its output. -/
theorem exec_dense_eq_ok_iff (hd : d.Shaped) :
    ((Layer.mk (.dense d) inputs output).exec s).1 = .ok () ↔
      (Layer.mk (.dense d) inputs output).strayIndex? s.operands.size = none ∧
        ∃ i, (Layer.mk (.dense d) inputs output).image s.operands = .ok i ∧ d.Accepts i := by
  constructor
  · intro hok
    obtain ⟨t, o, hcompute, -⟩ := exec_eq_ok hok
    have hstray := compute_inRange hcompute
    unfold compute at hcompute
    rw [hstray] at hcompute
    obtain ⟨i, hi, happly⟩ := bind_eq_ok.1 hcompute
    exact ⟨hstray, i, hi, Dense.accepts_of_apply happly⟩
  · rintro ⟨hstray, i, hi, haccepts⟩
    obtain ⟨hwhole, -⟩ := image_whole _ _ i hi
    have happly : d.apply i = .ok ((d.pointwise .same 1).result i) := Dense.apply_eq hd hwhole haccepts
    have hcompute : (Layer.mk (.dense d) inputs output).compute s.operands =
        .ok ((d.pointwise .same 1).result i) := by
      unfold compute
      rw [hstray]
      exact bind_eq_ok.2 ⟨i, hi, happly⟩
    obtain ⟨o, -, hexec⟩ := exec_of_writable hcompute (Dense.result_writable hwhole haccepts)
    rw [hexec]

/-- A dense layer and the convolution with one tap succeed on the same operands, and then they leave the
same ones. -/
theorem exec_pointwise (hd : d.Shaped) (padding : Padding) (dilation : Nat) (s : Store)
    (inputs : List Nat) (output : Nat) :
    (((Layer.mk (.dense d) inputs output).exec s).1 = .ok () ↔
      ((Layer.mk (.conv2d (d.pointwise padding dilation)) inputs output).exec s).1 = .ok ()) ∧
    (((Layer.mk (.dense d) inputs output).exec s).1 = .ok () →
      (Layer.mk (.dense d) inputs output).exec s =
        (Layer.mk (.conv2d (d.pointwise padding dilation)) inputs output).exec s) := by
  have hsame : ((Layer.mk (.dense d) inputs output).exec s).1 = .ok () →
      (Layer.mk (.conv2d (d.pointwise padding dilation)) inputs output).exec s =
        (Layer.mk (.dense d) inputs output).exec s :=
    exec_eq_of_compute rfl fun t ht => (compute_dense_eq_ok_iff hd ht).1
  have hsame' : ((Layer.mk (.conv2d (d.pointwise padding dilation)) inputs output).exec s).1 = .ok () →
      (Layer.mk (.dense d) inputs output).exec s =
        (Layer.mk (.conv2d (d.pointwise padding dilation)) inputs output).exec s :=
    exec_eq_of_compute rfl fun t ht => (compute_dense_eq_ok_iff hd ht).2
  refine ⟨⟨fun hok => ?_, fun hok => ?_⟩, fun hok => (hsame hok).symm⟩
  · rw [hsame hok, hok]
  · rw [hsame' hok, hok]

/-- Each pixel two times and three times. -/
def multiples : Dense where
  inputNum := 1
  outputNum := 2
  activation := .linear
  kernel := #[.ofNat 2, .ofNat 3]
  biases := none

theorem exec_multiples : ((Layer.mk (.dense multiples) [0] 1).exec stripStore).1 = .ok () ∧
    ((Layer.mk (.conv2d (multiples.pointwise .sameClampToEdge 7)) [0] 1).exec stripStore).1 = .ok () ∧
    (Layer.mk (.dense multiples) [0] 1).exec stripStore =
      (Layer.mk (.conv2d (multiples.pointwise .sameClampToEdge 7)) [0] 1).exec stripStore := by
  have hshaped : multiples.Shaped := ⟨by decide, by decide, rfl, nofun⟩
  have ho : stripStore.operands[0]? = some _ := rfl
  have hstrip : strip.Whole := ⟨by decide, by decide, by decide, rfl⟩
  have haccepts : multiples.Accepts strip := ⟨rfl, rfl⟩
  have hok := (exec_dense_eq_ok_iff hshaped).2 ⟨strayIndex?_single _ ho (by decide : 1 < 2), strip,
    image_single _ ho ⟨rfl, rfl, rfl⟩ hstrip (by decide), haccepts⟩
  obtain ⟨hiff, hsame⟩ := exec_pointwise hshaped .sameClampToEdge 7 stripStore [0] 1
  exact ⟨hok, hiff.1 hok, hsame hok⟩

end Inference.Layer
