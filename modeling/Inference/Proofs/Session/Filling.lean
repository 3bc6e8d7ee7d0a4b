import Inference.Session.Pass
/-! All that filling an input can come to: it is refused before anything is changed, it takes dims
that have no byte length, its frame cannot be loaded into the new buffer, or the buffer is filled. -/
namespace Inference.Model

/-- What is said and what is left of a store when an input was to be filled. -/
inductive Fills (m : Model) (plan : Plan) (frame : Option Frame) (s : Store) :
    Except Error Unit × Store → Prop
  | refused {e : Error} (hplace : m.placeInput s.operands plan.input frame = .error e) :
    Fills m plan frame s (.error e, s)
  | overlong {i : Nat} {o : Operand} {f : Frame} {dims : Dims}
      (hplace : m.placeInput s.operands plan.input frame = .ok (i, o, f, dims))
      (hlength : dims.byteLength? = none) :
    Fills m plan frame s (.error (.lengthOverflow o.name), s.set i { o with dims })
  | unloaded {i : Nat} {o : Operand} {f : Frame} {dims : Dims} {length : Nat} {e : FrameError}
      (hplace : m.placeInput s.operands plan.input frame = .ok (i, o, f, dims))
      (hlength : dims.byteLength? = some length) (hconverts : plan.converts = true)
      (hload : m.processor.load f f.height f.width dims.channels.toNatClampNeg o.dataType
        (Vector.replicate (length / 4) Single.zero) = .error e) :
    Fills m plan frame s (.error (.frame e),
      { s.set i { o with dims, length, data := some (.replicate (length / 4) .zero) } with
        ledger := s.ledger.replace o.data })
  | filled {i : Nat} {o : Operand} {f : Frame} {dims : Dims} {length : Nat} {values : Array Single}
      (hplace : m.placeInput s.operands plan.input frame = .ok (i, o, f, dims))
      (hlength : dims.byteLength? = some length) (hsize : values.size = length / 4) :
    Fills m plan frame s (.ok (),
      { s.set i { o with dims, length, data := some values } with
        ledger := s.ledger.replace o.data })

/-- One of these is what filling comes to, so that what holds of each holds of it. -/
theorem fills (m : Model) (plan : Plan) (frame : Option Frame) (s : Store) :
    m.Fills plan frame s (m.fill plan frame s) := by
  unfold fill
  rcases hplace : m.placeInput s.operands plan.input frame with e | ⟨i, o, f, dims⟩
  · exact .refused hplace
  · simp only [Operand.resize]
    cases hlength : dims.byteLength? with
    | none => exact .overlong (o := o) hplace hlength
    | some length =>
      simp only [Operand.allocZeroed]
      cases hconverts : plan.converts with
      | false => exact .filled (o := o) hplace hlength Array.size_replicate
      | true =>
        simp only [if_true]
        split
        next e hload => exact .unloaded (o := o) hplace hlength hconverts hload
        next tensor _ =>
          have hfilled : m.Fills plan frame s _ :=
            .filled (o := o) hplace hlength tensor.size_toArray
          simpa only [Store.set, Array.setIfInBounds_setIfInBounds] using hfilled

/-- Dims with a byte length are all that it takes, and a frame that can be loaded where it is to be. -/
theorem fill_ok {m : Model} {plan : Plan} {f : Frame} {s : Store} {i length : Nat} {o : Operand}
    {dims : Dims}
    (hplace : m.placeInput s.operands plan.input (some f) = .ok (i, o, f, dims))
    (hlength : dims.byteLength? = some length)
    (hload : plan.converts = true → ∃ tensor, m.processor.load f f.height f.width
      dims.channels.toNatClampNeg o.dataType (Vector.replicate (length / 4) .zero) = .ok tensor) :
    (m.fill plan (some f) s).1 = .ok () := by
  simp only [fill, hplace, Operand.resize, hlength, Operand.allocZeroed]
  cases hconverts : plan.converts with
  | false => rfl
  | true =>
    obtain ⟨tensor, htensor⟩ := hload hconverts
    simp only [if_true, htensor]

end Inference.Model
