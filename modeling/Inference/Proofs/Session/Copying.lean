import Inference.Proofs.Frame.RoundTrip
import Inference.Proofs.Layer.Copying
import Inference.Proofs.Session.Draining
import Inference.Proofs.Session.Naming
import Inference.Proofs.Session.Probing
/-! Models that copy. Whatever else a session was asked to do, a frame that goes through a chain of
copying layers comes back as it was. -/
namespace Inference

open Operand

namespace CopyChain

variable {layers : List Layer} {input output : Nat} {i : Image} {o : Operand} {s : Store}

/-- What a chain of copies finds at its start it leaves at its end, and wherever else it was. -/
theorem runLayers (h : CopyChain input layers output)
    (hinside : ∀ l ∈ layers, l.output < s.operands.size) (hshows : ImageAt s.operands input i)
    (hi : i.WellFormed) (index : Nat) : (Model.runLayers layers s index).1 = .ok () ∧
      ∀ k, ImageAt s.operands k i ∨ k = output →
        ImageAt (Model.runLayers layers s index).2.operands k i := by
  induction h generalizing s index with
  | nil input => exact ⟨rfl, fun k hk => hk.elim id (· ▸ hshows)⟩
  | @cons params input middle output layers hparams rest ih =>
    obtain ⟨hok, hshown⟩ := Layer.exec_copy hparams hshows hi (hinside _ (.head _))
    have hsize := ((Layer.mk params [input] middle).exec_frame s).size_eq
    simp only [Model.runLayers]
    generalize (Layer.mk params [input] middle).exec s = x at hok hshown hsize ⊢
    obtain ⟨_, t⟩ := x
    cases hok
    have hrest : ∀ l ∈ layers, l.output < t.operands.size :=
      fun l hl => hsize ▸ hinside l (.tail _ hl)
    obtain ⟨hok, hend⟩ := ih hrest (hshown middle (.inr rfl)) (index + 1)
    exact ⟨hok, fun k hk => hend k (hk.imp_left fun h => hshown k (.inl h))⟩

/-- A chain that finds nothing at its start changes nothing. -/
theorem runLayers_of_empty (h : CopyChain input layers output)
    (hinside : ∀ l ∈ layers, l.output < s.operands.size) (ho : s.operands[input]? = some o)
    (hdata : o.data = none) (index : Nat) : (Model.runLayers layers s index).2 = s := by
  cases h with
  | nil => rfl
  | cons hparams rest =>
    obtain ⟨e, he⟩ := Layer.compute_copy_of_empty hparams ho hdata (hinside _ (.head _))
    simp only [Model.runLayers, Layer.exec_refused he]

end CopyChain

/-- A model that processes frames in the plain way, by a chain of copies from an operand that takes
inputs to another one. -/
structure Model.Copies (m : Model) (source target : Nat) : Prop where
  purpose : m.purpose = .process
  processor : m.processor = .plain
  nonempty : m.graph.layers ≠ []
  chain : CopyChain source m.graph.layers target
  inside : ∀ l ∈ m.graph.layers, l.output < m.graph.operands.size
  input : ∃ o, m.graph.operands[source]? = some o ∧ o.kind = .input ∧ o.dataType = .float

/-- A request that sends a frame with the channels of the input through the chain, to be drawn in the
format that it has. The shares of 255 that its bytes stand for, if it has such, are rounded back to
the bytes. -/
structure Request.Copyable (r : Request) (m : Model) (source target : Nat) : Prop where
  input : findOperand? m.graph.operands r.input = some source
  output : ∃ name, r.outputs = [name] ∧ findOperand? m.graph.operands name = some target
  blank : ∃ blank, r.output = some blank ∧ blank.format = r.frame.format
  loadable : r.frame.Loadable
  channels : ∀ o ∈ m.graph.operands[source]?,
    r.frame.format.channels = o.dims.channels.toNatClampNeg
  round : r.frame.format.isFloat = false → ∀ b, (Single.ofByte b).toByte = b

namespace Model

variable {m : Model} {source target : Nat} {plan : Plan} {frame : Option Frame} {f : Frame}
  {frames : Frames} {r : Request} {s : Store} {xs : Array Operand}

/-- The input takes frames as it did at first. -/
def KeepsSource (m : Model) (source : Nat) (xs : Array Operand) : Prop :=
  ∀ o ∈ m.graph.operands[source]?, ∀ p ∈ xs[source]?,
    o.dataType = p.dataType ∧ o.dims.channels = p.dims.channels

section

variable (h : m.Copies source target)

include h

theorem Copies.outputs_lt (hkept : m.Kept s.operands) :
    ∀ l ∈ m.graph.layers, l.output < s.operands.size :=
  fun l hl => TableRel.size_eq hkept ▸ h.inside l hl

section

variable (hr : r.Copyable m source target) (hkept : m.Kept s.operands)
  (hsource : m.KeepsSource source s.operands)

include hr hkept hsource

/-- The frame goes to the start of the chain, with the dims of its image. -/
theorem Copies.placeInput : ∃ p, s.operands[source]? = some p ∧ p.dataType = .float ∧
    m.placeInput s.operands r.plan.input (some r.frame) =
      .ok (source, p, r.frame, r.frame.image.tensor.shape.toDims) := by
  obtain ⟨o, ho, hkind, htype⟩ := h.input
  obtain ⟨p, hp, hop⟩ := hkept.of_getElem?_some ho
  obtain ⟨hdata, hchannels⟩ := hsource o ho p hp
  have hi := hr.loadable.image_wellFormed.whole
  have hsame : Int32.ofNat r.frame.format.channels = p.dims.channels := by
    refine toNatClampNeg_inj (Shape.axis_pos hi.channels) ?_
    rw [← hchannels, ← hr.channels o ho]
    exact Shape.axis_eq hi.channels
  have hfillable : m.fillable s.operands r.input = .ok (source, p) :=
    fillable_eq_ok.2 ⟨h.nonempty, (hkept.findOperand?_eq _).trans hr.input, hp,
      hop.kind.symm.trans hkind, hdata.symm.trans htype, hsame ▸ Shape.axis_pos hi.channels⟩
  refine ⟨p, hp, hdata.symm.trans htype, placeInput_eq_ok.2 ⟨hfillable, rfl, ?_⟩⟩
  rw [frameDims_eq hi.height.2 hi.width.2, ← hsame]
  rfl

theorem Copies.fill : (m.fill r.plan (some r.frame) s).1 = .ok () ∧
    ImageAt (m.fill r.plan (some r.frame) s).2.operands source r.frame.image := by
  obtain ⟨p, hp, htype, hplace⟩ := h.placeInput hr hkept hsource
  have hi := hr.loadable.image_wellFormed
  have hcount : 4 * r.frame.image.values.size / 4 =
      r.frame.height * r.frame.width * r.frame.format.channels := by
    rw [Nat.mul_div_cancel_left _ (by decide), hi.count]
    rfl
  obtain ⟨tensor, hload, htensor⟩ := hr.loadable.load (Vector.replicate _ .zero) hcount
  have hprocessor : m.processor.load r.frame r.frame.height r.frame.width
      r.frame.image.tensor.shape.toDims.channels.toNatClampNeg p.dataType
      (Vector.replicate _ .zero) = .ok tensor := by
    rw [h.processor, ← hload]
    exact congrArg (r.frame.load _ _ · _) (Shape.axis_eq hi.whole.channels)
  obtain ⟨hok, hs⟩ := fill_loads hplace hi.writable.length rfl hprocessor
  have hlt : source < s.operands.size := (Array.getElem?_eq_some_iff.1 hp).1
  refine ⟨hok, ?_⟩
  unfold ImageAt
  rw [hs, Array.getElem?_setIfInBounds_self_of_lt hlt]
  exact ⟨_, rfl, rfl, htype, congrArg some htensor⟩

end

/-- What the chain leaves is drawn as the frame that was loaded. -/
theorem Copies.infer (hr : r.Copyable m source target) (hkept : m.Kept s.operands)
    (hshows : ImageAt s.operands source r.frame.image) :
    (m.infer r.plan r.frames s).1 = .ok () ∧
      (m.infer r.plan r.frames s).2.1 = ⟨some r.frame, some r.frame.trimmed⟩ := by
  have hi := hr.loadable.image_wellFormed
  obtain ⟨hok, hend⟩ := h.chain.runLayers (h.outputs_lt hkept) hshows hi 0
  obtain ⟨q, hq, hshown⟩ := hend target (.inr rfl)
  obtain ⟨name, houtputs, hname⟩ := hr.output
  obtain ⟨blank, hblank, hformat⟩ := hr.blank
  have hfind := find?_of_findOperand? ((hkept.runLayers.findOperand?_eq name).trans hname) hq
  have hconverts : r.plan.converts = true := rfl
  have houtput : r.frames.output = some blank := hblank
  have hdeliver := deliver_plain_eq h.purpose h.processor hconverts hfind hshown.data houtput
  rw [hshown.picture_eq hi.whole, hr.loadable.draw hformat hr.round] at hdeliver
  unfold Model.infer
  generalize runLayers m.graph.layers s = x at hok hdeliver ⊢
  obtain ⟨_, t⟩ := x
  cases hok
  have hplan : r.plan.outputs = [name] := houtputs
  simp only [hplan, deliverAll_singleton, hdeliver]
  exact ⟨trivial, rfl⟩

end

theorem KeepsSource.fill (h : m.KeepsSource source s.operands) :
    m.KeepsSource source (m.fill plan frame s).2.operands := by
  intro o ho q hq
  rcases m.fill_cases plan frame s with ⟨e, -, hs⟩ |
    ⟨i, p, p', -, hp, -, hs, -, htype, hchannels, -⟩
  · exact h o ho q (hs ▸ hq)
  · rw [hs, Array.getElem?_setIfInBounds] at hq
    split at hq
    next hi =>
      subst hi
      obtain ⟨hsame, hcount⟩ := h o ho p hp
      obtain ⟨-, ⟨⟩⟩ := Option.ite_none_right_eq_some.1 hq
      exact ⟨hsame.trans htype, hcount.trans hchannels⟩
    next => exact h o ho q hq

theorem KeepsSource.emptied (h : m.KeepsSource source xs) :
    m.KeepsSource source (emptied xs) := by
  intro o ho q hq
  rw [Inference.emptied, Array.getElem?_map] at hq
  obtain ⟨p, hp, rfl⟩ := Option.map_eq_some_iff.1 hq
  exact h o ho p hp

/-- The start of the chain holds nothing or an image. -/
def SourceImage (source : Nat) (xs : Array Operand) : Prop :=
  ∀ p ∈ xs[source]?, p.data = none ∨ ∃ i : Image, i.WellFormed ∧ p.Shows i

/-- Filling puts an image into one operand. -/
theorem fill_sourceImage (hempty : AllEmpty s.operands)
    (hok : (m.fill plan frame s).1 = .ok ()) :
    SourceImage source (m.fill plan frame s).2.operands := by
  intro q hq
  have hfit := (fill_fits hempty.fit hok).of_getElem? hq
  obtain ⟨i, o, f, dims, length, values, hplace, -, -, hs⟩ := fill_ok_values hok
  rw [hs, Array.getElem?_setIfInBounds] at hq
  split at hq
  next hi =>
    obtain ⟨-, ⟨⟩⟩ := Option.ite_none_right_eq_some.1 hq
    have hbatch := (frameDims_eq_ok (placeInput_eq_ok.1 hplace).2.2).1
    exact .inr (hfit.shows rfl hbatch)
  next => exact .inl (hempty q (Array.mem_of_getElem? hq))

section

variable (h : m.Copies source target)

include h

/-- Whatever the chain finds at its start, it leaves what it found. -/
theorem Copies.keepsSource (hkept : m.Kept s.operands) (hsource : m.KeepsSource source s.operands)
    (himage : SourceImage source s.operands) :
    m.KeepsSource source (runLayers m.graph.layers s).2.operands := by
  intro o ho q hq
  obtain ⟨p, hp, -⟩ := hkept.of_getElem?_some ho
  have hinside := h.outputs_lt hkept
  rcases himage p hp with hdata | ⟨i, hi, hshows⟩
  · rw [h.chain.runLayers_of_empty hinside hp hdata 0] at hq
    exact hsource o ho q hq
  · obtain ⟨-, hend⟩ := h.chain.runLayers hinside ⟨p, hp, hshows⟩ hi 0
    obtain ⟨q', hq', hshows'⟩ := hend source (.inl ⟨p, hp, hshows⟩)
    cases hq.symm.trans hq'
    obtain ⟨htype, hchannels⟩ := hsource o ho p hp
    rw [hshows'.dataType, hshows'.dims, ← hshows.dataType, ← hshows.dims]
    exact ⟨htype, hchannels⟩

theorem Copies.infer_keepsSource (hkept : m.Kept s.operands)
    (hsource : m.KeepsSource source s.operands) (himage : SourceImage source s.operands)
    (frames : Frames) : m.KeepsSource source (m.infer plan frames s).2.2.operands := by
  have hlayers := h.keepsSource hkept hsource himage
  unfold Model.infer
  generalize runLayers m.graph.layers s = x at hlayers ⊢
  rcases x with ⟨_ | _, t⟩ <;> exact hlayers

theorem Copies.serve_keepsSource (hkept : m.Kept s.operands) (hempty : AllEmpty s.operands)
    (hsource : m.KeepsSource source s.operands) (frames : Frames) :
    m.KeepsSource source (m.serve plan frames s).2.2.operands := by
  have hfilled := hkept.fill plan frames.input
  have hsame : m.KeepsSource source (m.fill plan frames.input s).2.operands := hsource.fill
  have himage : (m.fill plan frames.input s).1 = .ok () →
      SourceImage source (m.fill plan frames.input s).2.operands := fill_sourceImage hempty
  unfold Model.serve
  generalize m.fill plan frames.input s = x at hfilled hsame himage ⊢
  rcases x with ⟨_ | _, t⟩
  · exact hsame
  · exact h.infer_keepsSource hfilled hsame (himage rfl) frames

/-- Slots take frames as a fresh one does, filled ones hold the image of their frame, and a frame
that is sent through the chain comes back with its bytes. -/
def Copies.copying : Warrant m where
  Free xs := m.Kept xs ∧ AllEmpty xs ∧ m.KeepsSource source xs
  Filled r xs := m.Kept xs ∧ m.KeepsSource source xs ∧ SourceImage source xs ∧
    (r.Copyable m source target → ImageAt xs source r.frame.image)
  Served r ok frames := frames.input.isSome ∧ (r.Copyable m source target →
    ok = true ∧ frames = ⟨some r.frame, some r.frame.trimmed⟩)
  fresh := by
    have hsame : m.KeepsSource source m.graph.operands := by
      intro o ho p hp
      cases ho.symm.trans hp
      exact ⟨rfl, rfl⟩
    exact ⟨kept_fresh m, allEmpty_emptied _, hsame.emptied⟩
  again := fun ⟨hkept, _, hsource⟩ => ⟨hkept.descriptors, allEmpty_emptied _, hsource.emptied⟩
  fill_ok := fun ⟨hkept, hempty, hsource⟩ hok => ⟨hkept.fill _ _, hsource.fill,
    fill_sourceImage hempty hok, fun hr => (h.fill hr hkept hsource).2⟩
  fill_error := by
    intro r s e ⟨hkept, _, hsource⟩ he
    refine ⟨⟨(hkept.fill _ _).descriptors, allEmpty_emptied _, hsource.fill.emptied⟩, rfl,
      fun hr => ?_⟩
    cases he.symm.trans (h.fill hr hkept hsource).1
  infer := by
    intro r s ⟨hkept, hsource, himage, hcopy⟩
    refine ⟨⟨(hkept.infer _).descriptors, allEmpty_emptied _,
      (h.infer_keepsSource hkept hsource himage _).emptied⟩, (m.infer_stay _ _ _).input rfl,
      fun hr => ?_⟩
    obtain ⟨hok, hframes⟩ := h.infer hr hkept (hcopy hr)
    exact ⟨by rw [hok]; rfl, hframes⟩
  measure := by
    intro plan frame s ⟨hkept, hempty, hsource⟩
    rw [measure_operands]
    exact ⟨(hkept.serve _ _).descriptors, allEmpty_emptied _,
      (h.serve_keepsSource hkept hempty hsource _).emptied⟩
  input := And.left

end

end Model

namespace Session

variable {m : Model} {source target : Nat} {r : Request} {s : Session}

theorem checkRequest_of_copyable (hr : r.Copyable m source target) :
    checkRequest m r = .ok () := by
  obtain ⟨name, houtputs, -⟩ := hr.output
  obtain ⟨blank, hblank, -⟩ := hr.blank
  simp [checkRequest, houtputs, hblank]

/-- What a copying model has to show for a request. -/
def CopiesFrame (m : Model) (source target : Nat) (o : Outcome) (r : Request) : Prop :=
  r.Copyable m source target → o = .ready r.frame (some r.frame.trimmed)

section

variable (h : m.Copies source target)

include h

theorem copiesFrame_of_handsBack {o : Outcome} (hback : h.copying.HandsBack o r) :
    CopiesFrame m source target o r := by
  intro hr
  obtain ⟨ok, frames, ⟨-, hserved⟩, houtcome⟩ := hback
  obtain ⟨rfl, rfl⟩ := hserved hr
  exact (Except.ok.inj houtcome).symm

end

/-- A copying model gives frames back. A request that it can copy is accepted; whatever was done
before, in between and after, it is handed back ready, its input frame as it was and an output frame of
the same size and format that has the first bytes of the input frame, as many as its size asks for. And
handed back it is, from whatever state of the session, once all work is done. -/
theorem copied_frames_returned (h : m.Copies source target) :
    (∀ r : Request, r.Copyable m source target → checkRequest m r = .ok () ∧
      r.frame.byteLength = .ok r.frame.trimmed.data.size ∧
      r.frame.trimmed.data.toList <+: r.frame.data.toList) ∧
    (∀ commands, List.Forall₂ (CopiesFrame m source target)
      (handedBack (run m (start m) commands).1)
      ((accepted m commands).take (handedBack (run m (start m) commands).1).length)) ∧
    ∀ s r, Reachable m s → 0 < m.slots → r.Copyable m source target →
      let queued := (s.execute m r).2
      let drained := drain m queued.waiting.length (queued.runAll m).2
      (collect queued.tasks.length drained.2).1.getLast? =
        some (.ok (.ready r.frame (some r.frame.trimmed))) := by
  refine ⟨fun r hr => ⟨checkRequest_of_copyable hr, ?_, ?_⟩, fun commands => ?_,
    fun s r hs hslots hr => ?_⟩
  · rw [hr.loadable.byteLength]
    simp [Frame.trimmed, hr.loadable.data]
  · simp [Frame.trimmed, List.take_prefix]
  · obtain ⟨-, hall⟩ := (Tracked.start h.copying).run commands
    simp only [List.nil_append, List.drop_zero] at hall
    exact hall.imp fun o r hback => copiesFrame_of_handsBack h hback
  · obtain ⟨o, hlast, hback⟩ :=
      last_collected h.copying hs hslots (checkRequest_of_copyable hr)
    cases copiesFrame_of_handsBack h hback hr
    exact hlast

/-- One copy of each kind, one after the other. -/
def relay : Model :=
  .ofGraph {
    minorVersion := 0
    layers := [⟨.identity, [0], 1⟩, ⟨.depthToSpace 1, [1], 2⟩,
      ⟨.mirrorPad ⟨.reflect, ⟨0, 0⟩, ⟨0, 0⟩, ⟨0, 0⟩, ⟨0, 0⟩, .zero⟩, [2], 3⟩]
    operands := #[⟨"x", .input, .float, ⟨1, -1, -1, 1⟩, true, 0, none⟩,
      ⟨"a", .intermediate, .float, ⟨-1, -1, -1, -1⟩, true, 0, none⟩,
      ⟨"b", .intermediate, .float, ⟨-1, -1, -1, -1⟩, true, 0, none⟩,
      ⟨"y", .output, .float, ⟨-1, -1, -1, -1⟩, true, 0, none⟩] }
    .process {} .plain 1

/-- A NaN with a payload and a negative zero, and a byte too many. -/
def oddPixels : Frame := ⟨2, 1, .grayF32, #[1, 2, 0xc0, 0x7f, 0, 0, 0, 0x80, 9]⟩

def oddRequest : Request := ⟨"x", ["y"], oddPixels, some ⟨0, 0, .grayF32, #[]⟩⟩

theorem oddPixels_returned :
    relay.Copies 0 3 ∧ oddRequest.Copyable relay 0 3 ∧
      let queued := ((start relay).execute relay oddRequest).2
      let drained := drain relay queued.waiting.length (queued.runAll relay).2
      (collect queued.tasks.length drained.2).1.getLast? = some (.ok (.ready oddPixels
        (some ⟨2, 1, .grayF32, #[1, 2, 0xc0, 0x7f, 0, 0, 0, 0x80]⟩))) := by
  have hcopies : relay.Copies 0 3 := {
    purpose := rfl
    processor := rfl
    nonempty := by decide
    chain := .cons .identity (.cons .depthToSpace
      (.cons (.mirrorPad ⟨rfl, rfl, rfl, rfl⟩) (.nil 3)))
    inside := by decide
    input := ⟨_, rfl, rfl, rfl⟩ }
  have hodd : oddRequest.Copyable relay 0 3 := {
    input := by decide +kernel
    output := ⟨"y", rfl, by decide +kernel⟩
    blank := ⟨_, rfl, rfl⟩
    loadable := ⟨by decide, by decide, by decide, by decide⟩
    channels := by
      rintro o ⟨⟩
      rfl
    round := nofun }
  have htrimmed : oddRequest.frame.trimmed =
      ⟨2, 1, .grayF32, #[1, 2, 0xc0, 0x7f, 0, 0, 0, 0x80]⟩ := by decide
  obtain ⟨-, -, hlast⟩ := copied_frames_returned hcopies
  have hreturned := hlast (start relay) oddRequest ⟨[], rfl⟩ (Model.ofGraph_slots_pos ..) hodd
  rw [htrimmed] at hreturned
  exact ⟨hcopies, hodd, hreturned⟩

end Session
end Inference
