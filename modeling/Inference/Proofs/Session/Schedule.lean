import Inference.Proofs.Session.Run
import Inference.Proofs.Session.Serve
/-! What becomes of a request shows nothing of the others, of the slots or of the order of the calls,
as long as no layer writes into an operand that takes inputs. -/
namespace Inference

open Operand

namespace Model

variable {m : Model} {s : Store} {r : Request} {xs : Array Operand}

/-- The operands of a slot before its first inference. -/
def freshStore (m : Model) : Store := { operands := (Slot.fresh m.graph.operands).operands }

/-- The same model with requests served where they are submitted. -/
def sync (m : Model) : Model := { m with options := { m.options with async := false } }

/-- What becomes of the only request of a freshly loaded model. -/
def alone (m : Model) (r : Request) : Except Error Outcome :=
  ((Session.start m.sync).execute m.sync r).2.getResult.1

/-- What hands the outputs over is the purpose and one half of the frame processor. -/
theorem deliverAll_congr {m' : Model} (hpurpose : m'.purpose = m.purpose)
    (hstore : m'.processor.store = m.processor.store) (plan : Plan) (xs : Array Operand)
    (names : List String) (frames : Frames) :
    m'.deliverAll plan xs names frames = m.deliverAll plan xs names frames := by
  induction names generalizing frames with
  | nil => rfl
  | cons name names ih =>
    have hfirst : m'.deliver plan xs name frames = m.deliver plan xs name frames := by
      simp only [deliver, resultFrame, withResultFrame, hpurpose, hstore]
    simp only [deliverAll, hfirst, ih]

theorem infer_congr (m m' : Model) (hgraph : m'.graph = m.graph) (hpurpose : m'.purpose = m.purpose)
    (hstore : m'.processor.store = m.processor.store) (plan : Plan) (frames : Frames) (s : Store) :
    m'.infer plan frames s = m.infer plan frames s := by
  simp only [infer, hgraph, deliverAll_congr hpurpose hstore]

theorem serve_sync (plan : Plan) (frames : Frames) (s : Store) :
    m.sync.serve plan frames s = m.serve plan frames s := by
  have hfill : m.sync.fill plan frames.input s = m.fill plan frames.input s := rfl
  simp only [serve, hfill, infer_congr m m.sync rfl rfl rfl]

theorem alone_eq (hslots : 0 < m.slots) (hcheck : Session.checkRequest m r = .ok ()) :
    m.alone r = Session.outcomeOf (m.serve r.plan r.frames m.freshStore).1.toBool
      (m.serve r.plan r.frames m.freshStore).2.1 := by
  obtain ⟨k, hk⟩ := Nat.exists_eq_add_of_lt hslots
  have hfree : (Session.start m.sync).free = .fresh m.graph.operands ::
      List.replicate k (.fresh m.graph.operands) := by
    have hcount : m.sync.slots = k + 1 := by
      rw [← Nat.zero_add k]
      exact hk
    rw [Session.start, hcount]
    rfl
  rw [alone, Session.getResult_execute (m := m.sync) rfl hcheck rfl rfl hfree, serve_sync]
  rfl

/-- A table that differs from the one of a fresh slot in descriptors alone. -/
def Idle (m : Model) (xs : Array Operand) : Prop := m.Kept xs ∧ AllAlike xs m.freshStore.operands

theorem kept_freshStore (m : Model) : m.Kept m.freshStore.operands := kept_fresh m

theorem emptied_freshStore (m : Model) : emptied m.freshStore.operands = m.freshStore.operands := by
  simp only [emptied, freshStore, Slot.fresh, Array.map_map]
  rfl

theorem Kept.idle (h : m.Kept xs) : m.Idle (emptied xs) := by
  have halike := h.alike m.kept_freshStore
  rw [emptied_freshStore] at halike
  exact ⟨h.descriptors, halike⟩

theorem idle_emptied (m : Model) {xs : Array Operand} (h : m.Idle xs) : m.Idle (emptied xs) :=
  h.1.idle

theorem idle_measure (m : Model) {plan : Plan} {frame : Frame} {s : Store}
    (h : m.Idle s.operands) : m.Idle (emptied (Session.measure m plan frame s).2.operands) := by
  rw [measure_operands]
  exact (h.1.serve _ _).idle

theorem idle_fresh (m : Model) : m.Idle m.freshStore.operands :=
  emptied_freshStore m ▸ m.kept_freshStore.idle

/-- A slot is idle, or its input is filled as on a fresh slot; an inference ends as on a fresh slot. -/
def served (m : Model) (h : m.KeepsInputs) : Warrant m where
  Free := m.Idle
  Filled r xs := m.Kept xs ∧ ∃ t, m.fill r.plan r.frames.input m.freshStore = (.ok (), t) ∧
    AllAlike xs t.operands
  Served r ok frames := ok = (m.serve r.plan r.frames m.freshStore).1.toBool ∧
    frames = (m.serve r.plan r.frames m.freshStore).2.1
  fresh := m.idle_fresh
  again := @m.idle_emptied
  fill_ok := by
    intro r s ⟨hkept, halike⟩ hok
    have hin := hkept.sameInput m.kept_freshStore (h.keepsInput r.plan.input)
    obtain ⟨hresult, htable⟩ := fill_alike (m := m) halike hin r.frames.input
    refine ⟨hkept.fill _ _, _, ?_, htable⟩
    rw [hok] at hresult
    generalize m.fill r.plan r.frames.input m.freshStore = x at hresult ⊢
    rcases x with ⟨_ | _, t⟩ <;> cases hresult
    rfl
  fill_error := by
    intro r s e ⟨hkept, halike⟩ herror
    have hin := hkept.sameInput m.kept_freshStore (h.keepsInput r.plan.input)
    obtain ⟨hresult, -⟩ := fill_alike (m := m) halike hin r.frames.input
    refine ⟨(hkept.fill _ _).idle, ?_⟩
    rw [herror] at hresult
    unfold serve
    generalize m.fill r.plan r.frames.input m.freshStore = x at hresult ⊢
    rcases x with ⟨_ | _, t⟩ <;> cases hresult
    exact ⟨rfl, rfl⟩
  infer := by
    rintro r s ⟨hkept, t, hfill, halike⟩
    obtain ⟨hresult, hframes, -⟩ := infer_alike (m := m) r.plan halike nofun r.frames
    refine ⟨(hkept.infer r.frames).idle, ?_⟩
    simp only [serve, hfill]
    refine ⟨?_, hframes⟩
    generalize (m.infer r.plan r.frames s).1 = x, (m.infer r.plan r.frames t).1 = y at hresult ⊢
    cases hresult <;> rfl
  measure := @m.idle_measure
  input := by
    rintro r ok frames ⟨-, rfl⟩
    exact (m.serve_stay _ _ _).input rfl

end Model

namespace Session

variable {m : Model}

theorem checkRequest_of_mem_accepted {commands : List Command} {r : Request}
    (h : r ∈ accepted m commands) : checkRequest m r = .ok () := by
  obtain ⟨c, -, hc⟩ := List.mem_filterMap.1 h
  cases c with
  | execute q =>
    simp only [Command.accepted?] at hc
    split at hc
    next hcheck =>
      cases hc
      exact hcheck
    next => cases hc
  | flush => cases hc
  | getResult => cases hc
  | getInput => cases hc
  | getOutput => cases hc
  | runJob => cases hc

theorem map_alone (h : m.KeepsInputs) (hslots : 0 < m.slots) {os : List Outcome}
    {rs : List Request} (hall : List.Forall₂ (m.served h).HandsBack os rs)
    (hcheck : ∀ r ∈ rs, checkRequest m r = .ok ()) : rs.map m.alone = os.map .ok := by
  induction hall with
  | nil => rfl
  | cons hback hall ih =>
    obtain ⟨ok, frames, ⟨rfl, rfl⟩, houtcome⟩ := hback
    rw [List.map_cons, List.map_cons, ih fun r hr => hcheck r (List.mem_cons_of_mem _ hr),
      Model.alone_eq hslots (hcheck _ (by simp)), houtcome]

/-- Whatever is done in whatever order, the requests are handed back in the order in which they were
accepted, each with the outcome that it has alone. -/
theorem handedBack_prefix_alone (h : m.KeepsInputs) (hslots : 0 < m.slots)
    (commands : List Command) :
    (handedBack (run m (start m) commands).1).map .ok <+: (accepted m commands).map m.alone := by
  obtain ⟨-, hall⟩ := (Tracked.start (m.served h)).run commands
  simp only [List.nil_append, List.drop_zero] at hall
  rw [← map_alone h hslots hall fun r hr =>
    checkRequest_of_mem_accepted (List.mem_of_mem_take hr), List.map_take]
  exact List.take_prefix _ _

end Session

/-- A model that copies its input, with two slots. -/
def Model.copy (async : Bool) : Model :=
  .ofGraph {
    minorVersion := 0
    layers := [⟨.identity, [0], 1⟩]
    operands := #[⟨"x", .input, .float, ⟨1, -1, -1, 1⟩, true, 0, none⟩,
      ⟨"y", .output, .float, ⟨-1, -1, -1, -1⟩, true, 0, none⟩] }
    .process { slots := 2, async } .plain 1

/-- One value, given by the first of its bytes. -/
def Frame.pixel (b : UInt8) : Frame := ⟨1, 1, .grayF32, #[b, 0, 0, 0]⟩

/-- A pixel to be sent through a model with an output. -/
def Request.ofPixel (b : UInt8) (input : String := "x") : Request :=
  ⟨input, ["y"], .pixel b, some (.pixel 0)⟩

namespace Session

/-- The second request is done before the first, and the third waits for its slot. -/
def outOfOrder : List Command :=
  [.execute (.ofPixel 1), .execute (.ofPixel 2), .execute (.ofPixel 3), .runJob 1, .getResult,
    .runJob 0, .flush, .getResult, .runJob 0, .getResult, .getResult]

theorem handedBack_outOfOrder :
    (Model.copy true).KeepsInputs ∧ 0 < (Model.copy true).slots ∧
      handedBack (run (.copy true) (start (.copy true)) outOfOrder).1 =
        [.ready (.pixel 1) (some (.pixel 1)), .ready (.pixel 2) (some (.pixel 2)),
          .ready (.pixel 3) (some (.pixel 3))] ∧
      (handedBack (run (.copy true) (start (.copy true)) outOfOrder).1).map .ok <+:
        (accepted (.copy true) outOfOrder).map (Model.copy true).alone :=
  ⟨by decide, Model.ofGraph_slots_pos .., by decide +kernel,
    handedBack_prefix_alone (by decide) (Model.ofGraph_slots_pos ..) outOfOrder⟩

end Session
end Inference
