import Inference.Session.Pass
/-! The state of a served model: the requests not yet handed back, those among them that wait for a
slot, the free slots, and the jobs in work. -/
namespace Inference

/-- The schedulable part of a request. -/
structure Work where
  ticket : Nat
  plan : Plan
  deriving DecidableEq

/-- A request that was accepted and not yet handed back. -/
structure Task where
  ticket : Nat
  frames : Frames
  todo : Nat
  done : Nat := 0
  failed : Bool := false
  deriving DecidableEq

namespace Task

def finished (t : Task) : Bool := 0 < t.todo && t.done == t.todo

end Task

/-- Private operands for one inference at a time, and the work bound to them. -/
structure Slot where
  operands : Array Operand
  work : Option Work := none
  deriving DecidableEq

namespace Slot

def fresh (operands : Array Operand) : Slot := ⟨operands.map Operand.descriptor, none⟩

/-- Lets all values and the work go; dims, lengths and data types stay. -/
def reset (s : Slot) : Slot := ⟨s.operands.map Operand.descriptor, none⟩

def liveBuffers (s : Slot) : Nat := s.operands.countP (·.data.isSome)

end Slot

/-- An inference whose input is filled, with the slot it runs on. -/
structure Job where
  slot : Slot
  work : Work
  deriving DecidableEq

structure Session where
  /-- In the order of submission. -/
  tasks : List Task := []
  /-- In the order of submission. -/
  waiting : List Work := []
  /-- The first is taken next. -/
  free : List Slot
  /-- In the order of dispatch. -/
  jobs : List Job := []
  inFlight : Nat := 0
  ledger : Ledger := {}
  nextTicket : Nat := 0
  deriving DecidableEq

/-- What a caller submits. -/
structure Request where
  input : String
  outputs : List String
  frame : Frame
  output : Option Frame
  deriving DecidableEq

/-- What is known of the oldest request. -/
inductive Outcome where
  | emptyQueue
  | notReady
  | ready (input : Frame) (output : Option Frame)
  | failed (input : Frame)
  deriving DecidableEq

namespace Session

def start (m : Model) : Session := { free := List.replicate m.slots (.fresh m.graph.operands) }

def frames (s : Session) (ticket : Nat) : Frames :=
  (s.tasks.find? (·.ticket == ticket)).elim {} (·.frames)

def updateTask (s : Session) (ticket : Nat) (f : Task → Task) : Session :=
  { s with tasks := s.tasks.map fun t => if t.ticket = ticket then f t else t }

/-- Puts an emptied slot behind the free ones. -/
def release (s : Session) (slot : Slot) : Session :=
  { s with
    free := s.free ++ [slot.reset]
    ledger := { s.ledger with released := s.ledger.released + slot.liveBuffers } }

/-- Releases the slot, and marks the task if its inference failed. -/
def finish (s : Session) (slot : Slot) (work : Work) (result : Except Error Unit) : Session :=
  let s := s.release slot
  match result with
  | .ok _ => s
  | .error _ => s.updateTask work.ticket ({ · with failed := true })

/-- Runs the layers of an inference whose input is filled and hands its outputs over. -/
def runInference (m : Model) (slot : Slot) (work : Work) (s : Session) :
    Except Error Unit × Session :=
  let (result, frames, store) :=
    m.infer work.plan (s.frames work.ticket) ⟨slot.operands, s.ledger⟩
  let s := { s with ledger := store.ledger }
  let s := s.updateTask work.ticket fun t =>
    { t with frames, done := if result.toBool then t.done + 1 else t.done }
  (result, s.finish { slot with operands := store.operands } work result)

def fillSlot (m : Model) (slot : Slot) (s : Session) : Except Error Unit × Slot × Session :=
  match slot.work with
  | none => (.error (.inconsistent .unboundSlot), slot, s)
  | some work =>
    let (result, store) :=
      m.fill work.plan (s.frames work.ticket).input ⟨slot.operands, s.ledger⟩
    (result, { slot with operands := store.operands }, { s with ledger := store.ledger })

/-- A task that has finished fewer inferences than it was cut into. -/
def checkFinished (s : Session) (ticket : Nat) : Except Error Unit :=
  match s.tasks.find? (·.ticket == ticket) with
  | some task =>
    if task.done = task.todo then .ok ()
    else .error (.inconsistent (.unfinished task.done task.todo))
  | none => .ok ()

/-- Binds the longest waiting work to the slot and fills its input; then the inference becomes a
job, or runs at once. -/
def dispatch (m : Model) (slot : Slot) (async : Bool) (s : Session) :
    Except Error Unit × Session :=
  match s.waiting with
  | [] => (.error (.inconsistent .nothingWaiting), s.release slot)
  | work :: waiting =>
    match fillSlot m { slot with work := some work } { s with waiting } with
    | (.error e, slot, s) => (.error e, s.finish slot work (.error e))
    | (.ok _, slot, s) =>
      if async then
        (.ok (), { s with jobs := s.jobs ++ [⟨slot, work⟩], inFlight := s.inFlight + 1 })
      else
        match runInference m slot work s with
        | (.error e, s) => (.error e, s)
        | (.ok _, s) => (s.checkFinished work.ticket, s)

/-- Takes the first free slot for the longest waiting work. -/
def dispatchNext (m : Model) (async : Bool) (s : Session) : Except Error Unit × Session :=
  match s.free with
  | [] => (.error .noFreeSlot, s)
  | slot :: free => dispatch m slot async { s with free }

def checkRequest (m : Model) (r : Request) : Except Error Unit :=
  match r.outputs with
  | [] => .error (.badArgument .noOutput)
  | [_] =>
    if m.purpose = .process ∧ r.output = none then .error (.badArgument .noOutputFrame)
    else .ok ()
  | outputs => .error (.unsupported (.outputs outputs.length))

/-- Queues a request behind all others. -/
def submit (r : Request) (s : Session) : Session :=
  { s with
    tasks :=
      s.tasks ++ [{ ticket := s.nextTicket, frames := ⟨some r.frame, r.output⟩, todo := 1 }]
    waiting := s.waiting ++ [⟨s.nextTicket, { input := r.input, outputs := r.outputs }⟩]
    nextTicket := s.nextTicket + 1 }

/-- Submits a request and dispatches the longest waiting one; without a free slot it stays
queued. -/
def execute (m : Model) (r : Request) (s : Session) : Except Error Unit × Session :=
  match checkRequest m r with
  | .error e => (.error e, s)
  | .ok _ => (s.submit r).dispatchNext m m.options.async

/-- Dispatches the longest waiting request as a job, if any waits. -/
def flush (m : Model) (s : Session) : Except Error Unit × Session :=
  if s.waiting.isEmpty then (.ok (), s) else s.dispatchNext m true

/-- Hands the oldest request back once it has finished or failed. -/
def getResult (s : Session) : Except Error Outcome × Session :=
  match s.tasks with
  | [] => (.ok .emptyQueue, s)
  | task :: tasks =>
    if !task.failed && !task.finished then (.ok .notReady, s)
    else
      let s := { s with tasks }
      match task.frames.input with
      | none => (.error (.inconsistent .lostInputFrame), s)
      | some input =>
        if task.failed then (.ok (.failed input), s)
        else (.ok (.ready input task.frames.output), s)

/-- A blank frame that stands for its size alone. Its bytes are never looked at, but a 63-bit size
has to hold their number; for fewer there is room, as for `Checked.reserve`. -/
def blankFrame (width height : Nat) : Except Error Frame :=
  match Frame.byteCount width height .grayF32 with
  | .error fault => .error (.fault fault)
  | .ok bytes =>
    if bytes < Checked.offsetLimit then .ok ⟨width, height, .grayF32, #[]⟩
    else .error (.fault .overflow)

/-- One inference on a slot for the sizes of its frames alone. -/
def measure (m : Model) (plan : Plan) (frame : Frame) (s : Store) :
    Except Error (Nat × Nat) × Store :=
  match m.fill plan (some frame) s with
  | (.error e, s) => (.error e, s)
  | (.ok _, s) =>
    match m.infer plan ⟨some frame, some frame⟩ s with
    | (.error e, _, s) => (.error e, s)
    | (.ok _, ⟨_, none⟩, s) => (.error (.inconsistent .lostProbeFrame), s)
    | (.ok _, ⟨_, some output⟩, s) => (.ok (output.width, output.height), s)

/-- The width and height of an output for an input of the given size, found on the first free
slot. -/
def getOutput (m : Model) (input : String) (width height : Nat) (output : String) (s : Session) :
    Except Error (Nat × Nat) × Session :=
  match blankFrame width height with
  | .error e => (.error e, s)
  | .ok frame =>
    match s.free with
    | [] => (.error .noFreeSlot, s)
    | slot :: free =>
      let plan : Plan := { input, outputs := [output], converts := false }
      let (result, store) := measure m plan frame ⟨slot.operands, s.ledger⟩
      let s := { s with free, ledger := store.ledger }
      (result, s.release { slot with operands := store.operands })

/-- Runs the job at a place in the queue, if there is one. -/
def runJob (m : Model) (place : Nat) (s : Session) : Bool × Session :=
  match s.jobs[place]? with
  | none => (false, s)
  | some job =>
    let (_, s) := runInference m job.slot job.work { s with jobs := s.jobs.eraseIdx place }
    (true, { s with inFlight := s.inFlight - 1 })

def runNext (m : Model) (s : Session) : Bool × Session := s.runJob m 0

def runLast (m : Model) (s : Session) : Bool × Session := s.runJob m (s.jobs.length - 1)

/-- Runs as many jobs as there are, the oldest first; a job never adds another. -/
def runAll (m : Model) (s : Session) : Nat × Session :=
  (s.jobs.length, s.jobs.foldl (fun s _ => (s.runNext m).2) s)

/-- The end of a session: all jobs run, then whatever is queued is dropped. -/
def close (m : Model) (s : Session) : Session :=
  { (s.runAll m).2 with tasks := [], waiting := [], free := [] }

def describe (m : Model) (s : Session) : String :=
  let layers := m.graph.layers.length
  let operands := m.graph.operands.size
  let purpose := m.purpose.name
  let slots := m.slots
  let free := s.free.length
  s!"NativeModel \x7b layers: {layers}, operands: {operands}, function: {purpose}, "
    ++ s!"nireq: {slots}, free_slots: {free} \x7d"

end Session
end Inference
