import Inference.Session.State
/-! The operations on a served model as data, and runs of them. -/
namespace Inference.Session

inductive Command where
  | execute (request : Request)
  | flush
  | getResult
  | getInput (name : String)
  | getOutput (input : String) (width height : Nat) (output : String)
  | runJob (place : Nat)

inductive Answer where
  | done (result : Except Error Unit)
  | outcome (result : Except Error Outcome)
  | input (result : Except Error Model.InputInfo)
  | size (result : Except Error (Nat × Nat))
  | ran (found : Bool)

def step (m : Model) (s : Session) : Command → Answer × Session
  | .execute request => (s.execute m request).map .done id
  | .flush => (s.flush m).map .done id
  | .getResult => s.getResult.map .outcome id
  | .getInput name => (.input (m.inputInfo name), s)
  | .getOutput input width height output => (s.getOutput m input width height output).map .size id
  | .runJob place => (s.runJob m place).map .ran id

/-- The answers to a list of commands, and the state after them. -/
def run (m : Model) (s : Session) : List Command → List Answer × Session
  | [] => ([], s)
  | command :: commands =>
    let (answer, s) := step m s command
    let (answers, s) := run m s commands
    (answer :: answers, s)

/-- The states that commands lead to from the start. -/
def Reachable (m : Model) (s : Session) : Prop :=
  ∃ commands, (run m (start m) commands).2 = s

end Inference.Session
