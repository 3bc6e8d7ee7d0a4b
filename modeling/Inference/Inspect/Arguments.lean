/-! The command line of the inspector. -/
namespace Inference.Inspect

/-- The options that take a value. -/
inductive Key where
  | probe
  | input
  | output
  deriving DecidableEq

def Key.ofName? : String → Option Key
  | "probe" => some .probe
  | "input" => some .input
  | "output" => some .output
  | _ => none

structure Arguments where
  model : Option String := none
  json : Bool := false
  values : List (Key × String) := []

/-- What the arguments ask for. -/
inductive Invocation where
  | inspect (model : String) (arguments : Arguments)
  | version
  | misuse

namespace Arguments

def value? (a : Arguments) (key : Key) : Option String := a.values.lookup key

/-- A value that no key has yet. -/
def setValue (a : Arguments) (key : Key) (value : String) : Option Arguments :=
  if (a.value? key).isSome then none else some { a with values := (key, value) :: a.values }

/-- The one path, which must not be empty. -/
def setModel (a : Arguments) (path : String) : Option Arguments :=
  if a.model.isSome ∨ path = "" then none else some { a with model := some path }

def setJson (a : Arguments) : Option Arguments :=
  if a.json then none else some { a with json := true }

/-- A path is needed, and a probe needs both of its operands. -/
def conclude (a : Arguments) : Invocation :=
  match a.model with
  | none => .misuse
  | some model =>
    let probed := (a.value? .probe).isSome
    let named := (a.value? .input).isSome && (a.value? .output).isSome
    if probed && !named then .misuse else .inspect model a

/-- Whether an argument can be the value of the option before it. -/
def isPlain (argument : String) : Bool := argument = "-" || !argument.startsWith "-"

/-- A long option, without its two dashes, split at the first equals sign. -/
def splitLong (name : List Char) : String × Option String :=
  match name.span (· ≠ '=') with
  | (name, []) => (.ofList name, none)
  | (name, _ :: value) => (.ofList name, some (.ofList value))

/-- The paths behind a double dash. -/
def readPaths (a : Arguments) : List String → Invocation
  | [] => a.conclude
  | path :: rest =>
    match a.setModel path with
    | some a => readPaths a rest
    | none => .misuse

/-- What follows an argument. -/
inductive Next where
  | argument (a : Arguments)
  | value (a : Arguments) (key : Key)
  | paths
  | stop (invocation : Invocation)

def Next.ofArguments? : Option Arguments → Next
  | some a => .argument a
  | none => .stop .misuse

def takeLong (a : Arguments) (name : List Char) : Next :=
  match splitLong name with
  | ("json", none) => .ofArguments? a.setJson
  | ("version", none) => .stop .version
  | (name, some value) => .ofArguments? ((Key.ofName? name).bind (a.setValue · value))
  | (name, none) => (Key.ofName? name).elim (.stop .misuse) (.value a)

def takeArgument (a : Arguments) (argument : String) : Next :=
  match argument.toList with
  | ['-', '-'] => .paths
  | '-' :: '-' :: name => a.takeLong name
  | '-' :: 'V' :: _ => .stop .version
  | '-' :: _ :: _ => .stop .misuse
  | _ => .ofArguments? (a.setModel argument)

/-- Reads arguments one by one, the first perhaps as the value of the option before it. The first
that is out of place decides, and so does a question for the version. -/
def read (a : Arguments) (key : Option Key) : List String → Invocation
  | [] => if key.isSome then .misuse else a.conclude
  | argument :: rest =>
    match key with
    | some key =>
      if isPlain argument then
        match a.setValue key argument with
        | some a => read a none rest
        | none => .misuse
      else .misuse
    | none =>
      match a.takeArgument argument with
      | .argument a => read a none rest
      | .value a key => read a (some key) rest
      | .paths => readPaths a rest
      | .stop invocation => invocation

end Arguments
end Inference.Inspect
