import Inference.Inspect.Arguments
import Inference.Inspect.Size
import Inference.Json.Value
import Inference.Session.State
/-! The tables of a model's layers and operands, and what is printed instead where something
fails. -/
namespace Inference.Inspect

/-- What a program leaves behind. -/
structure Outcome where
  code : Nat
  stdout : String := ""
  stderr : String := ""

def padRight (width : Nat) (s : String) : String := s ++ "".pushn ' ' (width - s.length)

def padLeft (width : Nat) (s : String) : String := "".pushn ' ' (width - s.length) ++ s

def listText (ns : List Nat) : String := "[" ++ ", ".intercalate (ns.map toString) ++ "]"

/-- A model with the size of an output, if one was asked for. -/
structure Summary where
  graph : Graph
  probe : Option (Nat × Nat)

namespace Summary

def layerRow (index : Nat) (l : Layer) : String :=
  let number := padLeft 3 (toString index)
  let kind := padRight 15 l.kind.label
  let inputs := listText l.inputs
  s!"  [{number}] {kind} {inputs} -> {l.output}\n"

def operandRow (index : Nat) (o : Operand) : String :=
  let number := padLeft 3 (toString index)
  let name := padRight 24 o.name
  let kind := padRight 12 o.kind.label
  let dataType := padRight 6 o.dataType.label
  s!"  [{number}] {name} {kind} {dataType} {o.dims}\n"

def probeRow : Option (Nat × Nat) → String
  | some (width, height) => s!"probe: output is {width}x{height}\n"
  | none => ""

def tables (s : Summary) (path : String) : String :=
  s!"model {path} (minor version {s.graph.minorVersion})\n"
    ++ "layers:\n" ++ String.join (s.graph.layers.mapIdx layerRow)
    ++ "operands:\n" ++ String.join (s.graph.operands.toList.mapIdx operandRow)
    ++ probeRow s.probe

def layerJson (index : Nat) (l : Layer) : Json :=
  .object [("index", .number index), ("kind", .string l.kind.label),
    ("inputs", .list (l.inputs.map fun i : Nat => .number i)), ("output", .number l.output)]

def operandJson (index : Nat) (o : Operand) : Json :=
  .object [("index", .number index), ("name", .string o.name), ("kind", .string o.kind.label),
    ("data_type", .string o.dataType.label),
    ("dims", .list (o.dims.axes.map fun a => .number a.toInt))]

def toJson (s : Summary) : Json :=
  .object ([("minor_version", .number s.graph.minorVersion.toInt),
    ("layers", .list (s.graph.layers.mapIdx layerJson)),
    ("operands", .list (s.graph.operands.toList.mapIdx operandJson))]
    ++ s.probe.toList.map fun (width, height) =>
      ("probe", .list [.number width, .number height]))

end Summary

/-- The lines of a text, all but the first behind an indent. -/
def indentLines (indent : String) (text : String) : String :=
  .ofList (text.toList.flatMap fun c => if c = '\n' then '\n' :: indent.toList else [c])

/-- A message with the chain of those behind it, numbered where there is more than one. -/
def errorText : List String → String
  | [] => "Error: \n"
  | [message] => s!"Error: {message}\n"
  | [message, cause] =>
    let cause := indentLines "    " cause
    s!"Error: {message}\n\nCaused by:\n    {cause}\n"
  | message :: causes =>
    let rows := causes.mapIdx fun i cause =>
      let number := padLeft 5 (toString i)
      let cause := indentLines "       " cause
      s!"\n{number}: {cause}"
    s!"Error: {message}\n\nCaused by:" ++ String.join rows ++ "\n"

/-- The message of an error and of the one that it was raised for. -/
def errorChain (e : Error) : List String := e.message :: e.cause?.toList

/-- The size of the output for the probed input size, on a model of one slot. -/
def probe (m : Model) (a : Arguments) : Except (List String) (Option (Nat × Nat)) :=
  match a.value? .probe, a.value? .input, a.value? .output with
  | some size, some input, some output => do
    let (width, height) ← (readSize size).mapError SizeError.messages
    some <$> ((Session.start m).getOutput m input width height output).1.mapError errorChain
  | _, _, _ => .ok none

def load (path : String) (file : Except String (List UInt8)) : Except (List String) Model :=
  let options := { Options.sync with slots := 1 }
  let model := do
    Model.ofBytes (← file.mapError Error.unreadable) .process options .plain 1
  model.mapError fun e => s!"load {path}" :: errorChain e

def inspect (path : String) (a : Arguments) (file : Except String (List UInt8)) :
    Except (List String) String := do
  let m ← load path file
  let summary : Summary := ⟨m.graph, ← probe m a⟩
  return if a.json then summary.toJson.pretty 0 ++ "\n" else summary.tables path

def usage : String :=
  "usage: nativednn-inspect [--json] [--probe WIDTHxHEIGHT --input NAME --output NAME] MODEL"

/-- The name and version of the program. -/
def version : String := "nativednn-inspect 0.1.0\n"

/-- Runs the inspector on its arguments, with the file at the path that they name, or the reason why
it cannot be read. -/
def run (arguments : List String) (file : String → Except String (List UInt8)) : Outcome :=
  match Arguments.read {} none arguments with
  | .version => { code := 0, stdout := version }
  | .misuse => { code := 2 }
  | .inspect path a =>
    match inspect path a (file path) with
    | .ok stdout => { code := 0, stdout }
    | .error messages => { code := 1, stderr := errorText messages }

end Inference.Inspect
