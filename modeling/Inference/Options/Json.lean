import Inference.Json.Scan
import Inference.Json.Value
import Inference.Options
/-! Options as JSON: an object with the fields by name, or a list of them in order. A field that is
not given has its default. -/
namespace Inference.Options

inductive Field where
  | slots
  | async
  | threads
  | convThreads
  deriving DecidableEq

namespace Field

def all : List Field := [.slots, .async, .threads, .convThreads]

def key : Field → String
  | .slots => "nireq"
  | .async => "async"
  | .threads => "threads"
  | .convThreads => "conv2d_threads"

def ofKey? (key : String) : Option Field := all.find? (·.key == key)

/-- Reads the value of a field into the options. -/
def read (field : Field) (o : Options) : Json.Scan Options := fun text =>
  match field with
  | .slots => (Json.Scan.natural text).map fun (n, rest) => ({ o with slots := n }, rest)
  | .async => (Json.Scan.boolean text).map fun (b, rest) => ({ o with async := b }, rest)
  | .threads => (Json.Scan.natural text).map fun (n, rest) => ({ o with threads := n }, rest)
  | .convThreads =>
    (Json.Scan.natural text).map fun (n, rest) => ({ o with convThreads := n }, rest)

end Field

/-- The fields in order, after the opening bracket or the element before. -/
def readList (first : Bool) (o : Options) : List Field → Json.Scan Options
  | fields, text =>
    match fields, Json.Scan.skipBlank text with
    | _, [] => .error .truncated
    | _, ']' :: rest => .ok (o, rest)
    | [], _ => .error .malformed
    | field :: fields, c :: rest => do
      if first then
        let (o, rest) ← field.read o (c :: rest)
        readList false o fields rest
      else if c = ',' then
        match Json.Scan.skipBlank rest with
        | [] => throw .truncated
        | ']' :: _ => throw .malformed
        | rest =>
          let (o, rest) ← field.read o rest
          readList false o fields rest
      else throw .malformed

/-- The colon between a key and its value. -/
def colon (text : List Char) : Except Json.Error (List Char) :=
  match Json.Scan.skipBlank text with
  | [] => .error .truncated
  | ':' :: rest => .ok rest
  | _ => .error .malformed

/-- A member after the quote that opens its key. A known field must not come twice; the value of an
unknown one can be anything. -/
def readMember (seen : List Field) (o : Options) (text : List Char) :
    Except Json.Error (List Field × Options × List Char) := do
  let (key, rest) ← Json.Scan.string text
  match Field.ofKey? (.ofList key) with
  | some field =>
    if field ∈ seen then throw .unfit
    let (o, rest) ← field.read o (← colon rest)
    return (field :: seen, o, rest)
  | none => return (seen, o, ← Json.Scan.skipValue (← colon rest))

/-- The members of an object, after the opening brace or the member before. The fuel bounds their
number. -/
def readObject : Nat → Bool → List Field → Options → Json.Scan Options
  | 0, _, _, _, _ => .error .truncated
  | fuel + 1, first, seen, o, text =>
    match Json.Scan.skipBlank text with
    | [] => .error .truncated
    | '\x7d' :: rest => .ok (o, rest)
    | c :: rest => do
      let start := if first then c :: rest else Json.Scan.skipBlank rest
      if !first && c ≠ ',' then throw .malformed
      match start with
      | [] => throw .truncated
      | '"' :: rest =>
        let (seen, o, rest) ← readMember seen o rest
        readObject fuel false seen o rest
      | _ => throw .malformed

def ofJson (text : String) : Except Json.Error Options := do
  let (o, rest) ← match Json.Scan.skipBlank text.toList with
    | [] => throw .truncated
    | '[' :: rest => readList true {} Field.all rest
    | '\x7b' :: rest => readObject (rest.length + 1) true [] {} rest
    | rest => Json.Scan.mistyped rest
  if Json.Scan.skipBlank rest ≠ [] then throw .malformed
  return o

def toJson (o : Options) : Json :=
  .object [(Field.slots.key, .number o.slots), (Field.async.key, .boolean o.async),
    (Field.threads.key, .number o.threads), (Field.convThreads.key, .number o.convThreads)]

end Inference.Options
