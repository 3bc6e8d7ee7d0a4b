import Inference.Inspect.Path
import Inference.Inspect.Report
/-! The inspector as a program. -/
section

open Inference

/-- The bytes of a file, or the system's words for why it cannot be read. -/
def readModelFile (path : String) : IO (Except String (List UInt8)) := do
  try
    return .ok (← IO.FS.readBinFile path).toList
  catch
    | .noFileOrDirectory .. => return .error Inspect.PathError.missing.message
    | .permissionDenied .. => return .error Inspect.PathError.forbidden.message
    | .inappropriateType _ 21 _ => return .error Inspect.PathError.directory.message
    | .inappropriateType .. => return .error Inspect.PathError.insideFile.message
    | .invalidArgument .. => return .error Inspect.PathError.tooLong.message
    | e => return .error (toString e)

def main (arguments : List String) : IO UInt32 := do
  let file ← match Inspect.Arguments.read {} none arguments with
    | .inspect path _ => readModelFile path
    | _ => pure (.error "")
  let outcome := Inspect.run arguments fun _ => file
  IO.print outcome.stdout
  IO.eprint outcome.stderr
  if outcome.code = 2 then IO.eprintln Inspect.usage
  return outcome.code.toUInt32

end
