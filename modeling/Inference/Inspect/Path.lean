/-! Paths of files, and why the system cannot read what is at one. -/
namespace Inference.Inspect

inductive PathError where
  | missing
  | forbidden
  | directory
  | insideFile
  | tooLong
  deriving DecidableEq, Repr

namespace PathError

/-- The system's words. A directory can be opened but not mapped into memory. -/
def message : PathError → String
  | .missing => "No such file or directory (os error 2)"
  | .forbidden => "Permission denied (os error 13)"
  | .directory => "No such device (os error 19)"
  | .insideFile => "Not a directory (os error 20)"
  | .tooLong => "File name too long (os error 36)"

end PathError

namespace Path

/-- The most bytes of a path. -/
def maxBytes : Nat := 4095

/-- The most bytes of one name on a path. -/
def maxNameBytes : Nat := 255

/-- The first name on a path; the others are the same directory or the one above. -/
def firstName? (path : String) : Option String :=
  (path.splitOn "/").find? fun name => name ≠ "" && name ≠ "." && name ≠ ".."

/-- Why a path cannot be read if its first name is not there. The length of the whole path counts
before any name is looked up, and what follows a missing name does not count. -/
def errorOf (path : String) : PathError :=
  if maxBytes < path.utf8ByteSize then .tooLong
  else match firstName? path with
    | none => .directory
    | some name => if maxNameBytes < name.utf8ByteSize then .tooLong else .missing

end Path
end Inference.Inspect
