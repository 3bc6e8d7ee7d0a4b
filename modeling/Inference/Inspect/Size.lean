import Inference.Checked
/-! A width and a height in one word, such as 640x480, with white space of any script around
them. -/
namespace Inference

namespace Text

/-- The characters with the property White_Space. -/
def isBlank (c : Char) : Bool :=
  let n := c.toNat
  (9 ≤ n && n ≤ 13) || n = 0x20 || n = 0x85 || n = 0xa0 || n = 0x1680 ||
    (0x2000 ≤ n && n ≤ 0x200a) || n = 0x2028 || n = 0x2029 || n = 0x202f || n = 0x205f ||
    n = 0x3000

/-- The text without the white space around it. -/
def trim (text : List Char) : List Char :=
  ((text.dropWhile isBlank).reverse.dropWhile isBlank).reverse

end Text

namespace Inspect

inductive NumberError where
  | empty
  | invalidDigit
  | tooLarge
  deriving DecidableEq

def NumberError.message : NumberError → String
  | .empty => "cannot parse integer from empty string"
  | .invalidDigit => "invalid digit found in string"
  | .tooLarge => "number too large to fit in target type"

/-- Reads on digit by digit, up to the first that is none or makes the number too large. -/
def readDigits (n : Nat) : List Char → Except NumberError Nat
  | [] => .ok n
  | c :: rest =>
    if !c.isDigit then .error .invalidDigit
    else
      let n := n * 10 + (c.toNat - 48)
      if n < Checked.sizeLimit then readDigits n rest else .error .tooLarge

/-- A natural number of at most 64 bits, with or without a plus sign. -/
def readNumber : List Char → Except NumberError Nat
  | [] => .error .empty
  | ['+'] => .error .invalidDigit
  | '+' :: rest => readDigits 0 rest
  | text => readDigits 0 text

inductive SizeError where
  | notASize (text : String)
  | width (text : String) (cause : NumberError)
  | height (text : String) (cause : NumberError)
  deriving DecidableEq

/-- The message and the one behind it, if there is one. -/
def SizeError.messages : SizeError → List String
  | .notASize text => [s!"expected WIDTHxHEIGHT, got {text}"]
  | .width text cause => [s!"bad width in {text}", cause.message]
  | .height text cause => [s!"bad height in {text}", cause.message]

/-- The numbers before and after the first cross, with white space around them or none. -/
def readSize (text : String) : Except SizeError (Nat × Nat) :=
  match text.toList.span (fun c => c ≠ 'x' && c ≠ 'X') with
  | (_, []) => .error (.notASize text)
  | (width, _ :: height) => do
    let width ← (readNumber (Text.trim width)).mapError (.width text)
    let height ← (readNumber (Text.trim height)).mapError (.height text)
    return (width, height)

end Inspect
end Inference
