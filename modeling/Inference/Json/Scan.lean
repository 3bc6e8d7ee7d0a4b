import Inference.Json.Decimal
/-! Reading JSON from the front of a text. A scanner returns what it read and the rest. -/
namespace Inference.Json

/-- The text is no JSON, it ends early, or its values do not fit what is asked for. -/
inductive Error where
  | malformed
  | truncated
  | unfit
  deriving DecidableEq, Repr

abbrev Scan (α : Type) := List Char → Except Error (α × List Char)

namespace Scan

def isBlank (c : Char) : Bool := c = ' ' || c = '\n' || c = '\t' || c = '\r'

def skipBlank (text : List Char) : List Char := text.dropWhile isBlank

/-- Reads on only as long as the text gives the expected characters. -/
def expect : List Char → List Char → Except Error (List Char)
  | [], text => .ok text
  | _ :: _, [] => .error .truncated
  | e :: expected, c :: text => if c = e then expect expected text else .error .malformed

def hexDigit? (c : Char) : Option Nat :=
  if '0' ≤ c ∧ c ≤ '9' then some (c.toNat - 48)
  else if 'a' ≤ c ∧ c ≤ 'f' then some (c.toNat - 87)
  else if 'A' ≤ c ∧ c ≤ 'F' then some (c.toNat - 55)
  else none

/-- The four hexadecimal digits of an escape; fewer than four bytes are an early end. -/
def hexEscape (text : List Char) : Except Error (Nat × List Char) :=
  if (text.map Char.utf8Size).foldl (· + ·) 0 < 4 then .error .truncated
  else match (text.take 4).mapM hexDigit? with
    | some digits => .ok (digits.foldl (fun n d => n * 16 + d) 0, text.drop 4)
    | none => .error .malformed

/-- The character that a one-letter escape stands for. -/
def letterEscape? : Char → Option Char
  | '"' => some '"'
  | '\\' => some '\\'
  | '/' => some '/'
  | 'b' => some '\x08'
  | 'f' => some '\x0c'
  | 'n' => some '\n'
  | 'r' => some '\r'
  | 't' => some '\t'
  | _ => none

/-- The character of a numeric escape, of which one beyond 16 bits needs a second half. -/
def numericEscape : Scan Char := fun text => do
  let (n, rest) ← hexEscape text
  if 0xdc00 ≤ n ∧ n ≤ 0xdfff then throw .malformed
  if n < 0xd800 ∨ 0xdbff < n then return (.ofNat n, rest)
  let rest ← expect ['\\', 'u'] rest
  let (low, rest) ← hexEscape rest
  if low < 0xdc00 ∨ 0xdfff < low then throw .malformed
  return (.ofNat ((n - 0xd800) * 0x400 + (low - 0xdc00) + 0x10000), rest)

/-- A string after its opening quote. The fuel bounds the number of characters. -/
def stringBody : Nat → List Char → Scan (List Char)
  | 0, _, _ => .error .truncated
  | _ + 1, _, [] => .error .truncated
  | _ + 1, read, '"' :: rest => .ok (read.reverse, rest)
  | _ + 1, _, ['\\'] => .error .truncated
  | fuel + 1, read, '\\' :: 'u' :: rest => do
    let (c, rest) ← numericEscape rest
    stringBody fuel (c :: read) rest
  | fuel + 1, read, '\\' :: c :: rest =>
    match letterEscape? c with
    | some c => stringBody fuel (c :: read) rest
    | none => .error .malformed
  | fuel + 1, read, c :: rest =>
    if c < ' ' then .error .malformed else stringBody fuel (c :: read) rest

def string : Scan (List Char) := fun text => stringBody (text.length + 1) [] text

/-- Passes over a string after its opening quote, with any halves of a character in it. -/
def skipStringBody : Nat → List Char → Except Error (List Char)
  | 0, _ => .error .truncated
  | _ + 1, [] => .error .truncated
  | _ + 1, '"' :: rest => .ok rest
  | _ + 1, ['\\'] => .error .truncated
  | fuel + 1, '\\' :: 'u' :: rest => do
    let (_, rest) ← hexEscape rest
    skipStringBody fuel rest
  | fuel + 1, '\\' :: c :: rest =>
    if (letterEscape? c).isSome then skipStringBody fuel rest else .error .malformed
  | fuel + 1, c :: rest => if c < ' ' then .error .malformed else skipStringBody fuel rest

def skipString (text : List Char) : Except Error (List Char) :=
  skipStringBody (text.length + 1) text

/-- The digits at the front, at least one; `atEnd` is the error for a text that ends before it. -/
def digits (atEnd : Error) : Scan (List Char) := fun text =>
  match text.span Char.isDigit with
  | ([], []) => .error atEnd
  | ([], _) => .error .malformed
  | found => .ok found

/-- The digits of a whole part, which begin with a zero only if they are one zero. -/
def wholePart (atEnd : Error) : Scan (List Char) := fun text => do
  let (whole, rest) ← digits atEnd text
  if whole.length > 1 ∧ whole.head? = some '0' then throw .malformed
  return (whole, rest)

/-- The digits of a fraction, none if there is no point. -/
def fraction (atEnd : Error) : Scan (Option (List Char))
  | '.' :: rest => do
    let (found, rest) ← digits atEnd rest
    return (some found, rest)
  | rest => .ok (none, rest)

/-- The value of an exponent, none if there is no mark of one. -/
def exponent (atEnd : Error) : Scan (Option Int) := fun text =>
  match text with
  | c :: rest =>
    if c = 'e' ∨ c = 'E' then
      match rest with
      | '-' :: rest => do
        let (found, rest) ← digits atEnd rest
        return (some (-natOfDigits found), rest)
      | '+' :: rest => do
        let (found, rest) ← digits atEnd rest
        return (some (natOfDigits found), rest)
      | rest => do
        let (found, rest) ← digits atEnd rest
        return (some (natOfDigits found), rest)
    else .ok (none, text)
  | [] => .ok (none, text)

/-- A number without its sign: a natural number of at most 64 bits, or anything else that is
finite. -/
def number (negative : Bool) : Scan (Option Nat) := fun text => do
  let (whole, rest) ← wholePart .truncated text
  let (places, rest) ← fraction .truncated rest
  let (power, rest) ← exponent .truncated rest
  let n := natOfDigits whole
  if places.isNone ∧ power.isNone ∧ n < Checked.sizeLimit then
    return (if negative then none else some n, rest)
  if (Decimal.ofDigits whole (places.getD []) (power.getD 0)).overflows then throw .malformed
  return (none, rest)

/-- Passes over a number without its sign; one that ends early is malformed here. -/
def skipNumber (text : List Char) : Except Error (List Char) := do
  let (_, rest) ← wholePart .malformed text
  let (_, rest) ← fraction .malformed rest
  let (_, rest) ← exponent .malformed rest
  return rest

inductive Container where
  | list
  | object

/-- Where a scan stands that passes over a value: before it, or inside or behind the innermost open
container, where a comma can come once an element is there. -/
inductive Place where
  | value
  | inside (comma : Bool)

/-- Passes over the key of a member and its colon. -/
def skipKey (text : List Char) : Except Error (List Char) :=
  match skipBlank text with
  | [] => .error .truncated
  | '"' :: rest => do
    match skipBlank (← skipString rest) with
    | [] => .error .truncated
    | ':' :: rest => return rest
    | _ => .error .malformed
  | _ => .error .malformed

/-- Passes over a value without a limit to its depth. The fuel bounds the number of steps, of which
no three come without reading a character. -/
def skipFrom : Nat → Place → List Container → List Char → Except Error (List Char)
  | 0, _, _, _ => .error .truncated
  | fuel + 1, .value, stack, text =>
    match skipBlank text with
    | [] => .error .truncated
    | 'n' :: rest => do skipFrom fuel (.inside true) stack (← expect "ull".toList rest)
    | 't' :: rest => do skipFrom fuel (.inside true) stack (← expect "rue".toList rest)
    | 'f' :: rest => do skipFrom fuel (.inside true) stack (← expect "alse".toList rest)
    | '-' :: rest => do skipFrom fuel (.inside true) stack (← skipNumber rest)
    | '"' :: rest => do skipFrom fuel (.inside true) stack (← skipString rest)
    | '[' :: rest => skipFrom fuel (.inside false) (.list :: stack) rest
    | '\x7b' :: rest => skipFrom fuel (.inside false) (.object :: stack) rest
    | c :: rest => do
      if c.isDigit then skipFrom fuel (.inside true) stack (← skipNumber (c :: rest))
      else throw .malformed
  | _ + 1, .inside _, [], text => .ok text
  | fuel + 1, .inside comma, container :: stack, text =>
    let enter := fun (rest : List Char) => do
      match container with
      | .list => skipFrom fuel .value (container :: stack) rest
      | .object => skipFrom fuel .value (container :: stack) (← skipKey rest)
    match container, skipBlank text with
    | _, [] => .error .truncated
    | .list, ']' :: rest => skipFrom fuel (.inside true) stack rest
    | .object, '\x7d' :: rest => skipFrom fuel (.inside true) stack rest
    | _, c :: rest =>
      if !comma then enter (c :: rest) else if c = ',' then enter rest else .error .malformed

def skipValue (text : List Char) : Except Error (List Char) :=
  skipFrom (2 * text.length + 3) .value [] text

/-- The error for a value of another type than the one asked for: it has to be readable, or at least
to begin as a container. -/
def mistyped {α : Type} (text : List Char) : Except Error α :=
  match text with
  | 'n' :: rest => do
    let _ ← expect "ull".toList rest
    throw .unfit
  | 't' :: rest => do
    let _ ← expect "rue".toList rest
    throw .unfit
  | 'f' :: rest => do
    let _ ← expect "alse".toList rest
    throw .unfit
  | '-' :: rest => do
    let _ ← number true rest
    throw .unfit
  | '"' :: rest => do
    let _ ← string rest
    throw .unfit
  | '[' :: _ => .error .unfit
  | '\x7b' :: _ => .error .unfit
  | c :: rest => do
    if c.isDigit then
      let _ ← number false (c :: rest)
      throw .unfit
    else throw .malformed
  | [] => .error .truncated

/-- A natural number of at most 64 bits. -/
def natural : Scan Nat := fun text =>
  match skipBlank text with
  | [] => .error .truncated
  | c :: rest => do
    if c.isDigit then
      match ← number false (c :: rest) with
      | (some n, rest) => return (n, rest)
      | (none, _) => throw .unfit
    else mistyped (c :: rest)

def boolean : Scan Bool := fun text =>
  match skipBlank text with
  | [] => .error .truncated
  | 't' :: rest => do return (true, ← expect "rue".toList rest)
  | 'f' :: rest => do return (false, ← expect "alse".toList rest)
  | rest => mistyped rest

end Scan
end Inference.Json
