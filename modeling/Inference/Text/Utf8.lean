/-! Reading UTF-8 that may be damaged: each longest part of a character that cannot be completed
becomes one replacement character. -/
namespace Inference.Text.Utf8

/-- A character of which some bytes are still missing, and what the next of them can be. -/
structure Pending where
  missing : Nat
  low : UInt8
  high : UInt8
  scalar : Nat

def replacement : Char := '\ufffd'

/-- The character that a byte is, or the one that it begins. -/
def start (b : UInt8) : Char ⊕ Pending :=
  if b < 0x80 then .inl (.ofNat b.toNat)
  else if b < 0xc2 then .inl replacement
  else if b < 0xe0 then .inr ⟨1, 0x80, 0xbf, b.toNat - 0xc0⟩
  else if b < 0xf0 then
    .inr ⟨2, if b = 0xe0 then 0xa0 else 0x80, if b = 0xed then 0x9f else 0xbf, b.toNat - 0xe0⟩
  else if b < 0xf5 then
    .inr ⟨3, if b = 0xf0 then 0x90 else 0x80, if b = 0xf4 then 0x8f else 0xbf, b.toNat - 0xf0⟩
  else .inl replacement

def decodeFrom : Option Pending → List UInt8 → List Char
  | none, [] => []
  | some _, [] => [replacement]
  | none, b :: rest =>
    match start b with
    | .inl c => c :: decodeFrom none rest
    | .inr p => decodeFrom (some p) rest
  | some p, b :: rest =>
    if p.low ≤ b ∧ b ≤ p.high then
      let scalar := p.scalar * 64 + (b.toNat - 0x80)
      if p.missing ≤ 1 then .ofNat scalar :: decodeFrom none rest
      else decodeFrom (some ⟨p.missing - 1, 0x80, 0xbf, scalar⟩) rest
    else
      replacement :: match start b with
        | .inl c => c :: decodeFrom none rest
        | .inr p => decodeFrom (some p) rest

def decode (bytes : List UInt8) : String := .ofList (decodeFrom none bytes)

end Inference.Text.Utf8
