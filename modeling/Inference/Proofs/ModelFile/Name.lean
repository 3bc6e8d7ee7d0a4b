import Mathlib.Data.List.TakeWhile
import Inference.ModelFile
import Inference.Proofs.Text.Damage
/-! The names of operands: what is kept of a name field, and how long it is. A field is cut before it
is decoded, and decoding puts three bytes into the place of each damaged part, so that a name may end
up longer than the cut allows. -/
namespace Inference.ModelFile

open Text

variable {field : List UInt8} {name : String}

/-- The bytes of a name field that count. -/
def trimmed (field : List UInt8) : List UInt8 := (field.takeWhile (· ≠ 0)).take maxNameLength

/-- What is known of a field and the name that it is decoded to. -/
structure NameOf (field : List UInt8) (name : String) : Prop where
  /-- Text of at most the greatest length is kept as it is. -/
  faithful : ∀ text : String, field.takeWhile (· ≠ 0) = text.toUTF8.toList →
    text.toUTF8.toList.length ≤ maxNameLength → name = text
  /-- Of other fields the whole characters are kept and all else is replaced. -/
  reads : ∃ growth, Utf8.ReadAs (trimmed field) name.toList growth ∧
    name.toUTF8.toList.length = (trimmed field).length + growth
  bounded : name.toUTF8.toList.length ≤ 3 * maxNameLength
  /-- The name is no other when it is loaded again, unless it is too long; and if so, unless it is
  cut in the middle of a last character that is a replacement anyway. -/
  reloaded : decodeName name.toUTF8.toList = name ↔ name.toUTF8.toList.length ≤ maxNameLength ∨
    ∃ text : String, name = text.push Utf8.replacement ∧ text.toUTF8.toList.length < maxNameLength

theorem decodeName_toList (field : List UInt8) :
    (decodeName field).toList = Utf8.decodeFrom none (trimmed field) :=
  String.toList_ofList

/-- A name has no zeros, as the field is trimmed in front of the first. -/
theorem decodeName_ne_zero (field : List UInt8) :
    ∀ b ∈ (decodeName field).toUTF8.toList, b ≠ 0 := by
  obtain ⟨⟨growth, hread⟩, -⟩ := Utf8.readAs_decodeFrom (trimmed field)
  have hfield : ∀ b ∈ trimmed field, b ≠ 0 := by
    intro b hb
    simpa using List.mem_takeWhile_imp (List.mem_of_mem_take hb)
  rw [Utf8.toUTF8_toList, decodeName_toList]
  exact hread.ne_zero hfield

theorem decodeName_reloaded (field : List UInt8) :
    (decodeName (decodeName field).toUTF8.toList).toList =
      Utf8.cut maxNameLength (decodeName field).toList := by
  have hzeros : ((decodeName field).toUTF8.toList).takeWhile (· ≠ 0) =
      (decodeName field).toUTF8.toList := by
    rw [List.takeWhile_eq_self_iff]
    exact fun b hb => decide_eq_true (decodeName_ne_zero field b hb)
  rw [decodeName_toList, trimmed, hzeros, Utf8.toUTF8_toList, Utf8.decodeFrom_take]

/-- For every name field. -/
theorem decodeName_nameOf (field : List UInt8) : NameOf field (decodeName field) where
  faithful text htext hshort := by
    rw [decodeName, htext, List.take_of_length_le hshort, Utf8.decode_toUTF8]
  reads := by
    obtain ⟨⟨growth, hread⟩, -⟩ := Utf8.readAs_decodeFrom (trimmed field)
    rw [Utf8.toUTF8_toList, decodeName_toList]
    exact ⟨growth, hread, hread.length_eq⟩
  bounded := by
    obtain ⟨⟨growth, hread⟩, -⟩ := Utf8.readAs_decodeFrom (trimmed field)
    have hgrowth := hread.growth_le
    have htrimmed : (trimmed field).length ≤ maxNameLength := List.length_take_le _ _
    rw [Utf8.toUTF8_toList, decodeName_toList, hread.length_eq]
    omega
  reloaded := by
    rw [← String.toList_inj, decodeName_reloaded, Utf8.cut_eq_self_iff, Utf8.toUTF8_toList]
    refine or_congr Iff.rfl ⟨?_, ?_⟩
    · rintro ⟨init, hname, hlt⟩
      refine ⟨.ofList init, ?_, ?_⟩
      · rw [← String.toList_inj, hname, String.toList_push, String.toList_ofList]
      · rwa [Utf8.toUTF8_toList, String.toList_ofList]
    · rintro ⟨text, hname, hlt⟩
      rw [Utf8.toUTF8_toList] at hlt
      exact ⟨text.toList, by rw [hname, String.toList_push], hlt⟩

/-- Forty-four bytes that are no characters. -/
def damagedField : List UInt8 := .replicate 44 0xff

/-- Their name is longer than a field may be, and shorter when it is loaded again. -/
theorem damagedField_outgrows : maxNameLength < (decodeName damagedField).toUTF8.toList.length ∧
    decodeName (decodeName damagedField).toUTF8.toList ≠ decodeName damagedField := by
  decide +kernel

end Inference.ModelFile
