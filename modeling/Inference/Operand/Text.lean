import Inference.Operand
import Inference.Text.Glyph
/-! An operand in words, field by field. Its name stands between quotes, with an escape for each
character that would not be seen. -/
namespace Inference

namespace Text.Quoted

def escape (c : Char) : String :=
  if c = '\x00' then "\\0"
  else if c = '\t' then "\\t"
  else if c = '\n' then "\\n"
  else if c = '\r' then "\\r"
  else if c = '"' then "\\\""
  else if c = '\\' then "\\\\"
  else if Glyph.shown c then String.singleton c
  else "\\u\x7b" ++ .ofList (Nat.toDigits 16 c.toNat) ++ "\x7d"

def quote (s : String) : String := "\"" ++ String.join (s.toList.map escape) ++ "\""

end Text.Quoted

namespace Operand

def describeData (data : Option (Array Single)) : String :=
  match data with
  | some values => s!"Some(TensorBuffer \x7b len: {values.size} \x7d)"
  | none => "None"

def describe (o : Operand) : String :=
  let name := Text.Quoted.quote o.name
  let data := describeData o.data
  s!"Operand \x7b name: {name}, kind: {o.kind.name}, data_type: {o.dataType.name}, "
    ++ s!"dims: {o.dims}, is_nhwc: {o.nhwc}, length: {o.length}, data: {data} \x7d"

end Operand
end Inference
