import Inference.Proofs.ModelFile.Delimiting
/-! Where the records of a file end is settled by the records. Between header and trailer that stay
as they are, more bytes are found to be too many and fewer to be too few. -/
namespace Inference.ModelFile

open Reader

/-- The records that are counted take the room that is asked for them. -/
theorem body_delimits (layers operands : Nat) : SelfDelimiting (body layers operands) := by
  have hoperands : SelfDelimiting (do
      ensureRecords operands minOperandRecord "operand"
      let table ← (List.range operands).foldlM (fun table _ => operandRecord table)
        (Array.replicate operands none)
      complete table) := by
    refine .ensureRecords _ ((operandRecords_delimits _ _).bind complete_delimits) ?_
    refine (operands_takes operands).mono fun os bs ⟨hcount, _, order, field, hperm, _, hbs⟩ => ?_
    subst hcount
    rw [hbs]
    exact mul_minOperandRecord_le field hperm
  have hrest : ∀ ls : List Layer, SelfDelimiting (do
      ensureRecords operands minOperandRecord "operand"
      let table ← (List.range operands).foldlM (fun table _ => operandRecord table)
        (Array.replicate operands none)
      return (ls, ← complete table)) := by
    intro ls
    have hboth := hoperands.bind fun os => .pure (ls, os)
    simpa only [bind_assoc] using hboth
  refine .ensureRecords _ ((times_delimits layer_delimits layers).bind hrest) ?_
  refine (layers_takes layers 0).bind fun ls bs ⟨hcount, _, yes, _, hbs⟩ => ?_
  refine (hrest ls).takes.mono fun _ cs _ => ?_
  have hlayers := mul_minLayerRecord_le yes 0 ls
  rw [hcount, ← hbs] at hlayers
  rw [List.length_append]
  omega

theorem header_delimits : SelfDelimiting header := by
  refine (bytes_delimits _).bind fun found => .check ?_
  refine int_delimits.bind fun major => ?_
  split
  · exact ⟨fun _ _ _ => nofun, nofun⟩
  · exact int_delimits

theorem trailer_delimits : SelfDelimiting trailer :=
  (count_delimits _).bind fun _ => (count_delimits _).bind fun _ => .pure _

variable {front inner back file : List UInt8} {g : Graph}

theorem length_before (hback : back.length = trailerSize) (bs : List UInt8) :
    (bs ++ back).length - trailerSize = bs.length := by
  rw [List.length_append, hback, Nat.add_sub_cancel]

/-- A file with its three parts told apart. -/
theorem parse_parts (hfront : front.length = headerSize) (hback : back.length = trailerSize)
    (inner : List UInt8) : parse (front ++ inner ++ back) = (do
      let (minorVersion, _) ← header front
      let ((layers, operands), _) ← trailer back
      let ((layers, operands), rest) ← body layers operands inner
      if rest ≠ [] then
        throw (.sizeMismatch ((front ++ inner ++ back).length - rest.length)
          (front ++ inner ++ back).length)
      return ⟨minorVersion, layers, operands⟩) := by
  have hsize : (front ++ inner ++ back).length = headerSize + inner.length + trailerSize := by
    rw [List.length_append, List.length_append, hfront, hback]
  have hlong : ¬(front ++ inner ++ back).length < headerSize + trailerSize := by omega
  have htake : (front ++ inner ++ back).take headerSize = front := by
    rw [List.append_assoc, ← hfront, List.take_left]
  have hdrop : (front ++ inner ++ back).drop ((front ++ inner ++ back).length - trailerSize) =
      back := by
    rw [length_before hback, List.drop_left]
  have hinner : ((front ++ inner ++ back).drop headerSize).take
      ((front ++ inner ++ back).length - trailerSize - headerSize) = inner := by
    have hinside : (front ++ inner ++ back).length - trailerSize - headerSize = inner.length := by
      omega
    rw [hinside, List.append_assoc, ← hfront, List.drop_left, List.take_left]
  unfold parse
  simp only [if_neg hlong, htake, hdrop, hinner]

/-- With its header and trailer read, a file is what its records are. -/
theorem parse_inner (hfront : front.length = headerSize) (hback : back.length = trailerSize)
    {minor : Int32} {layers operands : Nat} {behindFront behindBack : List UInt8}
    (hheader : header front = .ok (minor, behindFront))
    (htrailer : trailer back = .ok ((layers, operands), behindBack)) (inner : List UInt8) :
    parse (front ++ inner ++ back) = (do
      let ((layers, operands), rest) ← body layers operands inner
      if rest ≠ [] then
        throw (.sizeMismatch ((front ++ inner ++ back).length - rest.length)
          (front ++ inner ++ back).length)
      return ⟨minor, layers, operands⟩) := by
  rw [parse_parts hfront hback, hheader, htrailer]
  rfl

theorem parts_of_parse (hfront : front.length = headerSize) (hback : back.length = trailerSize)
    (h : parse (front ++ inner ++ back) = .ok g) :
    ∃ layers operands behindFront behindBack, header front = .ok (g.minorVersion, behindFront) ∧
      trailer back = .ok ((layers, operands), behindBack) ∧
      body layers operands inner = .ok ((g.layers, g.operands), []) := by
  rw [parse_parts hfront hback] at h
  obtain ⟨⟨minor, behindFront⟩, hheader, h⟩ := bind_eq_ok.1 h
  obtain ⟨⟨⟨layers, operands⟩, behindBack⟩, htrailer, h⟩ := bind_eq_ok.1 h
  obtain ⟨⟨⟨ls, os⟩, rest⟩, hbody, h⟩ := bind_eq_ok.1 h
  obtain ⟨hrest, h⟩ := ite_throw_bind_eq_ok.1 h
  cases h
  obtain rfl := not_not.1 hrest
  exact ⟨layers, operands, behindFront, behindBack, hheader, htrailer, hbody⟩

/-- The records of a file that is read are delimited by themselves. -/
theorem delimits_of_parse (hfront : front.length = headerSize) (hback : back.length = trailerSize)
    (h : parse (front ++ inner ++ back) = .ok g) :
    ∃ layers operands behindFront behindBack, header front = .ok (g.minorVersion, behindFront) ∧
      trailer back = .ok ((layers, operands), behindBack) ∧
      Delimits (body layers operands) inner (g.layers, g.operands) := by
  obtain ⟨layers, operands, behindFront, behindBack, hheader, htrailer, hbody⟩ :=
    parts_of_parse hfront hback h
  obtain ⟨taken, hinner, hdelimits⟩ := (body_delimits layers operands).delimits _ _ _ hbody
  rw [List.append_nil] at hinner
  subst hinner
  exact ⟨layers, operands, behindFront, behindBack, hheader, htrailer, hdelimits⟩

theorem parse_surplus (hfront : front.length = headerSize) (hback : back.length = trailerSize)
    (h : parse (front ++ inner ++ back) = .ok g) {more : List UInt8} (hmore : more ≠ []) :
    parse (front ++ inner ++ more ++ back) = .error (.sizeMismatch (front ++ inner ++ back).length
      ((front ++ inner ++ back).length + more.length)) := by
  obtain ⟨layers, operands, _, _, hheader, htrailer, hdelimits⟩ :=
    delimits_of_parse hfront hback h
  have hsize : (front ++ (inner ++ more) ++ back).length =
      (front ++ inner ++ back).length + more.length := by
    simp only [List.length_append]
    omega
  rw [List.append_assoc front, parse_inner hfront hback hheader htrailer, hdelimits.reads more,
    hsize]
  refine ite_throw_bind_eq_error.2 (.inl ⟨hmore, ?_⟩)
  rw [Nat.add_sub_cancel]

theorem parse_lacking (hfront : front.length = headerSize) (hback : back.length = trailerSize)
    {part missing : List UInt8} (h : parse (front ++ (part ++ missing) ++ back) = .ok g)
    (hmissing : missing ≠ []) :
    ∃ cause, parse (front ++ part ++ back) = .error (.format cause) := by
  obtain ⟨layers, operands, _, _, hheader, htrailer, hdelimits⟩ :=
    delimits_of_parse hfront hback h
  obtain ⟨cause, hcause⟩ := hdelimits.cut part missing rfl hmissing
  refine ⟨cause, ?_⟩
  rw [parse_inner hfront hback hheader htrailer, hcause]
  rfl

/-- The only file whose size is wrong is one whose records end too early for it. -/
theorem mismatch_of_parse (hfront : front.length = headerSize) (hback : back.length = trailerSize)
    {parsed size : Nat} (h : parse (front ++ inner ++ back) = .error (.sizeMismatch parsed size)) :
    ∃ kept surplus g, inner = kept ++ surplus ∧ surplus ≠ [] ∧
      parse (front ++ kept ++ back) = .ok g ∧ parsed = (front ++ kept ++ back).length ∧
      size = (front ++ inner ++ back).length := by
  rw [parse_parts hfront hback] at h
  rcases bind_eq_error.1 h with hheader | ⟨⟨minor, behindFront⟩, hheader, h⟩
  · exact absurd hheader (header_delimits.fits _ _ _)
  rcases bind_eq_error.1 h with htrailer | ⟨⟨⟨layers, operands⟩, behindBack⟩, htrailer, h⟩
  · exact absurd htrailer (trailer_delimits.fits _ _ _)
  rcases bind_eq_error.1 h with hbody | ⟨⟨⟨ls, os⟩, rest⟩, hbody, h⟩
  · exact absurd hbody ((body_delimits _ _).fits _ _ _)
  rcases ite_throw_bind_eq_error.1 h with ⟨hrest, h⟩ | ⟨-, h⟩
  · obtain ⟨kept, rfl, hdelimits⟩ := (body_delimits layers operands).delimits _ _ _ hbody
    have hkept := hdelimits.reads []
    rw [List.append_nil] at hkept
    cases h
    refine ⟨kept, rest, ⟨minor, ls, os⟩, rfl, hrest, ?_, ?_, rfl⟩
    · rw [parse_inner hfront hback hheader htrailer, hkept]
      rfl
    · simp only [List.length_append]
      omega
  · cases h

theorem exists_parts (h : headerSize + trailerSize ≤ file.length) : ∃ front inner back,
    file = front ++ inner ++ back ∧ front.length = headerSize ∧ back.length = trailerSize := by
  let behind := file.drop headerSize
  have hbehind : behind.length = file.length - headerSize := List.length_drop
  refine ⟨file.take headerSize, behind.take (behind.length - trailerSize),
    behind.drop (behind.length - trailerSize), ?_, ?_, ?_⟩
  · rw [List.append_assoc, List.take_append_drop, List.take_append_drop]
  · rw [List.length_take, Nat.min_eq_left (by omega)]
  · rw [List.length_drop]
    omega

/-- Records delimit themselves. A file that is read is refused for its exact sizes with any bytes
put in before its trailer, and for its format with any bytes of its records cut off there. A file
is refused for its size only if it is too long, and without the bytes that are too many it is
read. -/
theorem records_self_delimiting :
    (∀ front inner back g, front.length = headerSize → back.length = trailerSize →
      parse (front ++ inner ++ back) = .ok g →
        (∀ more, more ≠ [] → parse (front ++ inner ++ more ++ back) =
          .error (.sizeMismatch (front ++ inner ++ back).length
            ((front ++ inner ++ back).length + more.length))) ∧
        ∀ part, part <+: inner → part ≠ inner →
          ∃ cause, parse (front ++ part ++ back) = .error (.format cause)) ∧
    ∀ file parsed size, parse file = .error (.sizeMismatch parsed size) →
      size = file.length ∧ parsed < size ∧
        ∃ g, parse (file.take (parsed - trailerSize) ++ file.drop (size - trailerSize)) = .ok g := by
  refine ⟨fun front inner back g hfront hback h =>
    ⟨fun more hmore => parse_surplus hfront hback h hmore, ?_⟩, ?_⟩
  · rintro part ⟨missing, rfl⟩ hpart
    refine parse_lacking hfront hback h fun hmissing => hpart ?_
    rw [hmissing, List.append_nil]
  · intro file parsed size h
    have hlong : headerSize + trailerSize ≤ file.length := by
      by_contra hshort
      unfold parse at h
      rw [if_pos (by omega)] at h
      cases h
    obtain ⟨front, inner, back, rfl, hfront, hback⟩ := exists_parts hlong
    obtain ⟨kept, surplus, g, rfl, hsurplus, hkept, rfl, rfl⟩ := mismatch_of_parse hfront hback h
    have hpos := List.length_pos_of_ne_nil hsurplus
    refine ⟨rfl, ?_, g, ?_⟩
    · simp only [List.length_append]
      omega
    · rw [length_before hback, length_before hback, List.drop_left, ← List.append_assoc front,
        List.append_assoc _ surplus, List.take_left]
      exact hkept

/-- The records of the affine model with three bytes behind them, and without their last one. -/
theorem affine_delimited :
    let front := encodeHeader 3
    let inner := (affineFile.drop headerSize).take (affineFile.length - trailerSize - headerSize)
    let back := encodeTrailer 1 2
    front.length = headerSize ∧ back.length = trailerSize ∧
      parse (front ++ inner ++ back) = .ok affine ∧ (front ++ inner ++ back).length = 136 ∧
      parse (front ++ inner ++ [7, 0, 9] ++ back) = .error (.sizeMismatch 136 139) ∧
      (∃ cause, parse (front ++ inner.dropLast ++ back) = .error (.format cause)) ∧
      ∃ g, parse ((front ++ inner ++ [7, 0, 9] ++ back).take (136 - trailerSize) ++
        (front ++ inner ++ [7, 0, 9] ++ back).drop (139 - trailerSize)) = .ok g := by
  intro front inner back
  obtain ⟨hparts, hsizes⟩ := records_self_delimiting
  have hread : parse (front ++ inner ++ back) = .ok affine := by decide +kernel
  have hlength : (front ++ inner ++ back).length = 136 := by decide +kernel
  obtain ⟨hmore, hless⟩ := hparts front inner back affine rfl rfl hread
  have hlonger := hmore [7, 0, 9] (by decide)
  rw [hlength] at hlonger
  exact ⟨rfl, rfl, hread, hlength, hlonger,
    hless inner.dropLast (List.dropLast_prefix inner) (by decide +kernel),
    (hsizes _ 136 139 hlonger).2.2⟩

end Inference.ModelFile
