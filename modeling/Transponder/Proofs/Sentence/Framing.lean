import Transponder.Proofs.Sentence.RoundTrip

/-!
# A sentence that was accepted can be sent again

Whatever line `parse` accepts, its fields hold none of the characters that a line is taken apart at
(`wellFormed_of_parse`): a tag block ends at the first backslash, a body at the first star and a
field at the next comma. So the fields are rendered to a valid line that is read back as they are,
with the checksum of the new line (`framing`).
-/

namespace Transponder

theorem exists_of_bind_eq_ok {α β : Type} {x : Except Error α} {f : α → Except Error β} {b : β}
    (h : (x >>= f) = .ok b) : ∃ a, x = .ok a ∧ f a = .ok b := by
  cases x with
  | error e => cases h
  | ok a => exact ⟨a, rfl, h⟩

namespace Sentence

theorem eq_ok_of_valueOf {α : Type} {x : Except ValueError α} {a : α} (h : valueOf x = .ok a) :
    x = .ok a := by
  cases x with
  | error e => cases h
  | ok b => exact congrArg Except.ok (Except.ok.inj h)

variable {s : Sentence} {line : String} {validate : Bool} {cs body : List Char}
  {tagBlock : Option String} {checksum : Option UInt8}

/-! ## The parts of a line that was accepted -/

theorem not_mem_of_splitTagBlock (h : splitTagBlock cs = .ok (tagBlock, body)) :
    ∀ tag ∈ tagBlock, '\\' ∉ tag.toList := by
  unfold splitTagBlock at h
  split at h
  case h_1 rest =>
    split at h
    case h_1 front back hbreak =>
      cases h
      intro tag htag
      cases htag
      rw [String.toList_ofList]
      exact Text.not_mem_of_breakAt? hbreak
    case h_2 => cases h
  case h_2 =>
    cases h
    exact fun tag htag => nomatch htag

theorem not_mem_of_splitChecksum (h : splitChecksum cs = .ok (body, checksum)) : '*' ∉ body := by
  unfold splitChecksum at h
  split at h
  case h_1 => cases h
  case h_2 start inner =>
    split at h
    case isFalse => cases h
    case isTrue =>
      split at h
      case h_1 front field hbreak =>
        obtain ⟨sum, -, h⟩ := exists_of_bind_eq_ok h
        cases h
        exact Text.not_mem_of_breakAt? hbreak
      case h_2 hbreak =>
        cases h
        exact Text.not_mem_of_breakAt?_eq_none hbreak

theorem isField_of_mem_splitAt (hstar : '*' ∉ body) {field : List Char}
    (h : field ∈ Text.splitAt ',' body) : IsField field where
  comma hc := (Text.of_mem_splitAt h ',' hc).2 rfl
  star hs := hstar (Text.of_mem_splitAt h '*' hs).1

/-- A field that is not there is empty. -/
theorem isField_getD (hstar : '*' ∉ body) (index : Nat) :
    IsField ((Text.splitAt ',' body).getD index []) := by
  rw [List.getD_eq_getElem?_getD]
  cases hfield : (Text.splitAt ',' body)[index]? with
  | none => exact ⟨List.not_mem_nil, List.not_mem_nil⟩
  | some field => exact isField_of_mem_splitAt hstar (List.mem_of_getElem? hfield)

/-- The talker of an address that was accepted is its first two characters in upper case. -/
theorem talker_of_parse {text : String} {a : Address} (h : Address.parse text = .ok a) :
    a.talker.toList = (text.toList.take 2).map Char.toUpper ∧
      (text.toList.take 2).length = 2 ∧ ∀ c ∈ text.toList.take 2, Text.isAscii c = true := by
  unfold Address.parse at h
  by_cases hshape : (decide (Text.byteLength text.toList ≠ 5) ||
      !text.toList.all Text.isAscii) = true
  · rw [if_pos hshape] at h
    cases h
  rw [if_neg hshape] at h
  simp only [Bool.or_eq_true, decide_eq_true_eq, Bool.not_eq_true', not_or, Decidable.not_not,
    Bool.not_eq_false] at hshape
  have hascii : ∀ c ∈ text.toList, Text.isAscii c = true := List.all_eq_true.mp hshape.2
  have htake : ∀ c ∈ text.toList.take 2, Text.isAscii c = true := fun c hc =>
    hascii c (List.mem_of_mem_take hc)
  have hlength : (text.toList.take 2).length = 2 := by
    have hfive := hshape.1
    rw [Text.byteLength_of_isAscii hascii] at hfive
    rw [List.length_take]
    omega
  split at h
  case h_2 => cases h
  case h_1 =>
    refine ⟨?_, hlength, htake⟩
    have hsame : (String.ofList (text.toList.take 2)).toList.take 2 = text.toList.take 2 := by
      rw [String.toList_ofList, List.take_take, Nat.min_self]
    rw [← Except.ok.inj h, Address.ofTalker_of_isAscii _ hsame hlength htake,
      String.toList_ofList]

theorem isField_map_toUpper (hascii : ∀ c ∈ cs, Text.isAscii c = true) (h : IsField cs) :
    IsField (cs.map Char.toUpper) := by
  -- A character that is no letter is the upper case of nothing but itself.
  have hother : ∀ d, d.isAlphanum = false → d ∈ cs.map Char.toUpper → d ∈ cs := by
    intro d hd hmem
    obtain ⟨c, hc, rfl⟩ := List.mem_map.mp hmem
    rcases (Text.toUpper_of_isAscii (hascii c hc)).2.2 with hsame | hletter
    · rwa [hsame]
    · rw [hd] at hletter
      cases hletter
  exact ⟨fun hc => h.comma (hother ',' rfl hc), fun hs => h.star (hother '*' rfl hs)⟩

theorem channel_of_parseChannel {channel : Option Char} (h : parseChannel cs = .ok channel) :
    channel.toList = cs ∧ ∀ c ∈ channel, Text.isGraphic c = true := by
  unfold parseChannel at h
  split at h
  case h_1 =>
    cases h
    exact ⟨rfl, fun c hc => nomatch hc⟩
  case h_2 c =>
    split at h
    case isTrue hgraphic =>
      cases h
      exact ⟨rfl, fun d hd => Option.some.inj hd ▸ hgraphic⟩
    case isFalse => cases h
  case h_3 => cases h

/-- What a body that was accepted says about the fields of its sentence. -/
theorem ofBody_eq_ok (h : ofBody tagBlock checksum body = .ok s) :
    Address.parse (String.ofList ((Text.splitAt ',' body).getD 0 [])) = .ok s.address ∧
      0 < s.fragmentNumber ∧ s.fragmentNumber ≤ s.fragmentCount ∧
      s.sequenceId = String.ofList ((Text.splitAt ',' body).getD 3 []) ∧
      parseChannel ((Text.splitAt ',' body).getD 4 []) = .ok s.channel ∧
      (∃ payload ∈ Text.splitAt ',' body, s.payload = String.ofList payload) ∧
      s.fillBits ≤ maxFillBits ∧ s.tagBlock = tagBlock := by
  unfold ofBody at h
  obtain ⟨address, haddress, h⟩ := exists_of_bind_eq_ok h
  obtain ⟨count, -, h⟩ := exists_of_bind_eq_ok h
  obtain ⟨number, -, h⟩ := exists_of_bind_eq_ok h
  dsimp only at h
  by_cases hrange : count = 0 ∨ number = 0 ∨ count < number
  · rw [if_pos hrange] at h
    cases h
  rw [if_neg hrange] at h
  rw [not_or, not_or] at hrange
  obtain ⟨channel, hchannel, h⟩ := exists_of_bind_eq_ok h
  split at h
  case h_1 => cases h
  case h_2 payload hpayload =>
    obtain ⟨fillBits, -, h⟩ := exists_of_bind_eq_ok h
    by_cases hmax : maxFillBits < fillBits
    · rw [if_pos hmax] at h
      cases h
    rw [if_neg hmax] at h
    cases h
    exact ⟨eq_ok_of_valueOf haddress, UInt8.pos_iff_ne_zero.mpr hrange.2.1,
      UInt8.not_lt.mp hrange.2.2, rfl, eq_ok_of_valueOf hchannel,
      ⟨payload, List.mem_of_getElem? hpayload, rfl⟩, UInt8.not_lt.mp hmax, rfl⟩

/-- The fields of a body that was accepted. -/
theorem wellFormed_of_ofBody (h : ofBody tagBlock checksum body = .ok s)
    (htag : ∀ tag ∈ tagBlock, '\\' ∉ tag.toList) (hstar : '*' ∉ body) : s.WellFormed := by
  obtain ⟨haddress, hpos, hle, hsequence, hchannel, ⟨payload, hmem, hpayload⟩, hfill, htags⟩ :=
    ofBody_eq_ok h
  obtain ⟨htalker, hlength, hascii⟩ := talker_of_parse haddress
  rw [String.toList_ofList] at htalker hlength hascii
  obtain ⟨hfield, hgraphic⟩ := channel_of_parseChannel hchannel
  have hfirst := isField_getD hstar 0
  exact {
    talker_length := by rw [htalker, List.length_map, hlength]
    talker_ascii := by
      rw [htalker, List.forall_mem_map]
      exact fun c hc => (Text.toUpper_of_isAscii (hascii c hc)).1
    talker_upper := by
      rw [htalker, List.forall_mem_map]
      exact fun c hc => (Text.toUpper_of_isAscii (hascii c hc)).2.1
    talker := by
      rw [htalker]
      refine isField_map_toUpper hascii ⟨fun hc => ?_, fun hs => ?_⟩
      · exact hfirst.comma (List.mem_of_mem_take hc)
      · exact hfirst.star (List.mem_of_mem_take hs)
    number_pos := hpos
    number_le := hle
    sequenceId := by
      rw [hsequence, String.toList_ofList]
      exact isField_getD hstar 3
    channel_graphic := hgraphic
    channel := by
      rw [hfield]
      exact isField_getD hstar 4
    payload := by
      rw [hpayload, String.toList_ofList]
      exact isField_of_mem_splitAt hstar hmem
    fillBits_le := hfill
    tagBlock := by
      rw [htags]
      exact htag }

theorem checkChecksum_eq_ok_iff :
    checkChecksum body checksum = .ok () ↔ checksum = some (checksumOf body) := by
  cases checksum with
  | none => exact ⟨nofun, nofun⟩
  | some sum =>
    rw [checkChecksum, Option.some.injEq]
    by_cases hsum : checksumOf body = sum
    · rw [if_pos hsum]
      exact iff_of_true rfl hsum.symm
    · rw [if_neg hsum]
      exact iff_of_false nofun (Ne.symm hsum)

/-- What a line that is accepted is taken apart into. -/
theorem parse_eq_ok_iff : parse line validate = .ok s ↔ ∃ tagBlock sentence body checksum,
    splitTagBlock (Text.trim line.toList) = .ok (tagBlock, sentence) ∧
      splitChecksum sentence = .ok (body, checksum) ∧
      (validate = true → checksum = some (checksumOf body)) ∧
      ofBody tagBlock checksum body = .ok s := by
  constructor
  · intro h
    unfold parse at h
    obtain ⟨⟨tagBlock, sentence⟩, htag, h⟩ := exists_of_bind_eq_ok h
    obtain ⟨⟨body, checksum⟩, hbody, h⟩ := exists_of_bind_eq_ok h
    cases validate with
    | false => exact ⟨tagBlock, sentence, body, checksum, htag, hbody, nofun, h⟩
    | true =>
      obtain ⟨⟨⟩, hcheck, hfields⟩ := exists_of_bind_eq_ok h
      exact ⟨tagBlock, sentence, body, checksum, htag, hbody,
        fun _ => checkChecksum_eq_ok_iff.mp hcheck, hfields⟩
  · rintro ⟨tagBlock, sentence, body, checksum, htag, hbody, hcheck, hfields⟩
    simp only [parse, htag, hbody, bind, Except.bind]
    cases validate with
    | false => exact hfields
    | true =>
      simp only [checkChecksum_eq_ok_iff.mpr (hcheck rfl), if_true]
      exact hfields

/-- The fields of a line that was accepted. -/
theorem wellFormed_of_parse (h : parse line validate = .ok s) : s.WellFormed := by
  obtain ⟨tagBlock, sentence, body, checksum, htag, hbody, -, hfields⟩ := parse_eq_ok_iff.mp h
  exact wellFormed_of_ofBody hfields (not_mem_of_splitTagBlock htag)
    (not_mem_of_splitChecksum hbody)

/-! ## The round trip -/

theorem WellFormed.isValid_render (h : s.WellFormed) : isValid s.render = true := by
  have htag : splitTagBlock (Text.trim s.render.toList) = .ok
      (s.tagBlock, '!' :: (s.body ++ '*' :: Text.hexByte true (checksumOf s.body))) := by
    rw [toList_render, trim_lineChars, h.splitTagBlock_lineChars]
  unfold isValid
  simp only [htag, h.splitChecksum_eq_ok, bind, Except.bind, beq_self_eq_true]

/-- The fields of every line that is accepted are well-formed, well-formed fields are rendered to a
valid line, and the fields of that line are the same ones with the checksum that was written. -/
theorem framing :
    (∀ line validate s, parse line validate = .ok s → s.WellFormed) ∧
      (∀ s : Sentence, s.WellFormed → isValid s.render = true ∧
        parse s.render true = .ok { s with checksum := some (checksumOf s.body) }) ∧
      ∀ line validate s, parse line validate = .ok s → isValid s.render = true ∧
        parse s.render true = .ok { s with checksum := some (checksumOf s.body) } := by
  have hrendered : ∀ s : Sentence, s.WellFormed → isValid s.render = true ∧
      parse s.render true = .ok { s with checksum := some (checksumOf s.body) } :=
    fun s hs => ⟨hs.isValid_render, hs.parse_render true⟩
  exact ⟨fun line validate s h => wellFormed_of_parse h, hrendered,
    fun line validate s h => hrendered s (wellFormed_of_parse h)⟩

/-- A line with white space around it, a star in its tag block, the other start, a talker in lower
case, empty fields and a field too many. -/
def unusualLine : String :=
  "  \\s:a,c:1*2\\$aiVDM,,,7,,13aEOn?P00PD3wVMdLDRhgvL289?,,x\t"

theorem framing_unusualLine :
    ∃ s, parse unusualLine false = .ok s ∧ s.tagBlock = some "s:a,c:1*2" ∧ s.checksum = none ∧
      isValid s.render = true ∧ parse s.render true = .ok { s with checksum := some 0x74 } := by
  have hvalues : (parse unusualLine false).toOption.map (fun s =>
      (s.tagBlock, s.checksum, checksumOf s.body)) = some (some "s:a,c:1*2", none, 0x74) := by
    decide +kernel
  cases h : parse unusualLine false with
  | error e =>
    rw [h] at hvalues
    cases hvalues
  | ok s =>
    rw [h] at hvalues
    obtain ⟨htag, hvalues⟩ := Prod.mk.inj (Option.some.inj hvalues)
    obtain ⟨hnone, hsum⟩ := Prod.mk.inj hvalues
    obtain ⟨-, -, hagain⟩ := framing
    obtain ⟨hvalid, hparse⟩ := hagain unusualLine false s h
    rw [hsum] at hparse
    exact ⟨s, rfl, htag, hnone, hvalid, hparse⟩

end Sentence

end Transponder
