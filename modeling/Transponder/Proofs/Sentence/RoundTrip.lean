import Transponder.Proofs.Sentence.Address
import Transponder.Sentence.Basic

/-!
# Sentences are read back

A sentence whose fields hold none of the characters that a line is taken apart at is rendered to a
line that `parse` reads back, with the checksum that was written (`parse_render`), whether the
checksum is validated or not. The proof takes the line apart in the order of `parse`: the line end,
the tag block, the checksum and the seven fields of the body.
-/

namespace Transponder

namespace Sentence

/-- A text that can be a field: a body is taken apart at commas, and ends at a star. -/
structure IsField (cs : List Char) : Prop where
  comma : ',' ∉ cs
  star : '*' ∉ cs

/-- A sentence that a line can stand for. -/
structure WellFormed (s : Sentence) : Prop where
  talker_length : s.address.talker.toList.length = 2
  talker_ascii : ∀ c ∈ s.address.talker.toList, Text.isAscii c = true
  talker_upper : ∀ c ∈ s.address.talker.toList, c.toUpper = c
  talker : IsField s.address.talker.toList
  number_pos : 0 < s.fragmentNumber
  number_le : s.fragmentNumber ≤ s.fragmentCount
  sequenceId : IsField s.sequenceId.toList
  channel_graphic : ∀ c ∈ s.channel, Text.isGraphic c = true
  channel : IsField s.channel.toList
  payload : IsField s.payload.toList
  fillBits_le : s.fillBits ≤ maxFillBits
  tagBlock : ∀ tag ∈ s.tagBlock, '\\' ∉ tag.toList

/-- The fields of the body. -/
def fields (s : Sentence) : List (List Char) :=
  [s.address.text.toList, Nat.toDigits 10 s.fragmentCount.toNat,
    Nat.toDigits 10 s.fragmentNumber.toNat, s.sequenceId.toList, s.channel.toList,
    s.payload.toList, Nat.toDigits 10 s.fillBits.toNat]

variable {s : Sentence}

/-! ## Fields -/

theorem isField_toDigits (n : Nat) : IsField (Nat.toDigits 10 n) where
  comma h := absurd (Nat.isDigit_of_mem_toDigits (by decide) (by decide) h) (by decide)
  star h := absurd (Nat.isDigit_of_mem_toDigits (by decide) (by decide) h) (by decide)

theorem isField_of_isAlphanum {cs : List Char} (h : ∀ c ∈ cs, c.isAlphanum = true) :
    IsField cs where
  comma hc := absurd (h _ hc) (by decide)
  star hc := absurd (h _ hc) (by decide)

theorem IsField.append {cs ds : List Char} (hc : IsField cs) (hd : IsField ds) :
    IsField (cs ++ ds) where
  comma h := (List.mem_append.mp h).elim hc.comma hd.comma
  star h := (List.mem_append.mp h).elim hc.star hd.star

theorem isField_formatter (f : Formatter) : IsField f.text.toList := by
  cases f <;> exact ⟨by decide, by decide⟩

theorem WellFormed.isField (h : s.WellFormed) : ∀ field ∈ s.fields, IsField field := by
  intro field hf
  simp only [fields, List.mem_cons, List.not_mem_nil, or_false] at hf
  rcases hf with rfl | rfl | rfl | rfl | rfl | rfl | rfl
  · rw [Address.toList_text]
    exact h.talker.append (isField_formatter _)
  · exact isField_toDigits _
  · exact isField_toDigits _
  · exact h.sequenceId
  · exact h.channel
  · exact h.payload
  · exact isField_toDigits _

theorem WellFormed.splitAt_body (h : s.WellFormed) : Text.splitAt ',' s.body = s.fields :=
  Text.splitAt_intercalate s.fields (List.cons_ne_nil _ _) fun field hf => (h.isField field hf).comma

theorem not_mem_intercalate {c d : Char} (hcd : c ≠ d) :
    ∀ fields : List (List Char), (∀ field ∈ fields, c ∉ field) → c ∉ List.intercalate [d] fields
  | [], _ => List.not_mem_nil
  | [field], h => by
    rw [List.intercalate_singleton]
    exact h field List.mem_cons_self
  | field :: next :: fields, h => by
    have ih := not_mem_intercalate hcd (next :: fields) fun field hm =>
      h field (List.mem_cons_of_mem _ hm)
    rw [List.intercalate_cons_cons, List.append_assoc, List.mem_append, not_or]
    refine ⟨h field List.mem_cons_self, ?_⟩
    rw [List.singleton_append, List.mem_cons, not_or]
    exact ⟨hcd, ih⟩

theorem WellFormed.star_not_mem_body (h : s.WellFormed) : '*' ∉ s.body :=
  not_mem_intercalate (by decide) s.fields fun field hf => (h.isField field hf).star

theorem numericField_eq_ok {fields : List (List Char)} {index : Nat} {field : NumericField}
    {missing n : UInt8} (h : fields.getD index [] = Nat.toDigits 10 n.toNat) :
    numericField fields index field missing = .ok n := by
  unfold numericField
  rw [h]
  split
  case h_1 hnil => exact absurd hnil Nat.toDigits_ne_nil
  case h_2 =>
    rw [Text.natural?_toDigits _ n.toNat_lt]
    exact congrArg Except.ok UInt8.ofNat_toNat

theorem WellFormed.regular (h : s.WellFormed) : s.address.Regular :=
  ⟨h.talker_length, h.talker_ascii, h.talker_upper⟩

theorem WellFormed.parseChannel_eq_ok (h : s.WellFormed) :
    parseChannel s.channel.toList = .ok s.channel := by
  cases hc : s.channel with
  | none => rfl
  | some c => exact if_pos (h.channel_graphic c hc)

/-! ## The parts of a line -/

theorem isGraphic_hexByte (sum : UInt8) :
    ∀ c ∈ Text.hexByte true sum, Text.isGraphic c = true := by
  have h := Text.all_isGraphic_hexByte sum.toNat sum.toNat_lt
  rw [UInt8.ofNat_toNat] at h
  exact List.all_eq_true.mp h

theorem readChecksum_hexByte (sum : UInt8) : readChecksum (Text.hexByte true sum) = .ok sum := by
  have hnumber : Text.natural? 16 255 (Text.hexByte true sum) = some sum.toNat := by
    have h := Text.natural?_hexByte sum.toNat sum.toNat_lt
    rwa [UInt8.ofNat_toNat] at h
  have hlength : Text.byteLength (Text.hexByte true sum) = 2 :=
    Text.byteLength_of_isAscii fun c hc => Text.isAscii_of_isGraphic (isGraphic_hexByte sum c hc)
  simp only [readChecksum, Text.trim_of_isGraphic (isGraphic_hexByte sum), hlength, if_true, hnumber]
  rw [UInt8.ofNat_toNat]

/-- What stands in front of a sentence. -/
def tagChars (s : Sentence) : List Char :=
  match s.tagBlock with
  | some tag => '\\' :: tag.toList ++ ['\\']
  | none => []

/-- A line without its line end. -/
def lineChars (s : Sentence) : List Char :=
  s.tagChars ++ '!' :: (s.body ++ '*' :: Text.hexByte true (checksumOf s.body))

theorem toList_render : s.render.toList = s.lineChars ++ ['\r', '\n'] := by
  rw [render, String.toList_ofList, lineChars, tagChars]
  cases s.tagBlock <;> simp only [List.append_assoc, List.cons_append]

/-- A line is trimmed to what stands in front of its line end, whatever stands between its start and
its star. -/
theorem trim_sentenceChars (s : Sentence) (inner : List Char) (sum : UInt8) :
    Text.trim (s.tagChars ++ '!' :: (inner ++ '*' :: Text.hexByte true sum) ++ ['\r', '\n']) =
      s.tagChars ++ '!' :: (inner ++ '*' :: Text.hexByte true sum) := by
  refine Text.trim_append_blanks ?_ ?_ (List.all_eq_true.mp (by decide))
  · intro c hc
    unfold tagChars at hc
    cases ht : s.tagBlock with
    | none =>
      rw [ht] at hc
      cases hc
      decide
    | some tag =>
      rw [ht] at hc
      cases hc
      decide
  · intro c hc
    have hlast : (s.tagChars ++ '!' :: (inner ++ '*' :: Text.hexByte true sum)).getLast? =
        (Text.hexByte true sum).getLast? := by
      rw [← List.cons_append, ← List.append_assoc, List.append_cons, List.getLast?_append]
      rfl
    rw [hlast] at hc
    exact Text.isBlank_of_isGraphic (isGraphic_hexByte _ c (List.mem_of_getLast? hc))

theorem trim_lineChars : Text.trim (s.lineChars ++ ['\r', '\n']) = s.lineChars :=
  trim_sentenceChars s s.body (checksumOf s.body)

/-- A tag block without backslashes is taken off what follows it. -/
theorem splitTagBlock_tagChars (h : ∀ tag ∈ s.tagBlock, '\\' ∉ tag.toList) (inner : List Char) :
    splitTagBlock (s.tagChars ++ '!' :: inner) = .ok (s.tagBlock, '!' :: inner) := by
  unfold tagChars
  cases ht : s.tagBlock with
  | none => rfl
  | some tag =>
    show splitTagBlock ('\\' :: ((tag.toList ++ ['\\']) ++ '!' :: _)) = _
    rw [splitTagBlock, List.append_assoc, List.singleton_append,
      Text.breakAt?_append (h tag ht)]
    show Except.ok (some (String.ofList tag.toList), '!' :: _) = _
    rw [String.ofList_toList]

theorem WellFormed.splitTagBlock_lineChars (h : s.WellFormed) :
    splitTagBlock s.lineChars = .ok
      (s.tagBlock, '!' :: (s.body ++ '*' :: Text.hexByte true (checksumOf s.body))) :=
  splitTagBlock_tagChars h.tagBlock _

theorem WellFormed.splitChecksum_eq_ok (h : s.WellFormed) :
    splitChecksum ('!' :: (s.body ++ '*' :: Text.hexByte true (checksumOf s.body))) =
      .ok (s.body, some (checksumOf s.body)) := by
  rw [splitChecksum, if_pos (by decide), Text.breakAt?_append h.star_not_mem_body]
  show (readChecksum _ >>= _) = _
  rw [readChecksum_hexByte]
  rfl

theorem WellFormed.ofBody_body (h : s.WellFormed) (tagBlock : Option String)
    (checksum : Option UInt8) :
    ofBody tagBlock checksum s.body = .ok { s with checksum, tagBlock } := by
  have hcount : numericField s.fields 1 .fragmentCount 1 = .ok s.fragmentCount :=
    numericField_eq_ok rfl
  have hnumber : numericField s.fields 2 .fragmentNumber 1 = .ok s.fragmentNumber :=
    numericField_eq_ok rfl
  have hfill : numericField s.fields 6 .fillBits 0 = .ok s.fillBits := numericField_eq_ok rfl
  have haddress : valueOf (Address.parse (String.ofList (s.fields.getD 0 []))) = .ok s.address := by
    show valueOf (Address.parse (String.ofList s.address.text.toList)) = _
    rw [String.ofList_toList, h.regular.parse_text]
    rfl
  have hchannel : valueOf (parseChannel (s.fields.getD 4 [])) = .ok s.channel := by
    show valueOf (parseChannel s.channel.toList) = _
    rw [h.parseChannel_eq_ok]
    rfl
  have hrange :
      ¬ (s.fragmentCount = 0 ∨ s.fragmentNumber = 0 ∨ s.fragmentCount < s.fragmentNumber) := by
    have h₁ := h.number_pos
    have h₂ := h.number_le
    simp only [UInt8.lt_iff_toNat_lt, UInt8.le_iff_toNat_le, ← UInt8.toNat_inj] at h₁ h₂ ⊢
    change 0 < s.fragmentNumber.toNat at h₁
    change ¬ (s.fragmentCount.toNat = 0 ∨ s.fragmentNumber.toNat = 0 ∨ _)
    omega
  have hmax : ¬ maxFillBits < s.fillBits := by
    have h₁ := h.fillBits_le
    simp only [UInt8.lt_iff_toNat_lt, UInt8.le_iff_toNat_le] at h₁ ⊢
    omega
  unfold ofBody
  rw [h.splitAt_body]
  have hsequence : s.fields.getD 3 [] = s.sequenceId.toList := rfl
  have hpayload : s.fields[5]? = some s.payload.toList := rfl
  simp only [haddress, hcount, hnumber, hchannel, hpayload, hfill, hsequence, bind, Except.bind,
    if_neg hrange, if_neg hmax, String.ofList_toList]
  rfl

/-- A sentence that is rendered and parsed again has its checksum added, and is otherwise kept. -/
theorem WellFormed.parse_render (h : s.WellFormed) (validate : Bool) :
    parse s.render validate = .ok { s with checksum := some (checksumOf s.body) } := by
  have hcheck : checkChecksum s.body (some (checksumOf s.body)) = .ok () := if_pos rfl
  unfold parse
  rw [toList_render, trim_lineChars]
  simp only [h.splitTagBlock_lineChars, h.splitChecksum_eq_ok, h.ofBody_body, hcheck, bind,
    Except.bind]
  cases validate <;> rfl

end Sentence

end Transponder
