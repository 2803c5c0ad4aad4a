import Transponder.Proofs.Sentence.Framing
import Transponder.Proofs.Text.Numerals

/-!
# Which checksums and numbers are accepted

`Frames` takes a line apart without reading it: a tag block, the start, the body up to the first
star and what stands behind it between blanks. A line is valid just if what stands there is the
checksum of the body in two hexadecimal digits, or in one behind a plus sign; a number field of a
line that is accepted is empty or a numeral, which may have a plus sign as well
(`checksum_and_numerals`). The plus sign is the only text besides digits that is let through: `+2`
is taken for `02` (`isValid_of_plus`).
-/

namespace Transponder.Sentence

variable {cs body field digits : List Char} {sum : UInt8} {tagBlock : Option String}
  {line : String} {s : Sentence}

/-- What may stand in front of a sentence. -/
def IsTagBlock (cs : List Char) : Prop :=
  cs = [] ∨ ∃ tag, '\\' ∉ tag ∧ cs = '\\' :: tag ++ ['\\']

/-- A line with this body, and with these characters behind the star, blanks at their ends apart. -/
def Frames (line : String) (body digits : List Char) : Prop :=
  ∃ tag start field, Text.trim line.toList = tag ++ start :: body ++ '*' :: field ∧
    IsTagBlock tag ∧ (start = '!' ∨ start = '$') ∧ '*' ∉ body ∧ Text.trim field = digits

/-- Two hexadecimal digits, each in upper or in lower case. -/
def IsHexPair (digits : List Char) (sum : UInt8) : Prop :=
  ∃ upper upper', digits =
    [Text.hexDigit upper (sum.toNat / 16), Text.hexDigit upper' (sum.toNat % 16)]

/-- A plus sign and one hexadecimal digit. -/
def IsSignedDigit (digits : List Char) (sum : UInt8) : Prop :=
  sum.toNat < 16 ∧ ∃ upper, digits = ['+', Text.hexDigit upper sum.toNat]

/-! ## The characters of a checksum -/

theorem length_le_byteLength (cs : List Char) : cs.length ≤ Text.byteLength cs := by
  induction cs with
  | nil => exact Nat.zero_le _
  | cons c cs ih =>
    have hc := c.utf8Size_pos
    rw [Text.byteLength_cons, List.length_cons]
    omega

/-- A character of two bytes is no number. -/
theorem natural?_of_two_bytes {c : Char} (h : Text.byteLength [c] = 2) :
    Text.natural? 16 255 [c] = none := by
  have hascii : Text.isAscii c ≠ true := fun hc => by
    rw [Text.byteLength_of_isAscii (by simpa using hc)] at h
    cases h
  have hplus : c ≠ '+' := fun hc => hascii (by rw [hc]; decide)
  have hvalue : Text.digitValue? 16 c = none := by
    cases hv : Text.digitValue? 16 c with
    | none => rfl
    | some v => exact absurd (Text.of_digitValue? hv).1 hascii
  rw [Text.natural?, Text.dropPlus, Text.digitsValue?_singleton, hvalue]
  · rfl
  · exact fun cs hcs => hplus (List.cons.inj hcs).1

theorem natural?_plus {c : Char} {n : Nat} :
    Text.natural? 16 255 ['+', c] = some n ↔ n < 16 ∧ ∃ upper, c = Text.hexDigit upper n := by
  rw [Text.natural?, Text.dropPlus, Text.digitsValue?_singleton, Option.filter_eq_some_iff,
    Text.digitValue?_sixteen]
  constructor
  · rintro ⟨⟨hlt, hc⟩, -⟩
    exact ⟨hlt, hc.elim (⟨true, ·⟩) (⟨false, ·⟩)⟩
  · rintro ⟨hlt, upper, hc⟩
    refine ⟨⟨hlt, ?_⟩, decide_eq_true (by omega)⟩
    cases upper
    · exact .inr hc
    · exact .inl hc

theorem natural?_pair {c d : Char} {n : Nat} (hc : c ≠ '+') :
    Text.natural? 16 255 [c, d] = some n ↔ n < 256 ∧ ∃ upper upper',
      c = Text.hexDigit upper (n / 16) ∧ d = Text.hexDigit upper' (n % 16) := by
  have hdrop : Text.dropPlus [c, d] = [c, d] := by
    rw [Text.dropPlus]
    exact fun cs hcs => hc (List.cons.inj hcs).1
  rw [Text.natural?, hdrop, Text.digitsValue?_pair, Option.filter_eq_some_iff]
  constructor
  · rintro ⟨hvalue, hle⟩
    obtain ⟨x, hx, hvalue⟩ := Option.bind_eq_some_iff.mp hvalue
    obtain ⟨y, hy, rfl⟩ := Option.map_eq_some_iff.mp hvalue
    obtain ⟨hxlt, hx⟩ := Text.digitValue?_sixteen.mp hx
    obtain ⟨hylt, hy⟩ := Text.digitValue?_sixteen.mp hy
    have hhigh : (x * 16 + y) / 16 = x := by omega
    have hlow : (x * 16 + y) % 16 = y := by omega
    rw [hhigh, hlow]
    refine ⟨by omega, ?_⟩
    rcases hx with hx | hx <;> rcases hy with hy | hy <;> exact ⟨_, _, hx, hy⟩
  · rintro ⟨hlt, upper, upper', hx, hy⟩
    have hhigh : Text.digitValue? 16 c = some (n / 16) :=
      Text.digitValue?_sixteen.mpr ⟨by omega, by cases upper <;> simp [hx]⟩
    have hlow : Text.digitValue? 16 d = some (n % 16) :=
      Text.digitValue?_sixteen.mpr ⟨by omega, by cases upper' <;> simp [hy]⟩
    rw [hhigh, hlow]
    refine ⟨congrArg some ?_, decide_eq_true (by omega)⟩
    show n / 16 * 16 + n % 16 = n
    omega

theorem readChecksum_eq_ok_iff_natural? : readChecksum field = .ok sum ↔
    Text.byteLength (Text.trim field) = 2 ∧
      Text.natural? 16 255 (Text.trim field) = some sum.toNat := by
  unfold readChecksum
  dsimp only
  by_cases hlength : Text.byteLength (Text.trim field) = 2
  · rw [if_pos hlength]
    cases hvalue : Text.natural? 16 255 (Text.trim field) with
    | none => exact ⟨fun h => (nomatch h), fun h => (nomatch h.2)⟩
    | some n =>
      have hle : n ≤ 255 := of_decide_eq_true (Option.filter_eq_some_iff.mp hvalue).2
      refine ⟨fun h => ⟨hlength, congrArg some ?_⟩, fun h => congrArg Except.ok ?_⟩
      · rw [← Except.ok.inj h]
        exact (UInt8.toNat_ofNat_of_lt' (Nat.lt_succ_of_le hle)).symm
      · rw [Option.some.inj h.2, UInt8.ofNat_toNat]
  · rw [if_neg hlength]
    exact ⟨fun h => (nomatch h), fun h => absurd h.1 hlength⟩

theorem hexDigit_ascii : ∀ n < 16, ∀ upper, Text.isAscii (Text.hexDigit upper n) = true ∧
    Text.hexDigit upper n ≠ '+' := by
  decide

/-- What a checksum field has to be for its value. -/
theorem readChecksum_eq_ok_iff : readChecksum field = .ok sum ↔
    IsHexPair (Text.trim field) sum ∨ IsSignedDigit (Text.trim field) sum := by
  rw [readChecksum_eq_ok_iff_natural?]
  generalize Text.trim field = ds
  have hsum := sum.toNat_lt
  constructor
  · rintro ⟨hlength, hvalue⟩
    match ds with
    | [] => cases hlength
    | [c] => rw [natural?_of_two_bytes hlength] at hvalue; cases hvalue
    | [c, d] =>
      by_cases hc : c = '+'
      · rw [hc] at hvalue
        obtain ⟨hlt, upper, hd⟩ := natural?_plus.mp hvalue
        exact .inr ⟨hlt, upper, by rw [hc, hd]⟩
      · obtain ⟨-, upper, upper', hhigh, hlow⟩ := (natural?_pair hc).mp hvalue
        exact .inl ⟨upper, upper', by rw [← hhigh, ← hlow]⟩
    | c :: d :: e :: ds =>
      have hle := length_le_byteLength (c :: d :: e :: ds)
      rw [List.length_cons, List.length_cons, List.length_cons] at hle
      omega
  · rintro (⟨upper, upper', rfl⟩ | ⟨hlt, upper, rfl⟩)
    · obtain ⟨hascii, hplus⟩ := hexDigit_ascii (sum.toNat / 16) (by omega) upper
      obtain ⟨hascii', -⟩ := hexDigit_ascii (sum.toNat % 16) (by omega) upper'
      refine ⟨?_, (natural?_pair hplus).mpr ⟨hsum, upper, upper', rfl, rfl⟩⟩
      rw [Text.byteLength_of_isAscii (by simp [hascii, hascii'])]
      rfl
    · obtain ⟨hascii, -⟩ := hexDigit_ascii sum.toNat hlt upper
      refine ⟨?_, natural?_plus.mpr ⟨hlt, upper, rfl⟩⟩
      have hplus : Text.isAscii '+' = true := by decide
      rw [Text.byteLength_of_isAscii (by simp [hascii, hplus])]
      rfl

/-! ## The parts of a line -/

theorem splitTagBlock_eq_ok_iff {start : Char} {inner : List Char} (hstart : start ≠ '\\') :
    (∃ tagBlock, splitTagBlock cs = .ok (tagBlock, start :: inner)) ↔
      ∃ tag, IsTagBlock tag ∧ cs = tag ++ start :: inner := by
  constructor
  · rintro ⟨tagBlock, h⟩
    unfold splitTagBlock at h
    split at h
    case h_1 rest =>
      split at h
      case h_1 tag sentence hbreak =>
        obtain ⟨hmem, rfl⟩ := Text.breakAt?_eq_some_iff.mp hbreak
        cases h
        exact ⟨'\\' :: tag ++ ['\\'], .inr ⟨tag, hmem, rfl⟩, by simp⟩
      case h_2 => cases h
    case h_2 =>
      cases h
      exact ⟨[], .inl rfl, rfl⟩
  · rintro ⟨tag, rfl | ⟨text, hmem, rfl⟩, rfl⟩
    · refine ⟨none, ?_⟩
      rw [List.nil_append, splitTagBlock]
      exact fun rest hrest => hstart (List.cons.inj hrest).1
    · refine ⟨some (String.ofList text), ?_⟩
      have hbreak : Text.breakAt? '\\' (text ++ '\\' :: start :: inner) =
          some (text, start :: inner) := Text.breakAt?_append hmem
      rw [List.cons_append, List.cons_append, List.append_assoc, List.singleton_append,
        splitTagBlock, hbreak]

theorem splitChecksum_eq_ok_iff : splitChecksum cs = .ok (body, some sum) ↔
    ∃ start field, (start = '!' ∨ start = '$') ∧ cs = start :: (body ++ '*' :: field) ∧
      '*' ∉ body ∧ readChecksum field = .ok sum := by
  constructor
  · intro h
    unfold splitChecksum at h
    split at h
    case h_1 => cases h
    case h_2 start inner =>
      split at h
      case isFalse => cases h
      case isTrue hstart =>
        split at h
        case h_1 front field hbreak =>
          obtain ⟨carried, hread, h⟩ := exists_of_bind_eq_ok h
          obtain ⟨hmem, rfl⟩ := Text.breakAt?_eq_some_iff.mp hbreak
          cases h
          exact ⟨start, field, by simpa using hstart, rfl, hmem, hread⟩
        case h_2 => cases h
  · rintro ⟨start, field, hstart, rfl, hmem, hread⟩
    have hbang : (decide (start = '!') || decide (start = '$')) = true := by simpa using hstart
    rw [splitChecksum, if_pos hbang, Text.breakAt?_append hmem]
    show (readChecksum field >>= fun sum => .ok (body, some sum)) = _
    rw [hread]
    rfl

theorem ne_backslash {start : Char} (hstart : start = '!' ∨ start = '$') : start ≠ '\\' := by
  rintro rfl
  exact absurd hstart (by decide)

/-- A line is taken apart in one way. -/
theorem Frames.eq {body' digits' : List Char} (h : Frames line body digits)
    (h' : Frames line body' digits') : body' = body ∧ digits' = digits := by
  obtain ⟨tag, start, field, hline, htag, hstart, hmem, rfl⟩ := h
  obtain ⟨tag', start', field', hline', htag', hstart', hmem', rfl⟩ := h'
  obtain ⟨block, hblock⟩ := (splitTagBlock_eq_ok_iff (ne_backslash hstart)).mpr
    ⟨tag, htag, hline.trans (List.append_assoc _ _ _)⟩
  obtain ⟨block', hblock'⟩ := (splitTagBlock_eq_ok_iff (ne_backslash hstart')).mpr
    ⟨tag', htag', hline'.trans (List.append_assoc _ _ _)⟩
  have hsentence := (Prod.mk.inj (Except.ok.inj (hblock.symm.trans hblock'))).2
  have hinner : body ++ '*' :: field = body' ++ '*' :: field' := (List.cons.inj hsentence).2
  have hbreak : Text.breakAt? '*' (body ++ '*' :: field) = some (body, field) :=
    Text.breakAt?_append hmem
  rw [hinner, Text.breakAt?_append hmem'] at hbreak
  obtain ⟨rfl, rfl⟩ := Prod.mk.inj (Option.some.inj hbreak)
  exact ⟨rfl, rfl⟩

/-- The two halves of a line that carries a checksum. -/
theorem frames_of_split {sentence : List Char}
    (htag : splitTagBlock (Text.trim line.toList) = .ok (tagBlock, sentence))
    (hbody : splitChecksum sentence = .ok (body, some sum)) :
    ∃ digits, Frames line body digits ∧ (IsHexPair digits sum ∨ IsSignedDigit digits sum) := by
  obtain ⟨start, field, hstart, rfl, hmem, hread⟩ := splitChecksum_eq_ok_iff.mp hbody
  obtain ⟨tag, hblock, hline⟩ := (splitTagBlock_eq_ok_iff (ne_backslash hstart)).mp ⟨_, htag⟩
  exact ⟨Text.trim field, ⟨tag, start, field, by rw [hline, List.append_assoc]; rfl, hblock, hstart,
    hmem, rfl⟩, readChecksum_eq_ok_iff.mp hread⟩

theorem split_of_frames (h : Frames line body digits)
    (hsum : IsHexPair digits sum ∨ IsSignedDigit digits sum) :
    ∃ tagBlock sentence, splitTagBlock (Text.trim line.toList) = .ok (tagBlock, sentence) ∧
      splitChecksum sentence = .ok (body, some sum) := by
  obtain ⟨tag, start, field, hline, htag, hstart, hmem, rfl⟩ := h
  obtain ⟨block, hblock⟩ := (splitTagBlock_eq_ok_iff (ne_backslash hstart)).mpr
    ⟨tag, htag, hline.trans (List.append_assoc _ _ _)⟩
  exact ⟨block, _, hblock, splitChecksum_eq_ok_iff.mpr
    ⟨start, field, hstart, rfl, hmem, readChecksum_eq_ok_iff.mpr hsum⟩⟩

theorem isValid_iff_split : isValid line = true ↔ ∃ tagBlock sentence body,
    splitTagBlock (Text.trim line.toList) = .ok (tagBlock, sentence) ∧
      splitChecksum sentence = .ok (body, some (checksumOf body)) := by
  unfold isValid
  dsimp only
  constructor
  · intro h
    split at h
    case h_1 body sum hsplit =>
      obtain ⟨⟨tagBlock, sentence⟩, htag, hbody⟩ := exists_of_bind_eq_ok hsplit
      rw [← eq_of_beq h] at hbody
      exact ⟨tagBlock, sentence, body, htag, hbody⟩
    case h_2 => cases h
  · rintro ⟨tagBlock, sentence, body, htag, hbody⟩
    simp only [htag, hbody, bind, Except.bind, beq_self_eq_true]

theorem isValid_iff : isValid line = true ↔ ∃ body digits, Frames line body digits ∧
    (IsHexPair digits (checksumOf body) ∨ IsSignedDigit digits (checksumOf body)) := by
  rw [isValid_iff_split]
  constructor
  · rintro ⟨tagBlock, sentence, body, htag, hbody⟩
    obtain ⟨digits, hframes, hsum⟩ := frames_of_split htag hbody
    exact ⟨body, digits, hframes, hsum⟩
  · rintro ⟨body, digits, hframes, hsum⟩
    obtain ⟨tagBlock, sentence, htag, hbody⟩ := split_of_frames hframes hsum
    exact ⟨tagBlock, sentence, body, htag, hbody⟩

/-! ## The number fields -/

/-- A body whose three number fields are not there, are empty or hold numerals. -/
def HasNumerals (body : List Char) : Prop :=
  ∀ index ∈ [1, 2, 6], ∀ field ∈ (Text.splitAt ',' body)[index]?,
    field = [] ∨ Text.IsNumeral field

theorem isNumeral_of_numericField {fields : List (List Char)} {index : Nat} {name : NumericField}
    {missing value : UInt8} (h : numericField fields index name missing = .ok value) :
    ∀ field ∈ fields[index]?, field = [] ∨ Text.IsNumeral field := by
  intro field hfield
  rw [numericField, List.getD_eq_getElem?_getD, Option.mem_def.mp hfield, Option.getD_some] at h
  split at h
  case h_1 => exact .inl rfl
  case h_2 =>
    split at h
    case h_1 n hvalue => exact .inr (Text.isNumeral_of_natural? hvalue)
    case h_2 => cases h

theorem hasNumerals_of_ofBody {checksum : Option UInt8}
    (h : ofBody tagBlock checksum body = .ok s) : HasNumerals body := by
  unfold ofBody at h
  obtain ⟨address, -, h⟩ := exists_of_bind_eq_ok h
  obtain ⟨count, hcount, h⟩ := exists_of_bind_eq_ok h
  obtain ⟨number, hnumber, h⟩ := exists_of_bind_eq_ok h
  dsimp only at h
  split at h
  case isTrue => cases h
  case isFalse =>
    obtain ⟨channel, -, h⟩ := exists_of_bind_eq_ok h
    split at h
    case h_1 => cases h
    case h_2 =>
      obtain ⟨fillBits, hfill, -⟩ := exists_of_bind_eq_ok h
      unfold HasNumerals
      simp only [List.forall_mem_cons]
      exact ⟨isNumeral_of_numericField hcount, isNumeral_of_numericField hnumber,
        isNumeral_of_numericField hfill, fun index hindex => absurd hindex List.not_mem_nil⟩

theorem parse_eq_ok (h : parse line true = .ok s) : ∃ tagBlock sentence body,
    splitTagBlock (Text.trim line.toList) = .ok (tagBlock, sentence) ∧
      splitChecksum sentence = .ok (body, some (checksumOf body)) ∧
      ofBody tagBlock (some (checksumOf body)) body = .ok s := by
  obtain ⟨tagBlock, sentence, body, checksum, htag, hbody, hcheck, hfields⟩ := parse_eq_ok_iff.mp h
  obtain rfl := hcheck rfl
  exact ⟨tagBlock, sentence, body, htag, hbody, hfields⟩

/-- Which checksums are valid, and which number fields are accepted. -/
theorem checksum_and_numerals (line : String) :
    (isValid line = true ↔ ∃ body digits, Frames line body digits ∧
      (IsHexPair digits (checksumOf body) ∨ IsSignedDigit digits (checksumOf body))) ∧
    ∀ s, parse line true = .ok s → isValid line = true ∧
      ∀ body digits, Frames line body digits → HasNumerals body := by
  refine ⟨isValid_iff, fun s h => ?_⟩
  obtain ⟨tagBlock, sentence, body, htag, hbody, hfields⟩ := parse_eq_ok h
  refine ⟨isValid_iff_split.mpr ⟨tagBlock, sentence, body, htag, hbody⟩, ?_⟩
  intro body' digits' hframes
  obtain ⟨digits, hframes', -⟩ := frames_of_split htag hbody
  obtain ⟨rfl, -⟩ := hframes'.eq hframes
  exact hasNumerals_of_ofBody hfields

/-- A body with a plus sign in its fragment count and in its fill bits. -/
def plusBody : String :=
  "AIVDM,+1,1,,A,13aEOn?P00PD3wVMdLDRhgvL289?,+0"

/-- The line of that body, with a plus sign in the checksum as well. -/
def plusLine : String :=
  "!" ++ plusBody ++ "*+2"

theorem frames_plusLine : Frames plusLine plusBody.toList ['+', '2'] :=
  ⟨[], '!', ['+', '2'], by decide +kernel, .inl rfl, .inl rfl, by decide +kernel, by decide⟩

theorem checksum_and_numerals_plusLine :
    ∃ s, parse plusLine true = .ok s ∧ isValid plusLine = true ∧
      HasNumerals plusBody.toList := by
  have haccepted : (parse plusLine true).toOption.isSome = true := by decide +kernel
  cases h : parse plusLine true with
  | error e =>
    rw [h] at haccepted
    cases haccepted
  | ok s =>
    obtain ⟨-, hparse⟩ := checksum_and_numerals plusLine
    obtain ⟨hvalid, hfields⟩ := hparse s h
    exact ⟨s, rfl, hvalid, hfields plusBody.toList ['+', '2'] frames_plusLine⟩

/-- The line is valid, and its checksum is not written in two hexadecimal digits. -/
theorem isValid_of_plus : isValid plusLine = true ∧
    ¬∃ body digits, Frames plusLine body digits ∧ IsHexPair digits (checksumOf body) := by
  refine ⟨by decide +kernel, ?_⟩
  rintro ⟨body, digits, hframes, upper, upper', hdigits⟩
  rw [(frames_plusLine.eq hframes).2] at hdigits
  have hhigh := (checksumOf body).toNat_lt
  have hplus := (hexDigit_ascii ((checksumOf body).toNat / 16) (by omega) upper).2
  exact hplus (List.cons.inj hdigits).1.symm

end Transponder.Sentence
