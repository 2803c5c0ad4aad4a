import Transponder.Proofs.Sentence.Checksum
import Transponder.Proofs.Station.Feed

/-!
# Lines with an error in them

A checksum catches every line that was rendered and in which one ASCII character between the start
and the star has become another one (`isValid_of_damages`). As long as the body ends at the same
star, its exclusive or has changed by the two characters (`checksumOf_replace_ne`). If a star has
got into the body, what stands behind it holds the old star, which is no part of a checksum
(`not_mem_of_readChecksum`). The checksum is all that validation adds: a line is accepted with it if
and only if it is valid and is accepted without (`parse_true_iff`).
-/

namespace Transponder

theorem Text.mem_dropWhile {α : Type} {p : α → Bool} {x : α} {xs : List α} (hx : p x = false)
    (h : x ∈ xs) : x ∈ xs.dropWhile p := by
  rw [← List.takeWhile_append_dropWhile (p := p) (l := xs), List.mem_append] at h
  refine h.resolve_left fun htake => ?_
  rw [List.mem_takeWhile_imp htake] at hx
  cases hx

/-- Trimming takes nothing away but blanks. -/
theorem Text.mem_trim {c : Char} {cs : List Char} (hc : isBlank c = false) (h : c ∈ cs) :
    c ∈ trim cs := by
  rw [trim, List.mem_reverse]
  exact mem_dropWhile hc (List.mem_reverse.mpr (mem_dropWhile hc h))

namespace Sentence

variable {s : Sentence} {line : String} {validate : Bool} {front back cs : List Char} {c d : Char}
  {sum : UInt8}

/-- A sentence that is rendered to a body without stars, behind a tag block that ends where it
should. -/
structure Delimited (s : Sentence) : Prop where
  address : '*' ∉ s.address.text.toList
  sequenceId : '*' ∉ s.sequenceId.toList
  channel : '*' ∉ s.channel.toList
  payload : '*' ∉ s.payload.toList
  tagBlock : ∀ tag ∈ s.tagBlock, '\\' ∉ tag.toList

/-- A line is that of a sentence but for one character between the start and the star, which has
become another one; both belong to ASCII. -/
def Damages (s : Sentence) (line : String) : Prop :=
  ∃ before c d after, s.render.toList = before ++ c :: after ∧
    line.toList = before ++ d :: after ∧ c ≠ d ∧ Text.isAscii c = true ∧ Text.isAscii d = true ∧
    s.tagChars.length < before.length ∧ before.length < s.tagChars.length + 1 + s.body.length

/-! ## The exclusive or of a body -/

theorem foldl_xor (xs : List UInt8) (n : UInt8) :
    xs.foldl (· ^^^ ·) n = n ^^^ xs.foldl (· ^^^ ·) 0 := by
  induction xs generalizing n with
  | nil => exact (UInt8.xor_zero).symm
  | cons x xs ih => rw [List.foldl_cons, List.foldl_cons, ih, ih (0 ^^^ x), UInt8.zero_xor,
      UInt8.xor_assoc]

theorem checksumOf_append : checksumOf (front ++ back) = checksumOf front ^^^ checksumOf back := by
  rw [checksumOf, Text.utf8, List.flatMap_append, List.foldl_append, foldl_xor]
  rfl

theorem checksumOf_middle (h : Text.isAscii c = true) : checksumOf (front ++ c :: back) =
    checksumOf front ^^^ UInt8.ofNat c.toNat ^^^ checksumOf back := by
  have hone : checksumOf [c] = UInt8.ofNat c.toNat := by
    rw [checksumOf, Text.utf8, List.flatMap_singleton, Text.utf8EncodeChar_of_isAscii h]
    exact UInt8.zero_xor
  rw [List.append_cons, checksumOf_append, checksumOf_append, hone]

/-- Another character in the place of one changes the checksum. -/
theorem checksumOf_replace_ne (hc : Text.isAscii c = true) (hd : Text.isAscii d = true)
    (hne : c ≠ d) : checksumOf (front ++ d :: back) ≠ checksumOf (front ++ c :: back) := by
  intro hsum
  rw [checksumOf_middle hc, checksumOf_middle hd, UInt8.xor_left_inj, UInt8.xor_right_inj] at hsum
  have hc : c.toNat < 128 := of_decide_eq_true hc
  have hd : d.toNat < 128 := of_decide_eq_true hd
  have hcodes := congrArg UInt8.toNat hsum
  rw [UInt8.toNat_ofNat_of_lt' (show d.toNat < 256 by omega),
    UInt8.toNat_ofNat_of_lt' (show c.toNat < 256 by omega)] at hcodes
  exact hne (Char.toNat_inj.mp hcodes.symm)

/-! ## A star in a checksum -/

theorem hexDigit_ne_star : ∀ n < 16, ∀ upper, Text.hexDigit upper n ≠ '*' := by
  decide

/-- There is no star in a field that is a checksum. -/
theorem not_mem_of_readChecksum (h : readChecksum cs = .ok sum) : '*' ∉ cs := by
  intro hmem
  have hstar : '*' ∈ Text.trim cs := Text.mem_trim (by decide) hmem
  have hsum := sum.toNat_lt
  rcases readChecksum_eq_ok_iff.mp h with ⟨upper, upper', hpair⟩ | ⟨hlt, upper, hsigned⟩
  · rw [hpair, List.mem_cons, List.mem_singleton] at hstar
    rcases hstar with hhigh | hlow
    · exact hexDigit_ne_star _ (by omega) upper hhigh.symm
    · exact hexDigit_ne_star _ (by omega) upper' hlow.symm
  · rw [hsigned, List.mem_cons, List.mem_singleton] at hstar
    rcases hstar with hplus | hdigit
    · exact absurd hplus (by decide)
    · exact hexDigit_ne_star _ hlt upper hdigit.symm

/-! ## A damaged line -/

/-- An element of a list that stands behind its first part and in front of its last one. -/
theorem exists_of_append_eq {α : Type} {xs ys zs before after : List α} {x : α}
    (h : xs ++ (ys ++ zs) = before ++ x :: after) (hl : xs.length ≤ before.length)
    (hu : before.length < xs.length + ys.length) :
    ∃ front back, before = xs ++ front ∧ ys = front ++ x :: back ∧ after = back ++ zs := by
  obtain ⟨front, rfl⟩ : xs <+: before :=
    List.prefix_of_prefix_length_le ⟨_, h⟩ (List.prefix_append _ _) hl
  rw [List.append_assoc] at h
  have hrest : ys ++ zs = front ++ x :: after := List.append_cancel_left h
  obtain ⟨back, rfl⟩ : front ++ [x] <+: ys := by
    refine List.prefix_of_prefix_length_le ⟨after, ?_⟩ (List.prefix_append ys zs) ?_
    · rw [hrest, List.append_assoc, List.singleton_append]
    · rw [List.length_append] at hu
      rw [List.length_append, List.length_singleton]
      omega
  simp only [List.append_assoc, List.singleton_append] at hrest ⊢
  exact ⟨front, back, rfl, rfl, (List.cons.inj (List.append_cancel_left hrest)).2.symm⟩

theorem Delimited.star_not_mem_body (h : s.Delimited) : '*' ∉ s.body := by
  refine not_mem_intercalate (by decide) s.fields fun field hf => ?_
  simp only [fields, List.mem_cons, List.not_mem_nil, or_false] at hf
  rcases hf with rfl | rfl | rfl | rfl | rfl | rfl | rfl
  · exact h.address
  · exact (isField_toDigits _).star
  · exact (isField_toDigits _).star
  · exact h.sequenceId
  · exact h.channel
  · exact h.payload
  · exact (isField_toDigits _).star

/-- The character that was replaced is one of the body. -/
theorem Damages.exists_body (h : Damages s line) : ∃ front back c d,
    s.body = front ++ c :: back ∧ c ≠ d ∧ Text.isAscii c = true ∧ Text.isAscii d = true ∧
      line.toList = s.tagChars ++
        '!' :: ((front ++ d :: back) ++ '*' :: Text.hexByte true (checksumOf s.body)) ++
          ['\r', '\n'] := by
  obtain ⟨before, c, d, after, hrender, hline, hne, hc, hd, hstart, hstar⟩ := h
  have hparts : (s.tagChars ++ ['!']) ++
      (s.body ++ '*' :: (Text.hexByte true (checksumOf s.body) ++ ['\r', '\n'])) =
        before ++ c :: after := by
    rw [← hrender, toList_render, lineChars]
    simp
  obtain ⟨front, back, rfl, hbody, rfl⟩ := exists_of_append_eq hparts
    (by rw [List.length_append, List.length_singleton]; omega)
    (by rw [List.length_append, List.length_singleton]; omega)
  refine ⟨front, back, c, d, hbody, hne, hc, hd, ?_⟩
  rw [hline]
  simp

/-- What a damaged line is taken apart into is not the checksum of the body in front of it. -/
theorem Delimited.splitChecksum_ne (h : s.Delimited) (hbody : s.body = front ++ c :: back)
    (hne : c ≠ d) (hc : Text.isAscii c = true) (hd : Text.isAscii d = true) (body : List Char) :
    splitChecksum ('!' :: ((front ++ d :: back) ++
      '*' :: Text.hexByte true (checksumOf s.body))) ≠ .ok (body, some (checksumOf body)) := by
  intro hsplit
  obtain ⟨start, field, -, hinner, hmem, hread⟩ := splitChecksum_eq_ok_iff.mp hsplit
  have hstar := h.star_not_mem_body
  rw [hbody, List.mem_append, List.mem_cons, not_or, not_or] at hstar
  have hinner := (List.cons.inj hinner).2
  have hbreak := congrArg (Text.breakAt? '*') hinner
  rw [Text.breakAt?_append hmem] at hbreak
  by_cases hnew : d = '*'
  · -- The body ends at the new star, and the old one stands behind it.
    rw [hnew, List.append_assoc, List.cons_append, Text.breakAt?_append hstar.1] at hbreak
    obtain ⟨-, rfl⟩ := Prod.mk.inj (Option.some.inj hbreak)
    exact not_mem_of_readChecksum hread (List.mem_append_right _ List.mem_cons_self)
  · have hmem' : '*' ∉ front ++ d :: back := by
      rw [List.mem_append, List.mem_cons, not_or, not_or]
      exact ⟨hstar.1, Ne.symm hnew, hstar.2.2⟩
    rw [Text.breakAt?_append hmem'] at hbreak
    obtain ⟨rfl, rfl⟩ := Prod.mk.inj (Option.some.inj hbreak)
    rw [readChecksum_hexByte, hbody] at hread
    exact checksumOf_replace_ne hc hd hne (Except.ok.inj hread).symm

/-- A damaged line is not valid. -/
theorem isValid_of_damages (h : s.Delimited) (hline : Damages s line) : isValid line = false := by
  obtain ⟨front, back, c, d, hbody, hne, hc, hd, hchars⟩ := hline.exists_body
  rw [Bool.eq_false_iff, Ne, isValid_iff_split]
  rintro ⟨tagBlock, sentence, body, htag, hsplit⟩
  rw [hchars, trim_sentenceChars, splitTagBlock_tagChars h.tagBlock] at htag
  obtain ⟨rfl, rfl⟩ := Prod.mk.inj (Except.ok.inj htag)
  exact h.splitChecksum_ne hbody hne hc hd body hsplit

/-! ## With and without validation -/

/-- Validation accepts the valid ones of the lines that are accepted without it. -/
theorem parse_true_iff :
    parse line true = .ok s ↔ isValid line = true ∧ parse line false = .ok s := by
  rw [parse_eq_ok_iff, parse_eq_ok_iff, isValid_iff_split]
  constructor
  · rintro ⟨tagBlock, sentence, body, checksum, htag, hbody, hcheck, hfields⟩
    obtain rfl := hcheck rfl
    exact ⟨⟨tagBlock, sentence, body, htag, hbody⟩, tagBlock, sentence, body, _, htag, hbody, nofun,
      hfields⟩
  · rintro ⟨⟨tagBlock, sentence, body, htag, hbody⟩, tagBlock', sentence', body', checksum, htag',
      hbody', -, hfields⟩
    obtain ⟨rfl, rfl⟩ := Prod.mk.inj (Except.ok.inj (htag.symm.trans htag'))
    obtain ⟨rfl, rfl⟩ := Prod.mk.inj (Except.ok.inj (hbody.symm.trans hbody'))
    exact ⟨tagBlock, sentence, body, _, htag, hbody, fun _ => rfl, hfields⟩

/-- A damaged line is not valid and is refused where checksums are validated, so that a receiver
that does so stays as it was. Where lines are accepted at all, it is the valid ones that validation
accepts, with the same fields. -/
theorem corruption_is_caught :
    (∀ (s : Sentence) (line : String), s.Delimited → Damages s line →
      isValid line = false ∧ ∃ e, parse line true = .error e ∧
        ∀ (r : Receiver) (now : Moment), r.settings.validateChecksum = true →
          r.decode now line = (r, .error e) ∧ (r.parse now line).2 = none) ∧
    ∀ (line : String) (s : Sentence),
      parse line true = .ok s ↔ isValid line = true ∧ parse line false = .ok s := by
  refine ⟨fun s line hs hline => ?_, fun line s => parse_true_iff⟩
  have hvalid : isValid line = false := isValid_of_damages hs hline
  refine ⟨hvalid, ?_⟩
  cases hparse : parse line true with
  | ok s' =>
    rw [(parse_true_iff.mp hparse).1] at hvalid
    cases hvalid
  | error e =>
    refine ⟨e, rfl, fun r now hr => ?_⟩
    have hdecode : r.decode now line = (r, .error e) :=
      Receiver.decode_of_refused (by rw [hr]; exact hparse)
    refine ⟨hdecode, ?_⟩
    rw [(Receiver.parse_eq r now line).1, hdecode]
    rfl

/-- A sentence with a star and a start in its tag block. -/
def taggedSentence : Sentence where
  payload := "13aEOn?P00PD3wVMdLDRhgvL289?"
  channel := some 'A'
  tagBlock := some "s:!x*7"

/-- The count of fill bits, right in front of the star, has become another star. -/
def starredLine : String :=
  "\\s:!x*7\\!AIVDM,1,1,,A,13aEOn?P00PD3wVMdLDRhgvL289?,**02\r\n"

theorem corruption_is_caught_starredLine :
    isValid starredLine = false ∧ (∃ e, parse starredLine true = .error e) ∧
      isValid taggedSentence.render = true := by
  obtain ⟨hdamages, hstrict⟩ := corruption_is_caught
  have hdelimited : taggedSentence.Delimited :=
    ⟨by decide, by decide, by decide, by decide, by decide⟩
  have hline : Damages taggedSentence starredLine :=
    ⟨"\\s:!x*7\\!AIVDM,1,1,,A,13aEOn?P00PD3wVMdLDRhgvL289?,".toList, '0', '*',
      "*02\r\n".toList, by decide +kernel, by decide +kernel, by decide, by decide, by decide,
      by decide, by decide⟩
  obtain ⟨hvalid, e, herror, -⟩ := hdamages taggedSentence starredLine hdelimited hline
  have haccepted : (parse taggedSentence.render true).toOption.isSome = true := by decide +kernel
  refine ⟨hvalid, ⟨e, herror⟩, ?_⟩
  cases hparse : parse taggedSentence.render true with
  | error e =>
    rw [hparse] at haccepted
    cases haccepted
  | ok s => exact ((hstrict taggedSentence.render s).mp hparse).1

end Sentence

end Transponder
