import Transponder.Proofs.Text.Fields
import Transponder.Sentence.Address

/-!
# Addresses are read back

An address of which the talker is two ASCII characters in upper case is read back from its text
(`Regular.parse_text`). The talker that is taken from a text is such a one, or the default, whatever
characters the text holds, with one exception: characters are counted where the text is cut, and bytes
where it is checked, so a character of two bytes that stands alone passes for a talker. The text of that
address is no address (`ofTalker_read_back`).
-/

namespace Transponder

namespace Address

variable {a : Address} {t : String}

/-! ## The parts of the text of an address -/

theorem toList_text (a : Address) : a.text.toList = a.talker.toList ++ a.formatter.text.toList := by
  rw [text, String.toList_append]

theorem isAscii_formatter (f : Formatter) : ∀ c ∈ f.text.toList, Text.isAscii c = true :=
  List.all_eq_true.mp (by cases f <;> decide)

theorem length_formatter (f : Formatter) : f.text.toList.length = 3 := by
  cases f <;> rfl

theorem ofText?_text (f : Formatter) : Formatter.ofText? f.text = some f := by
  cases f <;> rfl

/-- Two characters that belong to ASCII are taken in upper case. -/
theorem ofTalker_of_isAscii {cs : List Char} (f : Formatter) (htake : t.toList.take 2 = cs)
    (hlength : cs.length = 2) (hascii : ∀ c ∈ cs, Text.isAscii c = true) :
    ofTalker t f = ⟨String.ofList (cs.map Char.toUpper), f⟩ := by
  rw [ofTalker, htake, Text.byteLength_of_isAscii hascii, if_pos hlength, Text.upper,
    String.toList_ofList]

/-- An address with a talker of two ASCII characters in upper case. -/
structure Regular (a : Address) : Prop where
  length : a.talker.toList.length = 2
  ascii : ∀ c ∈ a.talker.toList, Text.isAscii c = true
  upper : ∀ c ∈ a.talker.toList, c.toUpper = c

namespace Regular

/-- A talker of two ASCII characters in upper case is taken as it is. -/
theorem ofTalker_talker (h : a.Regular) : ofTalker a.talker a.formatter = a := by
  have htake : a.talker.toList.take 2 = a.talker.toList :=
    List.take_of_length_le (Nat.le_of_eq h.length)
  have hupper : a.talker.toList.map Char.toUpper = a.talker.toList :=
    (List.map_congr_left h.upper).trans (List.map_id' _)
  rw [ofTalker_of_isAscii _ htake h.length h.ascii, hupper, String.ofList_toList]

theorem parse_text (h : a.Regular) : parse a.text = .ok a := by
  have hascii : ∀ c ∈ a.text.toList, Text.isAscii c = true := by
    intro c hc
    rw [toList_text, List.mem_append] at hc
    rcases hc with hc | hc
    · exact h.ascii c hc
    · exact isAscii_formatter _ c hc
  have hlen : a.text.toList.length = 5 := by
    rw [toList_text, List.length_append, h.length, length_formatter]
  unfold parse
  rw [if_neg (by rw [Text.byteLength_of_isAscii hascii, hlen, List.all_eq_true.mpr hascii]; decide)]
  have hdrop : a.text.toList.drop 2 = a.formatter.text.toList := by
    rw [toList_text, ← h.length, List.drop_left]
  have htake : a.text.toList.take 2 = a.talker.toList := by
    rw [toList_text, ← h.length, List.take_left]
  rw [hdrop, htake, String.ofList_toList, String.ofList_toList, ofText?_text]
  show Except.ok (ofTalker a.talker a.formatter) = _
  rw [h.ofTalker_talker]

end Regular

/-! ## The talker of a text -/

/-- The first two characters of a text in upper case, if it has two and both belong to ASCII; else the
default talker. -/
def firstTwo : List Char → String
  | c :: d :: _ =>
    if Text.isAscii c && Text.isAscii d then String.ofList [c.toUpper, d.toUpper] else defaultTalker
  | _ => defaultTalker

/-- Whether a text is a single character of two bytes. -/
def isLoneWide : List Char → Bool
  | [c] => 0x80 ≤ c.toNat && c.toNat < 0x800
  | _ => false

theorem regular_pair {c d : Char} (hc : Text.isAscii c = true) (hd : Text.isAscii d = true)
    (f : Formatter) : Regular ⟨String.ofList [c.toUpper, d.toUpper], f⟩ := by
  obtain ⟨hcascii, hcupper, -⟩ := Text.toUpper_of_isAscii hc
  obtain ⟨hdascii, hdupper, -⟩ := Text.toUpper_of_isAscii hd
  constructor
  · exact congrArg List.length String.toList_ofList
  · rw [String.toList_ofList]
    exact List.forall_mem_cons.mpr ⟨hcascii, List.forall_mem_singleton.mpr hdascii⟩
  · rw [String.toList_ofList]
    exact List.forall_mem_cons.mpr ⟨hcupper, List.forall_mem_singleton.mpr hdupper⟩

theorem regular_firstTwo (cs : List Char) (f : Formatter) : Regular ⟨firstTwo cs, f⟩ := by
  have hdefault : Regular ⟨defaultTalker, f⟩ := by
    have hpair : defaultTalker = String.ofList ['A'.toUpper, 'I'.toUpper] := by decide
    rw [hpair]
    exact regular_pair (by decide) (by decide) f
  unfold firstTwo
  split
  case h_2 => exact hdefault
  case h_1 c d _ =>
    split
    case isFalse => exact hdefault
    case isTrue h => exact regular_pair (Bool.and_eq_true_iff.mp h).1 (Bool.and_eq_true_iff.mp h).2 f

theorem isLoneWide_singleton {c : Char} : isLoneWide [c] = true ↔ c.utf8Size = 2 := by
  rw [Char.utf8Size_eq_two_iff, UInt32.lt_iff_toNat_lt, UInt32.le_iff_toNat_le, isLoneWide,
    Bool.and_eq_true, decide_eq_true_iff, decide_eq_true_iff]
  exact and_congr Nat.succ_le_iff Nat.lt_succ_iff

theorem exists_of_isLoneWide {cs : List Char} (h : isLoneWide cs = true) :
    ∃ c, cs = [c] ∧ Text.isAscii c = false := by
  unfold isLoneWide at h
  split at h
  case h_2 => cases h
  case h_1 c =>
    have hlow := of_decide_eq_true (Bool.and_eq_true_iff.mp h).1
    exact ⟨c, rfl, decide_eq_false (Nat.not_lt.mpr hlow)⟩

/-- Two characters take two bytes if and only if both belong to ASCII. -/
theorem byteLength_pair {c d : Char} :
    Text.byteLength [c, d] = 2 ↔ (Text.isAscii c && Text.isAscii d) = true := by
  have hc := c.utf8Size_pos
  have hd := d.utf8Size_pos
  have hnil : Text.byteLength [] = 0 := rfl
  rw [Bool.and_eq_true, ← Text.utf8Size_eq_one_iff, ← Text.utf8Size_eq_one_iff, Text.byteLength_cons,
    Text.byteLength_cons, hnil]
  omega

/-- The talker that is taken from a text. -/
theorem ofTalker_eq (t : String) (f : Formatter) :
    ofTalker t f = ⟨if isLoneWide t.toList then t else firstTwo t.toList, f⟩ := by
  unfold ofTalker
  dsimp only
  cases ht : t.toList with
  | nil => rfl
  | cons c cs =>
    cases cs with
    | nil =>
      have htake : [c].take 2 = [c] := rfl
      have hlength : Text.byteLength [c] = c.utf8Size := Text.byteLength_cons c []
      rw [htake, hlength]
      by_cases hwide : c.utf8Size = 2
      · have hascii : Text.isAscii c = false := by
          rw [← Bool.not_eq_true, ← Text.utf8Size_eq_one_iff]
          omega
        rw [if_pos hwide, if_pos (isLoneWide_singleton.mpr hwide), Text.upper, String.toList_ofList,
          List.map_singleton, Text.toUpper_of_not_isAscii hascii, ← ht, String.ofList_toList]
      · rw [if_neg hwide, if_neg (mt isLoneWide_singleton.mp hwide)]
        rfl
    | cons d ds =>
      have htake : (c :: d :: ds).take 2 = [c, d] := rfl
      have hlone : isLoneWide (c :: d :: ds) = false := rfl
      rw [htake, hlone, if_neg Bool.false_ne_true, firstTwo]
      by_cases hascii : Text.byteLength [c, d] = 2
      · rw [if_pos hascii, if_pos (byteLength_pair.mp hascii), Text.upper, String.toList_ofList]
        rfl
      · rw [if_neg hascii, if_neg (mt byteLength_pair.mpr hascii)]

/-- A character that does not belong to ASCII is refused wherever it stands. -/
theorem parse_of_not_isAscii {c : Char} (hc : c ∈ t.toList) (h : Text.isAscii c = false) :
    parse t = .error (.address t .shape) := by
  have hall : t.toList.all Text.isAscii = false := by
    rw [List.all_eq_false]
    exact ⟨c, hc, by rw [h]; exact Bool.false_ne_true⟩
  unfold parse
  rw [if_pos (by rw [hall, Bool.not_false, Bool.or_true])]

/-- The talker of an address that is made from a text is two characters, the first two of the text in
upper case or the default, and the address is read back from its own text; but a single character of two
bytes is taken for a talker as it is, and then the text of the address is refused. -/
theorem ofTalker_read_back (t : String) (f : Formatter) :
    (ofTalker t f).formatter = f ∧
    (ofTalker t f).talker = (if isLoneWide t.toList then t else firstTwo t.toList) ∧
    (firstTwo t.toList).length = 2 ∧
    parse (ofTalker t f).text =
      if isLoneWide t.toList then .error (.address (ofTalker t f).text .shape)
      else .ok (ofTalker t f) := by
  have hregular := regular_firstTwo t.toList f
  rw [ofTalker_eq]
  refine ⟨rfl, rfl, hregular.length, ?_⟩
  by_cases hlone : isLoneWide t.toList = true
  · obtain ⟨c, hc, hascii⟩ := exists_of_isLoneWide hlone
    rw [if_pos hlone, if_pos hlone]
    refine parse_of_not_isAscii ?_ hascii
    rw [toList_text, hc]
    exact List.mem_append_left _ List.mem_cons_self
  · rw [if_neg hlone, if_neg hlone]
    exact hregular.parse_text

/-- A single character of two bytes is a talker of one character, and its address is not read back. -/
theorem not_read_back_of_wide : (ofTalker "é" .vdm).talker.length ≠ 2 ∧
    parse (ofTalker "é" .vdm).text ≠ .ok (ofTalker "é" .vdm) := by
  have hmem : 'é' ∈ (ofTalker "é" .vdm).text.toList := by decide
  have hparse := parse_of_not_isAscii hmem (by decide)
  exact ⟨by decide, fun hok => nomatch hparse.symm.trans hok⟩

end Address

end Transponder
