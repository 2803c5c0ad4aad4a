import Transponder.Text.Ascii
import Transponder.Text.Blank

/-!
# Texts put together and taken apart

A line is put together from fields with separators between them and is taken apart at the
separators; what holds no separator comes back as it was. The numerals of bytes, in decimal and in
hexadecimal, are read back as the bytes that they were written from.
-/

namespace Transponder.Text

/-! ## Separators -/

theorem breakAt?_append {c : Char} {front back : List Char} (h : c ∉ front) :
    breakAt? c (front ++ c :: back) = some (front, back) := by
  induction front with
  | nil => exact if_pos rfl
  | cons d ds ih =>
    rw [List.mem_cons, not_or] at h
    rw [List.cons_append, breakAt?, if_neg (Ne.symm h.1), ih h.2]
    rfl

theorem splitAt_of_not_mem {c : Char} {cs : List Char} (h : c ∉ cs) : splitAt c cs = [cs] := by
  induction cs with
  | nil => rfl
  | cons d ds ih =>
    rw [List.mem_cons, not_or] at h
    rw [splitAt, if_neg (Ne.symm h.1), ih h.2]

theorem splitAt_append {c : Char} {front back : List Char} (h : c ∉ front) :
    splitAt c (front ++ c :: back) = front :: splitAt c back := by
  induction front with
  | nil => exact if_pos rfl
  | cons d ds ih =>
    rw [List.mem_cons, not_or] at h
    rw [List.cons_append, splitAt, if_neg (Ne.symm h.1), ih h.2]

/-- Fields that do not hold the separator come back one by one. -/
theorem splitAt_intercalate {c : Char} :
    ∀ fields : List (List Char), fields ≠ [] → (∀ field ∈ fields, c ∉ field) →
      splitAt c (List.intercalate [c] fields) = fields
  | [], h, _ => absurd rfl h
  | [field], _, h => by
    rw [List.intercalate_singleton]
    exact splitAt_of_not_mem (h field List.mem_cons_self)
  | field :: next :: fields, _, h => by
    have ih := splitAt_intercalate (next :: fields) (List.cons_ne_nil _ _) fun field hm =>
      h field (List.mem_cons_of_mem _ hm)
    rw [List.intercalate_cons_cons, List.append_assoc, List.singleton_append,
      splitAt_append (h field List.mem_cons_self), ih]

/-- Nothing in front of the place where a text breaks is the character that it breaks at. -/
theorem not_mem_of_breakAt? {c : Char} {cs front back : List Char}
    (h : breakAt? c cs = some (front, back)) : c ∉ front := by
  induction cs generalizing front with
  | nil => cases h
  | cons d ds ih =>
    rw [breakAt?] at h
    split at h
    case isTrue => cases h; exact List.not_mem_nil
    case isFalse hd =>
      obtain ⟨⟨front', back'⟩, hds, he⟩ := Option.map_eq_some_iff.mp h
      cases he
      rw [List.mem_cons, not_or]
      exact ⟨Ne.symm hd, ih hds⟩

/-- A text breaks at the first occurrence of a character. -/
theorem breakAt?_eq_some_iff {c : Char} {cs front back : List Char} :
    breakAt? c cs = some (front, back) ↔ c ∉ front ∧ cs = front ++ c :: back := by
  constructor
  · intro h
    refine ⟨not_mem_of_breakAt? h, ?_⟩
    induction cs generalizing front with
    | nil => cases h
    | cons d ds ih =>
      rw [breakAt?] at h
      split at h
      case isTrue hd => cases h; rw [hd]; rfl
      case isFalse =>
        obtain ⟨⟨front', back'⟩, hds, he⟩ := Option.map_eq_some_iff.mp h
        cases he
        rw [List.cons_append, ih hds]
  · rintro ⟨hc, rfl⟩
    exact breakAt?_append hc

theorem not_mem_of_breakAt?_eq_none {c : Char} {cs : List Char} (h : breakAt? c cs = none) :
    c ∉ cs := by
  induction cs with
  | nil => exact List.not_mem_nil
  | cons d ds ih =>
    rw [breakAt?] at h
    split at h
    case isTrue => cases h
    case isFalse hd =>
      rw [List.mem_cons, not_or]
      exact ⟨Ne.symm hd, ih (Option.map_eq_none_iff.mp h)⟩

/-- The pieces of a text hold its characters, but for the separators. -/
theorem of_mem_splitAt {c : Char} {cs piece : List Char} (h : piece ∈ splitAt c cs) :
    ∀ d ∈ piece, d ∈ cs ∧ d ≠ c := by
  induction cs generalizing piece with
  | nil =>
    rw [List.mem_singleton.mp h]
    exact fun d hd => absurd hd List.not_mem_nil
  | cons e es ih =>
    have hes : ∀ {piece}, piece ∈ splitAt c es → ∀ d ∈ piece, d ∈ e :: es ∧ d ≠ c :=
      fun hp d hd => (ih hp d hd).imp_left (List.mem_cons_of_mem e)
    rw [splitAt] at h
    split at h
    case isTrue =>
      rcases List.mem_cons.mp h with rfl | h
      · exact fun d hd => absurd hd List.not_mem_nil
      · exact hes h
    case isFalse he =>
      split at h
      case h_1 =>
        rw [List.mem_singleton.mp h]
        exact List.forall_mem_singleton.mpr ⟨List.mem_cons_self, he⟩
      case h_2 first pieces hsplit =>
        rw [hsplit] at hes
        rcases List.mem_cons.mp h with rfl | h
        · exact List.forall_mem_cons.mpr
            ⟨⟨List.mem_cons_self, he⟩, hes List.mem_cons_self⟩
        · exact hes (List.mem_cons_of_mem first h)

/-! ## Blanks -/

theorem dropWhile_eq_self {α : Type} {p : α → Bool} {xs : List α}
    (h : ∀ x ∈ xs.head?, p x = false) : xs.dropWhile p = xs := by
  cases xs with
  | nil => rfl
  | cons x xs => rw [List.dropWhile_cons, h x rfl]; rfl

/-- Blanks behind a text that has none at its ends. -/
theorem trim_append_blanks {cs blanks : List Char} (hh : ∀ c ∈ cs.head?, isBlank c = false)
    (hl : ∀ c ∈ cs.getLast?, isBlank c = false) (hb : ∀ c ∈ blanks, isBlank c = true) :
    trim (cs ++ blanks) = cs := by
  have hfront : (cs ++ blanks).dropWhile isBlank = cs.dropWhile isBlank ++ blanks ∨
      cs = [] ∧ (cs ++ blanks).dropWhile isBlank = [] := by
    cases cs with
    | nil =>
      refine .inr ⟨rfl, ?_⟩
      rw [List.nil_append, ← List.append_nil blanks, List.dropWhile_append_of_pos hb]
      rfl
    | cons c cs =>
      rw [List.cons_append, List.dropWhile_cons, List.dropWhile_cons, hh c rfl]
      exact .inl rfl
  unfold trim
  rcases hfront with h | ⟨rfl, h⟩
  · rw [h, dropWhile_eq_self hh, List.reverse_append,
      List.dropWhile_append_of_pos fun c hc => hb c (List.mem_reverse.mp hc),
      dropWhile_eq_self (by rwa [List.head?_reverse]), List.reverse_reverse]
  · rw [h]
    rfl

/-- A text that has been trimmed has no blanks at its ends. -/
theorem trim_trim (cs : List Char) : trim (trim cs) = trim cs := by
  have hkept : ∀ ds : List Char, ∀ c ∈ (ds.dropWhile isBlank).head?, isBlank c = false := by
    intro ds c hc
    have hdropped := List.head?_dropWhile_not isBlank ds
    rw [Option.mem_def.mp hc] at hdropped
    exact hdropped
  have hlast : ∀ c ∈ (trim cs).getLast?, isBlank c = false := by
    rw [trim, List.getLast?_reverse]
    exact hkept _
  have hfirst : ∀ c ∈ (trim cs).head?, isBlank c = false := by
    intro c hc
    -- What is left in the end is the front of what is left without the blanks at the start.
    have hfront : trim cs <+: cs.dropWhile isBlank := by
      rw [← List.reverse_suffix, trim, List.reverse_reverse]
      exact List.dropWhile_suffix _
    obtain ⟨more, hmore⟩ := hfront
    refine hkept cs c ?_
    rw [← hmore, List.head?_append, Option.mem_def.mp hc]
    rfl
  have htrimmed : trim (trim cs ++ []) = trim cs :=
    trim_append_blanks hfirst hlast fun _ hc => nomatch hc
  rwa [List.append_nil] at htrimmed

theorem isBlank_of_isGraphic {c : Char} (h : isGraphic c = true) : isBlank c = false := by
  rw [isGraphic, Bool.and_eq_true, decide_eq_true_iff, decide_eq_true_iff] at h
  have h₁ : 33 ≤ c.toNat := h.1
  have h₂ : c.toNat ≤ 126 := h.2
  simp only [isBlank, Bool.or_eq_false_iff, Bool.and_eq_false_iff, decide_eq_false_iff_not,
    beq_eq_false_iff_ne]
  omega

theorem trim_of_isGraphic {cs : List Char} (h : ∀ c ∈ cs, isGraphic c = true) : trim cs = cs := by
  have hends : trim (cs ++ []) = cs := trim_append_blanks
    (fun c hc => isBlank_of_isGraphic (h c (List.mem_of_head? hc)))
    (fun c hc => isBlank_of_isGraphic (h c (List.mem_of_getLast? hc))) fun _ hc => nomatch hc
  rwa [List.append_nil] at hends

/-! ## ASCII -/

/-- What the characters of all codes of ASCII have, the characters of ASCII have. -/
@[elab_as_elim]
theorem of_isAscii {p : Char → Prop} {c : Char} (h : isAscii c = true)
    (hp : ∀ n < 128, p (Char.ofNat n)) : p c := by
  have hc := hp c.toNat (of_decide_eq_true h)
  rwa [Char.ofNat_toNat] at hc

theorem isAscii_of_isGraphic {c : Char} (h : isGraphic c = true) : isAscii c = true := by
  rw [isGraphic, Bool.and_eq_true, decide_eq_true_iff, decide_eq_true_iff] at h
  have h₂ : c.toNat ≤ 126 := h.2
  rw [isAscii, decide_eq_true_iff]
  omega

theorem utf8EncodeChar_of_isAscii {c : Char} (h : isAscii c = true) :
    String.utf8EncodeChar c = [UInt8.ofNat c.toNat] := by
  have hc : c.toNat < 128 := of_decide_eq_true h
  exact String.utf8EncodeChar_eq_singleton
    (Char.utf8Size_eq_one_iff.mpr (UInt32.le_iff_toNat_le.mpr (Nat.le_of_lt_succ hc)))

theorem utf8_of_isAscii {cs : List Char} (h : ∀ c ∈ cs, isAscii c = true) :
    utf8 cs = cs.map fun c => UInt8.ofNat c.toNat := by
  induction cs with
  | nil => rfl
  | cons c cs ih =>
    rw [List.map_cons, ← ih fun d hd => h d (List.mem_cons_of_mem _ hd), utf8, List.flatMap_cons,
      utf8EncodeChar_of_isAscii (h c List.mem_cons_self)]
    rfl

theorem byteLength_of_isAscii {cs : List Char} (h : ∀ c ∈ cs, isAscii c = true) :
    byteLength cs = cs.length := by
  rw [byteLength, utf8_of_isAscii h, List.length_map]

theorem utf8Size_eq_one_iff {c : Char} : c.utf8Size = 1 ↔ isAscii c = true := by
  rw [Char.utf8Size_eq_one_iff, isAscii, decide_eq_true_iff, UInt32.le_iff_toNat_le]
  exact Nat.lt_succ_iff.symm

theorem byteLength_cons (c : Char) (cs : List Char) :
    byteLength (c :: cs) = c.utf8Size + byteLength cs := by
  rw [byteLength, utf8, List.flatMap_cons, List.length_append, String.length_utf8EncodeChar]
  rfl

theorem isAscii_of_isAlphanum {c : Char} (h : c.isAlphanum = true) : isAscii c = true := by
  have hle : c.toNat ≤ 90 ∨ c.toNat ≤ 122 ∨ c.toNat ≤ 57 := by
    rcases Bool.or_eq_true_iff.mp h with halpha | hdigit
    · rcases Bool.or_eq_true_iff.mp halpha with hupper | hlower
      · exact .inl (UInt32.le_iff_toNat_le.mp (of_decide_eq_true hupper).2)
      · exact .inr (.inl (UInt32.le_iff_toNat_le.mp
          (of_decide_eq_true (Bool.and_eq_true_iff.mp hlower).2)))
    · exact .inr (.inr (UInt32.le_iff_toNat_le.mp
        (of_decide_eq_true (Bool.and_eq_true_iff.mp hdigit).2)))
  rw [isAscii, decide_eq_true_iff]
  omega

theorem isGraphic_of_isAlphanum {c : Char} (h : c.isAlphanum = true) : isGraphic c = true := by
  have hc : c.isAlphanum = true → isGraphic c = true := by
    refine of_isAscii (isAscii_of_isAlphanum h) ?_
    decide +kernel
  exact hc h

/-- Letters and digits in upper case are such, and are in upper case. -/
theorem toUpper_of_isAlphanum {c : Char} (h : c.isAlphanum = true) :
    c.toUpper.isAlphanum = true ∧ c.toUpper.toUpper = c.toUpper := by
  have hc : c.isAlphanum = true →
      c.toUpper.isAlphanum = true ∧ c.toUpper.toUpper = c.toUpper := by
    refine of_isAscii (isAscii_of_isAlphanum h) ?_
    decide +kernel
  exact hc h

/-- A character of ASCII in upper case is another one only if it is a letter. -/
theorem toUpper_of_isAscii {c : Char} (h : isAscii c = true) :
    isAscii c.toUpper = true ∧ c.toUpper.toUpper = c.toUpper ∧
      (c.toUpper = c ∨ c.toUpper.isAlphanum = true) := by
  refine of_isAscii h ?_
  decide +kernel

/-- Other characters than those of ASCII have no upper case. -/
theorem toUpper_of_not_isAscii {c : Char} (h : isAscii c = false) : c.toUpper = c := by
  have hc : ¬ c.toNat < 128 := of_decide_eq_false h
  refine dif_neg fun hlower => hc ?_
  have hle : c.toNat ≤ 122 := UInt32.le_iff_toNat_le.mp hlower.2
  omega

theorem isAlpha_toUpper (c : Char) : c.toUpper.isAlpha = c.isAlpha := by
  cases h : isAscii c with
  | false => rw [toUpper_of_not_isAscii h]
  | true =>
    refine of_isAscii h ?_
    decide +kernel

/-! ## Numerals -/

theorem natural?_toDigits : ∀ n < 256, natural? 10 255 (Nat.toDigits 10 n) = some n := by
  decide +kernel

theorem natural?_hexByte : ∀ n < 256,
    natural? 16 255 (hexByte true (UInt8.ofNat n)) = some n := by
  decide +kernel

theorem all_isGraphic_hexByte : ∀ n < 256,
    (hexByte true (UInt8.ofNat n)).all isGraphic = true := by
  decide +kernel

end Transponder.Text
