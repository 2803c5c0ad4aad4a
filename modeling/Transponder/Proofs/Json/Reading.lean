import Mathlib.Data.List.Forall2
import Transponder.Proofs.Json.Numbers

/-!
# Reading what was written

A string is read back from its text, whatever it holds (`string?_append`). `Reads j v` says that the
text of `j` is read as `v`, and an object of such values is read entry by entry, with its names as
they are and in their order (`parse?_object`).
-/

namespace Transponder.Json

variable {c : Char} {cs rest : List Char}

/-! ## Strings -/

/-- The piece that the text of a character is read as. -/
def pieceOf (c : Char) : Piece :=
  if c.toNat < 32 ∧ c ∉ ['\x08', '\t', '\n', '\x0c', '\r'] then .unit c.toNat else .char c

/-- A piece more in front of what was read. -/
def consPiece (p : Piece) : List Piece × List Char → List Piece × List Char
  | (ps, rest) => (p :: ps, rest)

theorem pieces?_letter {letter : Char} (h : unescape? letter = some c) (rest : List Char) :
    pieces? ('\\' :: letter :: rest) = (pieces? rest).map (consPiece (.char c)) := by
  have hu : letter ≠ 'u' := by
    rintro rfl
    cases h
  rw [pieces?]
  · rw [h]
    cases pieces? rest <;> rfl
  · intro a b d e tail hl
    exact absurd hl hu

theorem pieces?_unit {n : Nat} (h : n < 32) (rest : List Char) :
    pieces? ('\\' :: 'u' :: '0' :: '0' :: Text.hexByte false (UInt8.ofNat n) ++ rest) =
      (pieces? rest).map (consPiece (.unit n)) := by
  have hvalue : ∀ n < 32, Text.digitsValue? 16 ('0' :: '0' :: Text.hexByte false (UInt8.ofNat n)) =
      some n := by
    decide
  have hn := hvalue n h
  unfold Text.hexByte at hn ⊢
  rw [List.cons_append, List.cons_append, List.cons_append, List.cons_append, List.cons_append,
    List.cons_append, List.nil_append, pieces?, hn]
  cases pieces? rest <;> rfl

theorem pieces?_char (hquote : c ≠ '"') (hslash : c ≠ '\\') (hc : 32 ≤ c.toNat)
    (rest : List Char) : pieces? (c :: rest) = (pieces? rest).map (consPiece (.char c)) := by
  have hplain : ¬(decide (c = '\\') || decide (c.toNat < 32)) = true := by
    simp [hslash, hc]
  rw [pieces?, if_neg hplain]
  · cases pieces? rest <;> rfl
  · exact hquote
  · exact fun a b d e f hc' => absurd hc' hslash
  · exact fun d tail hc' => absurd hc' hslash

theorem pieces?_escapeChar (c : Char) (rest : List Char) :
    pieces? (escapeChar c ++ rest) = (pieces? rest).map (consPiece (pieceOf c)) := by
  unfold escapeChar
  split
  case isTrue h => rw [h]; exact pieces?_letter rfl rest
  case isFalse hquote =>
  split
  case isTrue h => rw [h]; exact pieces?_letter rfl rest
  case isFalse hslash =>
  split
  case isTrue h => rw [h]; exact pieces?_letter rfl rest
  case isFalse hback =>
  split
  case isTrue h => rw [h]; exact pieces?_letter rfl rest
  case isFalse htab =>
  split
  case isTrue h => rw [h]; exact pieces?_letter rfl rest
  case isFalse hfeed =>
  split
  case isTrue h => rw [h]; exact pieces?_letter rfl rest
  case isFalse hform =>
  split
  case isTrue h => rw [h]; exact pieces?_letter rfl rest
  case isFalse hreturn =>
  split
  case isTrue hlow =>
    rw [pieceOf, if_pos ⟨hlow, by simp [hback, htab, hfeed, hform, hreturn]⟩]
    exact pieces?_unit hlow rest
  case isFalse hhigh =>
    rw [pieceOf, if_neg fun h => hhigh h.1]
    exact pieces?_char hquote hslash (Nat.le_of_not_lt hhigh) rest

theorem assemble?_unit {n : Nat} (h : n < 32) (ps : List Piece) :
    assemble? (.unit n :: ps) = (assemble? ps).map (Char.ofNat n :: ·) := by
  have hleading : isLeading n = false := by
    rw [isLeading, Bool.and_eq_false_iff, decide_eq_false_iff_not]
    exact .inl (by omega)
  have htrailing : isTrailing n = false := by
    rw [isTrailing, Bool.and_eq_false_iff, decide_eq_false_iff_not]
    exact .inl (by omega)
  have halone : (isLeading n || isTrailing n) = false := by rw [hleading, htrailing]; rfl
  match ps with
  | [] => exact if_neg (halone ▸ Bool.false_ne_true)
  | .char c :: ps => exact if_neg (halone ▸ Bool.false_ne_true)
  | .unit m :: ps =>
    exact (if_neg (hleading ▸ Bool.false_ne_true)).trans
      (if_neg (htrailing ▸ Bool.false_ne_true))

theorem assemble?_map_pieceOf (cs : List Char) : assemble? (cs.map pieceOf) = some cs := by
  induction cs with
  | nil => rfl
  | cons c cs ih =>
    rw [List.map_cons]
    by_cases hc : c.toNat < 32 ∧ c ∉ ['\x08', '\t', '\n', '\x0c', '\r']
    · rw [pieceOf, if_pos hc, assemble?_unit hc.1, ih, Char.ofNat_toNat]
      rfl
    · rw [pieceOf, if_neg hc, assemble?, ih]
      rfl

/-- A string is read back. -/
theorem string?_append (s : String) (rest : List Char) :
    string? (s.toList.flatMap escapeChar ++ '"' :: rest) = some (some s, rest) := by
  have hpieces : ∀ cs : List Char, pieces? (cs.flatMap escapeChar ++ '"' :: rest) =
      some (cs.map pieceOf, rest) := by
    intro cs
    induction cs with
    | nil => rfl
    | cons c cs ih =>
      rw [List.flatMap_cons, List.append_assoc, pieces?_escapeChar, ih]
      rfl
  rw [string?, hpieces]
  show some ((assemble? (s.toList.map pieceOf)).map String.ofList, rest) = _
  rw [assemble?_map_pieceOf]
  exact congrArg (fun s => some (some s, rest)) String.ofList_toList

/-! ## Values -/

/-- The text of `j` is read as `v`, whatever follows it. -/
def Reads (j v : Json) : Prop :=
  ∀ fuel levels rest, EndsNumber rest →
    value? (fuel + 1) levels (j.chars ++ rest) = some (v, rest)

theorem reads_null : Reads null null :=
  fun _ _ _ _ => rfl

theorem reads_bool (b : Bool) : Reads (bool b) (bool b) := by
  intro fuel levels rest _
  cases b <;> rfl

theorem reads_string (s : String) : Reads (string s) (string s) := by
  intro fuel levels rest _
  show (string? (s.toList.flatMap escapeChar ++ ['"'] ++ rest) >>= _) = some (string s, rest)
  rw [List.append_assoc, List.singleton_append, string?_append]
  rfl

theorem head?_of_isNumber (h : IsNumber cs) (rest : List Char) :
    ∃ c ds, cs ++ rest = c :: ds ∧ (c.isDigit = true ∨ c = '-') := by
  rcases h with ⟨whole, fraction, exponent, hwhole, -, -, rfl⟩ | ⟨ds, -, rfl⟩
  · have hhead := head?_of_isWhole hwhole (fraction ++ exponent ++ rest)
    obtain ⟨c, ds, rfl⟩ := List.exists_cons_of_ne_nil hwhole.1.1
    exact ⟨c, _, by rw [List.append_assoc]; rfl, .inl (hhead c rfl)⟩
  · exact ⟨'-', _, rfl, .inr rfl⟩

theorem value?_of_isNumber (h : IsNumber cs) (fuel levels : Nat) (rest : List Char) :
    value? (fuel + 1) levels (cs ++ rest) =
      (numeral? (cs ++ rest)).map fun (x, rest) => (x.value, rest) := by
  obtain ⟨c, ds, hcs, hc⟩ := head?_of_isNumber h rest
  have hother : ∀ d ∈ [' ', '\t', '\n', '\r', 'n', 't', 'f', '"', '[', '\x7b'], c ≠ d := by
    have hnone : ∀ d ∈ [' ', '\t', '\n', '\r', 'n', 't', 'f', '"', '[', '\x7b'],
        (d.isDigit || d == '-') = false := by
      have hall : [' ', '\t', '\n', '\r', 'n', 't', 'f', '"', '[', '\x7b'].all
          (fun d => !(d.isDigit || d == '-')) = true := by
        decide
      intro d hd
      rw [← Bool.not_eq_true']
      exact List.all_eq_true.mp hall d hd
    rintro d hd rfl
    obtain ⟨hdigit, hminus⟩ := Bool.or_eq_false_iff.mp (hnone c hd)
    rw [hdigit] at hc
    exact hc.elim Bool.false_ne_true (beq_eq_false_iff_ne.mp hminus)
  simp only [List.forall_mem_cons] at hother
  obtain ⟨hspace, htab, hfeed, hreturn, hn, ht, hf, hquote, hbracket, hbrace, -⟩ := hother
  have hskip : skipGap (c :: ds) = c :: ds := by
    rw [skipGap, List.dropWhile_cons_of_neg]
    simp [isGap, hspace, htab, hfeed, hreturn]
  rw [hcs, value?, hskip]
  split
  case h_7 => rfl
  all_goals
    rename_i heq
    cases heq
    contradiction

/-- A number is read as its value. -/
theorem reads_of_isNumber {j v : Json} (h : IsNumber j.chars) (hv : number? j.chars = some v) :
    Reads j v := by
  intro fuel levels rest hrest
  obtain ⟨x, hx⟩ := numeral?_append h
  have hvalue : x.value = v := by
    have hnil := hx [] (fun c hc => nomatch hc)
    rw [List.append_nil] at hnil
    rw [number?, hnil] at hv
    exact Option.some.inj hv
  rw [value?_of_isNumber h, hx rest hrest, ← hvalue]
  rfl

/-! ## Objects -/

/-- An entry of an object without the commas around it. -/
def entryText (entry : String × Json) : List Char :=
  stringChars entry.1 ++ ':' :: entry.2.chars

theorem entryChars_cons (entry : String × Json) (entries : List (String × Json)) :
    entryChars true (entry :: entries) = entryText entry ++ entryChars false entries ∧
      entryChars false (entry :: entries) = ',' :: entryChars true (entry :: entries) := by
  refine ⟨?_, ?_⟩
  · rw [entryChars, entryText]
    rfl
  · rw [entryChars, entryChars]
    rfl

theorem entries?_entryText (key : String) {j v : Json} (h : Reads j v) (fuel levels : Nat)
    (rest : List Char) :
    entries? (fuel + 2) levels (entryText (key, j) ++ '\x7d' :: rest) =
        some ([(some key, v)], rest) ∧
      entries? (fuel + 2) levels (entryText (key, j) ++ ',' :: rest) =
        (entries? (fuel + 1) levels rest).map fun more => ((some key, v) :: more.1, more.2) := by
  have htext : ∀ tail, entryText (key, j) ++ tail =
      '"' :: (key.toList.flatMap escapeChar ++ '"' :: ':' :: (j.chars ++ tail)) := by
    simp [entryText, stringChars]
  have hend : ∀ {c}, c = ',' ∨ c = '\x7d' → EndsNumber (c :: rest) := by
    rintro c (rfl | rfl) d hd <;> cases hd <;> decide
  refine ⟨?_, ?_⟩
  · rw [htext, entries?]
    show (string? (key.toList.flatMap escapeChar ++ '"' :: ':' :: _) >>= _) = _
    rw [string?_append]
    show (value? (fuel + 1) levels (j.chars ++ '\x7d' :: rest) >>= _) = _
    rw [h fuel levels _ (hend (.inr rfl))]
    rfl
  · rw [htext, entries?]
    show (string? (key.toList.flatMap escapeChar ++ '"' :: ':' :: _) >>= _) = _
    rw [string?_append]
    show (value? (fuel + 1) levels (j.chars ++ ',' :: rest) >>= _) = _
    rw [h fuel levels _ (hend (.inl rfl))]
    show (entries? (fuel + 1) levels rest >>= _) = _
    cases entries? (fuel + 1) levels rest <;> rfl

/-- The entries of an object, of which each value has the same name as what it is read as. -/
def ReadEach (entries values : List (String × Json)) : Prop :=
  List.Forall₂ (fun entry value => entry.1 = value.1 ∧ Reads entry.2 value.2) entries values

theorem entries?_append {entries values : List (String × Json)} (h : ReadEach entries values)
    (hne : entries ≠ []) (levels : Nat) (rest : List Char) : ∀ fuel, entries.length < fuel →
    entries? fuel levels (entryChars true entries ++ '\x7d' :: rest) =
      some (values.map fun (key, v) => (some key, v), rest) := by
  induction h with
  | nil => exact absurd rfl hne
  | @cons entry value entries values hentry hrest ih =>
    intro fuel hfuel
    obtain ⟨key, j⟩ := entry
    obtain ⟨key', v⟩ := value
    obtain ⟨rfl, hread⟩ := hentry
    obtain ⟨fuel, rfl⟩ : ∃ n, fuel = n + 2 := ⟨fuel - 2, by rw [List.length_cons] at hfuel; omega⟩
    rw [(entryChars_cons _ _).1, List.append_assoc]
    cases hrest with
    | nil =>
      rw [entryChars, List.nil_append, (entries?_entryText key hread fuel levels rest).1]
      rfl
    | @cons next value' entries values hnext hrest =>
      have hmore := ih (List.cons_ne_nil _ _) (fuel + 1) (by
        simp only [List.length_cons] at hfuel ⊢
        omega)
      rw [(entryChars_cons _ _).2, List.cons_append,
        (entries?_entryText key hread fuel levels _).2, hmore]
      rfl

theorem length_le_length_entryChars (entries : List (String × Json)) (first : Bool) :
    entries.length ≤ (entryChars first entries).length := by
  induction entries generalizing first with
  | nil => exact Nat.zero_le _
  | cons entry entries ih =>
    have hrest := ih false
    rw [entryChars]
    simp only [List.length_append, List.length_cons]
    omega

theorem ofEntries_map (values : List (String × Json)) :
    ofEntries (values.map fun (key, v) => (some key, v)) = object values := by
  have hnamed : (values.map fun (key, v) => (some key, v)).mapM
      (fun (entry : Option String × Json) => entry.1.map (·, entry.2)) = some values := by
    induction values with
    | nil => rfl
    | cons value values ih =>
      rw [List.map_cons, List.mapM_cons, ih]
      rfl
  unfold ofEntries
  rw [hnamed]

/-- An object is read with its names and values in their order. -/
theorem parse?_object {entries values : List (String × Json)} (h : ReadEach entries values)
    (hne : entries ≠ []) : parse? (render (object entries)) = some (object values) := by
  obtain ⟨entry, more, rfl⟩ := List.exists_cons_of_ne_nil hne
  have hread := entries?_append h hne (maxLevels - 1) []
  obtain ⟨cs, hcs⟩ : ∃ cs, entryChars true (entry :: more) = '"' :: cs := ⟨_, rfl⟩
  have hlength := length_le_length_entryChars (entry :: more) true
  unfold parse? render
  rw [String.toList_ofList, chars, hcs]
  rw [hcs] at hread hlength
  have hbrace : ∀ fuel, value? (fuel + 1) maxLevels ('\x7b' :: ('"' :: cs) ++ ['\x7d']) =
      (entries? fuel (maxLevels - 1) ('"' :: cs ++ ['\x7d'])).map
        fun read => (ofEntries read.1, read.2) := by
    intro fuel
    show (entries? fuel (maxLevels - 1) ('"' :: cs ++ ['\x7d']) >>= _) = _
    cases entries? fuel (maxLevels - 1) ('"' :: cs ++ ['\x7d']) <;> rfl
  dsimp only
  rw [hbrace, hread _ (by simp only [List.length_cons, List.length_append] at hlength ⊢; omega)]
  show (if (skipGap []).isEmpty then some (ofEntries _) else none) = _
  rw [ofEntries_map]
  rfl

end Transponder.Json
