import Transponder.Proofs.Text.Fields
import Transponder.Text.Lines

/-!
# Lines of a text

An input is cut into lines as bytes. No byte of another character is a line feed or a carriage
return, so the lines of the bytes of a text are the bytes of the lines of the text (`lines_utf8`),
and each of them is a text again (`ofUtf8?_utf8`).
-/

namespace Transponder.Text

variable {c : Char} {cs : List Char} {line front back : List UInt8}

/-- A line without the carriage return at its end. -/
def withoutReturn (line : List Char) : List Char :=
  if line.getLast? = some '\r' then line.dropLast else line

/-- The lines of a text: what is between line feeds, which may have a carriage return in front, and
what is behind the last of them if there is anything. -/
def textLines (cs : List Char) : List (List Char) :=
  let pieces := splitAt '\n' cs
  let rest := pieces.getLastD []
  pieces.dropLast.map withoutReturn ++ if rest.isEmpty then [] else [rest]

/-! ## Bytes of characters -/

/-- A character is one byte, which is its code, or several bytes, none of which is in ASCII. -/
theorem toNat_of_mem_utf8EncodeChar {b : UInt8} (h : b ∈ String.utf8EncodeChar c) :
    b.toNat = c.toNat ∨ 128 ≤ b.toNat := by
  rcases Nat.lt_or_ge c.toNat 128 with hlt | hge
  · rw [utf8EncodeChar_of_isAscii (decide_eq_true hlt), List.mem_singleton] at h
    rw [h]
    exact .inl (UInt8.toNat_ofNat_of_lt' (Nat.lt_trans hlt (by decide)))
  · have hval : ¬ c.val.toNat ≤ 127 := Nat.not_le.mpr hge
    refine .inr ?_
    simp only [String.utf8EncodeChar, if_neg hval] at h
    split at h
    · simp only [List.mem_cons, List.not_mem_nil, or_false] at h
      rcases h with rfl | rfl <;> simp <;> omega
    · split at h
      · simp only [List.mem_cons, List.not_mem_nil, or_false] at h
        rcases h with rfl | rfl | rfl <;> simp <;> omega
      · simp only [List.mem_cons, List.not_mem_nil, or_false] at h
        rcases h with rfl | rfl | rfl | rfl <;> simp <;> omega

theorem eq_of_mem_utf8EncodeChar {d : Char} (hd : d.toNat < 128)
    (h : UInt8.ofNat d.toNat ∈ String.utf8EncodeChar c) : c = d := by
  have hcode : (UInt8.ofNat d.toNat).toNat = d.toNat :=
    UInt8.toNat_ofNat_of_lt' (Nat.lt_trans hd (by decide))
  rcases toNat_of_mem_utf8EncodeChar h with hsame | hlarge
  · exact Char.toNat_inj.mp (hsame.symm.trans hcode)
  · omega

theorem utf8_cons : utf8 (c :: cs) = String.utf8EncodeChar c ++ utf8 cs :=
  List.flatMap_cons

theorem utf8_eq_nil_iff : utf8 cs = [] ↔ cs = [] := by
  cases cs with
  | nil => exact ⟨fun _ => rfl, fun _ => rfl⟩
  | cons c cs =>
    rw [utf8_cons]
    simp [String.utf8EncodeChar_ne_nil]

theorem ofUtf8?_utf8 (cs : List Char) : ofUtf8? (utf8 cs) = some (String.ofList cs) := by
  have hbytes : ByteArray.mk (utf8 cs).toArray = cs.utf8Encode := by
    refine ByteArray.ext ?_
    rw [List.utf8Encode, List.data_toByteArray]
    rfl
  rw [ofUtf8?, hbytes, String.fromUTF8?, dif_pos ByteArray.isValidUTF8_utf8Encode]
  rfl

/-! ## Lines of bytes -/

/-- What holds no line feed is put in front of the first line, or of what has not ended. -/
theorem splitLines_append_of_not_mem (h : lineFeed ∉ front) : splitLines (front ++ back) =
    match (splitLines back).1 with
    | [] => ([], front ++ (splitLines back).2)
    | line :: ended => ((front ++ line) :: ended, (splitLines back).2) := by
  induction front with
  | nil =>
    rw [List.nil_append]
    obtain ⟨ended, rest⟩ := splitLines back
    cases ended <;> rfl
  | cons b front ih =>
    rw [List.mem_cons, not_or] at h
    rw [List.cons_append, splitLines, ih h.2]
    dsimp only
    rw [if_neg (Ne.symm h.1)]
    cases (splitLines back).1 <;> rfl

theorem splitLines_line (h : lineFeed ∉ line) :
    splitLines (line ++ [lineFeed]) = ([line], []) := by
  rw [splitLines_append_of_not_mem h]
  exact congrArg (fun ended => ([ended], _)) (List.append_nil line)

/-- Behind a line that has ended nothing of it is left. -/
theorem splitLines_append (h : (splitLines front).2 = []) : splitLines (front ++ back) =
    ((splitLines front).1 ++ (splitLines back).1, (splitLines back).2) := by
  induction front with
  | nil => rfl
  | cons b front ih =>
    rw [List.cons_append, splitLines, splitLines]
    rw [splitLines] at h
    dsimp only at h ⊢
    by_cases hb : b = lineFeed
    · rw [if_pos hb] at h ⊢
      rw [ih h, if_pos hb]
      rfl
    · rw [if_neg hb] at h ⊢
      rw [if_neg hb]
      cases hended : (splitLines front).1 with
      | nil =>
        rw [hended] at h
        cases h
      | cons ended more =>
        rw [hended] at h
        rw [ih h, hended]
        rfl

theorem lines_append (h : (splitLines front).2 = []) :
    lines (front ++ back) = lines front ++ lines back := by
  have hfront : lines front = (splitLines front).1.map dropReturn := by
    rw [lines]
    dsimp only
    rw [h]
    exact List.append_nil _
  rw [hfront, lines, splitLines_append h]
  dsimp only
  rw [List.map_append, List.append_assoc]
  rfl

theorem splitAt_ne_nil (separator : Char) (cs : List Char) : splitAt separator cs ≠ [] := by
  cases cs with
  | nil => exact List.cons_ne_nil _ _
  | cons c cs =>
    rw [splitAt]
    split
    · exact List.cons_ne_nil _ _
    · split <;> exact List.cons_ne_nil _ _

/-- The bytes of a text are cut where the text is. -/
theorem splitLines_utf8 (cs : List Char) : splitLines (utf8 cs) =
    ((splitAt '\n' cs).dropLast.map utf8, utf8 ((splitAt '\n' cs).getLastD [])) := by
  induction cs with
  | nil => rfl
  | cons c cs ih =>
    rw [utf8_cons, splitAt]
    by_cases hc : c = '\n'
    · rw [if_pos hc, hc]
      show (([] :: (splitLines (utf8 cs)).1, (splitLines (utf8 cs)).2) : _ × _) = _
      rw [ih]
      cases hpieces : splitAt '\n' cs with
      | nil => exact absurd hpieces (splitAt_ne_nil _ cs)
      | cons piece pieces => rfl
    · have hfeed : lineFeed ∉ String.utf8EncodeChar c := fun hmem =>
        hc (eq_of_mem_utf8EncodeChar (d := '\n') (by decide) hmem)
      rw [if_neg hc, splitLines_append_of_not_mem hfeed, ih]
      cases hpieces : splitAt '\n' cs with
      | nil => rfl
      | cons piece pieces =>
        cases pieces with
        | nil => exact congrArg (Prod.mk []) utf8_cons.symm
        | cons next pieces => exact congrArg (fun line => (line :: _, _)) utf8_cons.symm

theorem dropReturn_utf8 (cs : List Char) : dropReturn (utf8 cs) = utf8 (withoutReturn cs) := by
  rcases List.eq_nil_or_concat cs with rfl | ⟨front, c, rfl⟩
  · rfl
  · have hbytes : utf8 (front ++ [c]) = utf8 front ++ String.utf8EncodeChar c := by
      rw [utf8, List.flatMap_append, List.flatMap_singleton]
      rfl
    rw [List.concat_eq_append, withoutReturn, List.getLast?_concat, List.dropLast_concat, dropReturn,
      hbytes]
    by_cases hc : c = '\r'
    · have hreturn : String.utf8EncodeChar c = [carriageReturn] := by
        rw [hc]
        rfl
      rw [hreturn, List.getLast?_concat, if_pos rfl, if_pos (congrArg some hc),
        List.dropLast_concat]
    · have hlast : ¬ (utf8 front ++ String.utf8EncodeChar c).getLast? = some carriageReturn := by
        rw [List.getLast?_append, List.getLast?_eq_some_getLast String.utf8EncodeChar_ne_nil]
        intro hlast
        have hmem := List.getLast_mem (String.utf8EncodeChar_ne_nil (c := c))
        rw [Option.some.inj hlast] at hmem
        exact hc (eq_of_mem_utf8EncodeChar (d := '\r') (by decide) hmem)
      rw [if_neg hlast, if_neg fun h => hc (Option.some.inj h), hbytes]

/-- The lines of the bytes of a text are the bytes of its lines. -/
theorem lines_utf8 (cs : List Char) : lines (utf8 cs) = (textLines cs).map utf8 := by
  rw [lines, textLines, splitLines_utf8]
  dsimp only
  rw [List.map_append, List.map_map, List.map_map]
  congr 1
  · exact List.map_congr_left fun line _ => dropReturn_utf8 line
  · cases hrest : (splitAt '\n' cs).getLastD [] with
    | nil => rfl
    | cons c rest =>
      have hne : (utf8 (c :: rest)).isEmpty = false :=
        List.isEmpty_eq_false_iff.mpr fun h => nomatch utf8_eq_nil_iff.mp h
      rw [hne]
      rfl

/-- Lines without line breaks are found again when each has ended. -/
theorem textLines_flatMap {ls : List (List Char)} (h : ∀ line ∈ ls, '\n' ∉ line ∧ '\r' ∉ line) :
    textLines (ls.flatMap (· ++ ['\n'])) = ls := by
  have hpieces : splitAt '\n' (ls.flatMap (· ++ ['\n'])) = ls ++ [[]] := by
    induction ls with
    | nil => rfl
    | cons line ls ih =>
      obtain ⟨hline, hls⟩ := List.forall_mem_cons.mp h
      rw [List.flatMap_cons, List.append_assoc, List.singleton_append, splitAt_append hline.1,
        ih hls]
      rfl
  have hreturn : ls.map withoutReturn = ls := by
    refine (List.map_congr_left fun line hmem => if_neg fun hlast => ?_).trans (List.map_id' _)
    exact (h line hmem).2 (List.mem_of_getLast? hlast)
  rw [textLines, hpieces, List.getLastD_concat, List.dropLast_concat, hreturn]
  exact List.append_nil ls

end Transponder.Text
