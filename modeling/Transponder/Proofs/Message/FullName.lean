import Transponder.Proofs.Message.Encoding
import Transponder.Proofs.Report.Fields
import Transponder.Proofs.Text.Fields

/-!
# Names in two fields

The name of an aid to navigation has a field of 20 characters, and what is behind these goes into an
extension of 14. Both are read back on their own, and reading drops the spaces at the end of a field.
So a name that is cut behind its 20th character comes back as it was, unless that character is a
space: then the spaces in front of the cut are missing (`fullName_of_named`).
-/

namespace Transponder

namespace Text

variable {count limit : Nat} {cs : List Char}

/-- The characters from the space to the underscore are sent as they are. -/
theorem sentChar_of_range {c : Char} (h : ' ' ≤ c ∧ c ≤ '_') : sentChar c = c := by
  have hcode : c.toNat ≤ 95 := h.2
  have hascii : isAscii c = true := by
    rw [isAscii, decide_eq_true_iff]
    omega
  have hsent : ' ' ≤ c ∧ c ≤ '_' → sentChar c = c := by
    refine of_isAscii hascii ?_
    decide +kernel
  exact hsent h

/-- Of a text that fits into a field, only the spaces at its end are lost. -/
theorem normalised_of_range (hlength : cs.length ≤ count)
    (hchars : ∀ c ∈ cs, ' ' ≤ c ∧ c ≤ '_' ∧ c ≠ '@') :
    normalised count (String.ofList cs) = String.ofList (dropTrailing ' ' cs) := by
  have hsent : cs.map sentChar = cs :=
    (List.map_congr_left fun c hc => sentChar_of_range ⟨(hchars c hc).1, (hchars c hc).2.1⟩).trans
      (List.map_id' cs)
  have hcut : cs.takeWhile (· != '@') = cs :=
    List.takeWhile_eq_self_iff.mpr fun c hc => bne_iff_ne.mpr (hchars c hc).2.2
  rw [normalised, String.toList_ofList, hsent, List.take_of_length_le hlength, hcut]

theorem dropTrailing_eq_self_iff {c : Char} : dropTrailing c cs = cs ↔ cs.getLast? ≠ some c := by
  rw [dropTrailing_eq_rdropWhile, List.rdropWhile_eq_self_iff]
  cases cs with
  | nil => simp
  | cons d ds => simp [List.getLast?_eq_some_getLast]

theorem getLast?_drop_ne {c : Char} (n : Nat) (h : cs.getLast? ≠ some c) :
    (cs.drop n).getLast? ≠ some c := by
  rw [List.getLast?_drop]
  split <;> simp [h]

/-- A text in two fields is read back without the spaces in front of the cut. -/
theorem normalised_take_append_drop (hlength : cs.length ≤ count + limit)
    (hchars : ∀ c ∈ cs, ' ' ≤ c ∧ c ≤ '_' ∧ c ≠ '@') (hlast : cs.getLast? ≠ some ' ') :
    normalised count (String.ofList (cs.take count)) ++
        normalised limit (String.ofList (cs.drop count)) =
      String.ofList (dropTrailing ' ' (cs.take count) ++ cs.drop count) := by
  have hroom : (cs.drop count).length ≤ limit := by
    rw [List.length_drop]
    omega
  have hfront := normalised_of_range (List.length_take_le count cs) fun c hc =>
    hchars c (List.mem_of_mem_take hc)
  have hback := normalised_of_range hroom fun c hc => hchars c (List.mem_of_mem_drop hc)
  have htrimmed := dropTrailing_eq_self_iff.mpr (getLast?_drop_ne count hlast)
  rw [hfront, hback, htrimmed, String.ofList_append]

/-- The character in front of the cut decides whether anything is missing. -/
theorem dropTrailing_take_append_drop_iff (hlast : cs.getLast? ≠ some ' ') :
    dropTrailing ' ' (cs.take (count + 1)) ++ cs.drop (count + 1) = cs ↔
      ¬ (count + 1 < cs.length ∧ cs[count]? = some ' ') := by
  have hfront : dropTrailing ' ' (cs.take (count + 1)) ++ cs.drop (count + 1) = cs ↔
      dropTrailing ' ' (cs.take (count + 1)) = cs.take (count + 1) := by
    conv_lhs => rhs; rw [← List.take_append_drop (count + 1) cs]
    exact List.append_left_inj _
  rw [hfront, dropTrailing_eq_self_iff]
  by_cases hlong : count + 1 < cs.length
  · have hget : (cs.take (count + 1)).getLast? = cs[count]? := by
      rw [List.getLast?_eq_getElem?, List.length_take, List.getElem?_take]
      simp [Nat.min_eq_left (Nat.le_of_lt hlong)]
    simp [hget, hlong]
  · rw [List.take_of_length_le (by omega)]
    simp [hlast, hlong]

end Text

/-- The same aid with another name: 20 characters of it in the field for names, and the others in
the extension. -/
def AidToNavigationReport.named (m : AidToNavigationReport) (name : String) :
    AidToNavigationReport :=
  { m with
    name := String.ofList (name.toList.take 20)
    nameExtension := String.ofList (name.toList.drop 20) }

namespace Message

open Demand

variable {m : AidToNavigationReport} {name : String}

/-- Whether an aid can be sent has nothing to do with its name. -/
theorem encode_named (name : String) (h : ∃ b, (aidToNavigationReport m).encode = .ok b) :
    ∃ b, (aidToNavigationReport (m.named name)).encode = .ok b := by
  obtain ⟨b, hb⟩ := h
  have hmet : firstRefusal? (aidToNavigationReport m).demands = none := by
    cases hfirst : firstRefusal? (aidToNavigationReport m).demands with
    | none => rfl
    | some e =>
      rw [(encodes _).refused e hfirst] at hb
      cases hb
  have hnamed : firstRefusal? (aidToNavigationReport (m.named name)).demands = none := hmet
  obtain ⟨b', hb', -⟩ := (encodes _).encoded hnamed id
  exact ⟨b', hb'⟩

/-- A name of the characters of the wire, with no space at its end and at most 34 characters, is
sent in two fields with any aid that can be sent. It comes back without the spaces in front of the
cut, so it comes back as it was if there are none or nothing is behind the cut. -/
theorem fullName_of_named (m : AidToNavigationReport) (name : String)
    (hm : ∃ b, (aidToNavigationReport m).encode = .ok b) (hlength : name.length ≤ 34)
    (hchars : ∀ c ∈ name.toList, ' ' ≤ c ∧ c ≤ '_' ∧ c ≠ '@')
    (hlast : name.toList.getLast? ≠ some ' ') :
    ∃ b m', (aidToNavigationReport (m.named name)).encode = .ok b ∧
      decode b = .ok (aidToNavigationReport m') ∧
      m'.fullName =
        String.ofList (Text.dropTrailing ' ' (name.toList.take 20) ++ name.toList.drop 20) ∧
      (m'.fullName = name ↔ ¬ (20 < name.length ∧ name.toList[19]? = some ' ')) ∧
      ("name", Cell.text m'.fullName) ∈ (aidToNavigationReport m').fields := by
  obtain ⟨b, hb⟩ := encode_named name hm
  have hlist : name.toList.length ≤ 20 + 14 := by
    rw [String.length_toList]
    exact hlength
  have hname : (m.named name).normalised.fullName =
      String.ofList (Text.dropTrailing ' ' (name.toList.take 20) ++ name.toList.drop 20) :=
    Text.normalised_take_append_drop hlist hchars hlast
  have hdecode := decode_of_isPrefix hb (List.prefix_refl _) (slack_sub_self _ _)
  refine ⟨b, (m.named name).normalised, hb, hdecode, hname, ?_, ?_⟩
  · rw [hname, ← String.toList_inj, String.toList_ofList, ← String.length_toList]
    exact Text.dropTrailing_take_append_drop_iff hlast
  · simp [fields]

/-- A space right behind the cut, which is the first character of the extension. -/
theorem fullName_of_named_windFarms :
    ∃ b m', (aidToNavigationReport (buoy.named "NORTH SEA WIND FARMS NO 4")).encode = .ok b ∧
      decode b = .ok (aidToNavigationReport m') ∧ m'.fullName = "NORTH SEA WIND FARMS NO 4" := by
  have hbuoy := exists_encode_of_isOk (m := aidToNavigationReport buoy) (by decide +kernel)
  obtain ⟨b, m', hb, hdecode, -, hname, -⟩ := fullName_of_named buoy "NORTH SEA WIND FARMS NO 4"
    hbuoy (by decide +kernel) (by simp) (by decide +kernel)
  exact ⟨b, m', hb, hdecode, hname.mpr (by decide +kernel)⟩

/-- With a space right in front of the cut, two words of a name come back as one. -/
theorem fullName_of_space_at_cut :
    let name := "NORTH SEA WIND FARM NO 4"
    name.length ≤ 34 ∧ (∀ c ∈ name.toList, ' ' ≤ c ∧ c ≤ '_' ∧ c ≠ '@') ∧
      name.toList.getLast? ≠ some ' ' ∧
      ∃ b m', (aidToNavigationReport (buoy.named name)).encode = .ok b ∧
        decode b = .ok (aidToNavigationReport m') ∧ m'.fullName = "NORTH SEA WIND FARMNO 4" ∧
        m'.fullName ≠ name := by
  intro name
  obtain ⟨b, hb⟩ := exists_encode_of_isOk (m := aidToNavigationReport (buoy.named name))
    (by decide +kernel)
  have hdecode := decode_of_isPrefix hb (List.prefix_refl _) (slack_sub_self _ _)
  have hname : (buoy.named name).normalised.fullName = "NORTH SEA WIND FARMNO 4" := by
    decide +kernel
  refine ⟨by decide +kernel, by simp [name], by decide +kernel, b, _, hb, hdecode, hname, ?_⟩
  rw [hname]
  decide +kernel

end Message

end Transponder
