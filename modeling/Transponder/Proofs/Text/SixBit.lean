import Mathlib.Data.List.DropRight
import Transponder.Text.SixBit

/-!
# What becomes of a text

`normalised count s` says without codes what is read back from a field of `count` characters that
`s` was written into: `fieldText_eq_normalised`. The zeros that fill a short field are those of `@`,
where the text ends for the reader.
-/

namespace Transponder.Text

/-- The character that is sent for a character. -/
def sentChar (c : Char) : Char :=
  let u := c.toUpper
  if ' ' ≤ u && u ≤ '_' then u else '?'

/-- A text in upper case, a character outside the 64 of the wire replaced by `?`, cut to `count`
characters and before the first `@`, and without the spaces at its end. -/
def normalised (count : Nat) (s : String) : String :=
  String.ofList (dropTrailing ' ' (((s.toList.map sentChar).take count).takeWhile (· != '@')))

theorem sixBitChar_sixBitCode (c : Char) : sixBitChar (sixBitCode c) = sentChar c := by
  unfold sixBitCode sentChar
  have h₁ : '@'.toNat = 64 := rfl
  have h₂ : '_'.toNat = 95 := rfl
  have h₃ : '?'.toNat = 63 := rfl
  have h₄ : ' '.toNat = 32 := rfl
  have le : ∀ x y : Char, (x ≤ y) = (x.toNat ≤ y.toNat) := fun _ _ => rfl
  simp only [Bool.and_eq_true, decide_eq_true_eq, le]
  by_cases hu : '@'.toNat ≤ c.toUpper.toNat ∧ c.toUpper.toNat ≤ '_'.toNat
  · rw [if_pos hu, if_pos (by omega), sixBitChar, if_pos (by omega),
      Nat.sub_add_cancel (by omega), Char.ofNat_toNat]
  · by_cases hl : ' '.toNat ≤ c.toUpper.toNat ∧ c.toUpper.toNat ≤ '?'.toNat
    · rw [if_neg hu, if_pos hl, if_pos (by omega), sixBitChar, if_neg (by omega), Char.ofNat_toNat]
    · rw [if_neg hu, if_neg hl, if_neg (by omega)]
      rfl

theorem eq_zero_of_sixBitChar : ∀ code < 64, sixBitChar code = '@' → code = 0 := by
  decide +kernel

theorem sixBitCode_eq_zero_iff (c : Char) : sixBitCode c = 0 ↔ sentChar c = '@' := by
  rw [← sixBitChar_sixBitCode]
  constructor
  · intro h
    rw [h]
    rfl
  · intro h
    exact eq_zero_of_sixBitChar _ (sixBitCode_lt c) h

theorem fieldCodes_lt (count : Nat) (s : String) : ∀ code ∈ fieldCodes count s, code < 64 := by
  intro code h
  rw [fieldCodes, List.mem_append, List.mem_map] at h
  rcases h with ⟨c, -, rfl⟩ | h
  · exact sixBitCode_lt c
  · rw [List.eq_of_mem_replicate h]
    decide

theorem takeWhile_append_replicate_zero (codes : List Nat) (n : Nat) :
    (codes ++ List.replicate n 0).takeWhile (· != 0) = codes.takeWhile (· != 0) := by
  induction codes with
  | nil => cases n <;> rfl
  | cons code codes ih =>
    rw [List.cons_append, List.takeWhile_cons, List.takeWhile_cons, ih]

theorem fieldText_eq_normalised (count : Nat) (s : String) :
    fieldText count s = normalised count s := by
  have hzero : ∀ c : Char, (sixBitCode c != 0) = (sentChar c != '@') := fun c => by
    rw [Bool.eq_iff_iff, bne_iff_ne, bne_iff_ne, ne_eq, sixBitCode_eq_zero_iff]
  have hchar : sixBitChar ∘ sixBitCode = sentChar := funext sixBitChar_sixBitCode
  have hcut : (fun code => code != 0) ∘ sixBitCode = (fun c => c != '@') ∘ sentChar := funext hzero
  unfold fieldText ofFieldCodes fieldCodes normalised
  rw [takeWhile_append_replicate_zero, ← List.map_take, List.takeWhile_map, List.takeWhile_map,
    List.map_map, hchar, hcut]

/-- What is sent is a character of the wire. -/
theorem sentChar_range (c : Char) : ' ' ≤ sentChar c ∧ sentChar c ≤ '_' := by
  unfold sentChar
  dsimp only
  split
  case isTrue h => simpa only [Bool.and_eq_true, decide_eq_true_eq] using h
  case isFalse => decide

/-- A text that a field of `count` characters can hold as it is. -/
structure IsFieldText (count : Nat) (s : String) : Prop where
  length_le : s.length ≤ count
  sent : ∀ c ∈ s.toList, sentChar c = c
  at_not_mem : '@' ∉ s.toList
  trimmed : dropTrailing ' ' s.toList = s.toList

theorem IsFieldText.mono {count limit : Nat} {s : String} (h : IsFieldText count s)
    (hle : count ≤ limit) : IsFieldText limit s :=
  { h with length_le := Nat.le_trans h.length_le hle }

theorem IsFieldText.normalised_eq {count : Nat} {s : String} (h : IsFieldText count s) :
    normalised count s = s := by
  have hsent : s.toList.map sentChar = s.toList :=
    (List.map_congr_left h.sent).trans (List.map_id' _)
  have htake : s.toList.take count = s.toList :=
    List.take_of_length_le (String.length_toList ▸ h.length_le)
  have hcut : s.toList.takeWhile (· != '@') = s.toList :=
    List.takeWhile_eq_self_iff.mpr fun c hc => bne_iff_ne.mpr fun he => h.at_not_mem (he ▸ hc)
  rw [normalised, hsent, htake, hcut, h.trimmed, String.ofList_toList]

theorem sentChar_sixBitChar : ∀ code < 64, sentChar (sixBitChar code) = sixBitChar code := by
  decide +kernel

theorem dropTrailing_eq_rdropWhile (c : Char) (cs : List Char) :
    dropTrailing c cs = cs.rdropWhile (· == c) := rfl

theorem IsFieldText.getLast?_ne {count : Nat} {s : String} (h : IsFieldText count s) :
    s.toList.getLast? ≠ some ' ' := by
  have htrim := h.trimmed
  rw [dropTrailing_eq_rdropWhile, List.rdropWhile_eq_self_iff] at htrim
  intro hlast
  obtain ⟨hne, hget⟩ := List.mem_getLast?_eq_getLast hlast
  exact htrim hne (by rw [← hget]; rfl)

/-- What is read from a field can be written into it again. -/
theorem isFieldText_ofFieldCodes {codes : List Nat} (h : ∀ code ∈ codes, code < 64) :
    IsFieldText codes.length (ofFieldCodes codes) := by
  have hfront : (ofFieldCodes codes).toList <+: (codes.takeWhile (· != 0)).map sixBitChar := by
    rw [ofFieldCodes, String.toList_ofList]
    exact List.rdropWhile_prefix _ _
  have hcode : ∀ c ∈ (ofFieldCodes codes).toList, ∃ code < 64, code ≠ 0 ∧ sixBitChar code = c := by
    intro c hc
    obtain ⟨code, hmem, rfl⟩ := List.mem_map.mp (hfront.subset hc)
    have hne := List.mem_takeWhile_imp (p := (· != 0)) hmem
    exact ⟨code, h code (List.takeWhile_subset _ hmem), bne_iff_ne.mp hne, rfl⟩
  refine ⟨?_, fun c hc => ?_, fun hat => ?_, ?_⟩
  · have hlen := hfront.length_le
    rw [List.length_map, String.length_toList] at hlen
    exact Nat.le_trans hlen (List.takeWhile_prefix _).length_le
  · obtain ⟨code, hlt, -, rfl⟩ := hcode c hc
    exact sentChar_sixBitChar code hlt
  · obtain ⟨code, hlt, hne, he⟩ := hcode _ hat
    exact hne (eq_zero_of_sixBitChar code hlt he)
  · rw [ofFieldCodes, String.toList_ofList, dropTrailing_eq_rdropWhile,
      dropTrailing_eq_rdropWhile, List.rdropWhile_idempotent]

/-- A field with room for the whole text cuts nothing. -/
theorem normalised_min (count : Nat) (s : String) :
    normalised (min s.length count) s = normalised count s := by
  unfold normalised
  rw [← String.length_toList, ← List.length_map (f := sentChar), Nat.min_comm,
    ← List.take_eq_take_min]

end Transponder.Text
