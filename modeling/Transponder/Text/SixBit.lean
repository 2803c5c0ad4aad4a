import Transponder.Text.Ascii

/-!
# Six-bit text

The texts of the wire are made of 64 characters: the ASCII characters from space to underscore,
where `@` has the code zero and fills the end of a field. A text that goes into a field of `count`
characters is put into upper case, a character without a code becomes `?`, and it is cut or filled
to the length. Reading stops at the first `@` and drops the spaces at the end, so what comes out is
`fieldText count s`.
-/

namespace Transponder.Text

/-- The six-bit code of a character in upper case, that of `?` if it has none. -/
def sixBitCode (c : Char) : Nat :=
  let u := c.toUpper
  if '@' ≤ u && u ≤ '_' then u.toNat - 64
  else if ' ' ≤ u && u ≤ '?' then u.toNat
  else '?'.toNat

/-- The character with a six-bit code. -/
def sixBitChar (code : Nat) : Char :=
  if code < 32 then Char.ofNat (code + 64) else Char.ofNat code

/-- The codes of a text in a field of `count` characters. -/
def fieldCodes (count : Nat) (s : String) : List Nat :=
  let codes := (s.toList.take count).map sixBitCode
  codes ++ List.replicate (count - codes.length) 0

/-- The text that the codes of a field stand for. -/
def ofFieldCodes (codes : List Nat) : String :=
  String.ofList (dropTrailing ' ' ((codes.takeWhile (· != 0)).map sixBitChar))

/-- The text as it is read back from a field of `count` characters. -/
def fieldText (count : Nat) (s : String) : String :=
  ofFieldCodes (fieldCodes count s)

theorem sixBitCode_lt (c : Char) : sixBitCode c < 64 := by
  unfold sixBitCode
  have h1 : '@'.toNat = 64 := rfl
  have h2 : '_'.toNat = 95 := rfl
  have h3 : '?'.toNat = 63 := rfl
  simp only [Bool.and_eq_true, decide_eq_true_eq, Char.le_def, UInt32.le_iff_toNat_le]
  split
  · rename_i h
    have := h.2
    change c.toUpper.toNat ≤ '_'.toNat at this
    omega
  · split
    · rename_i h
      have := h.2
      change c.toUpper.toNat ≤ '?'.toNat at this
      omega
    · decide

@[simp] theorem length_fieldCodes (count : Nat) (s : String) :
    (fieldCodes count s).length = count := by
  simp only [fieldCodes, List.length_append, List.length_map, List.length_take,
    List.length_replicate]
  omega

example : fieldText 6 "ab\x7bd  " = "AB?D" ∧ fieldText 3 "a@b" = "A" := by
  decide +kernel

end Transponder.Text
