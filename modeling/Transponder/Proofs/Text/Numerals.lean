import Transponder.Proofs.Text.Fields

/-!
# What is read as a number

Which characters are digits and which texts are numerals: a hexadecimal digit is one that `hexDigit`
writes, in either case (`digitValue?_sixteen`), and a decimal numeral is a run of digits that may
have a plus sign in front (`natural?_eq_some_iff`).
-/

namespace Transponder.Text

variable {c d : Char} {cs : List Char} {base limit n : Nat}

theorem of_digitValue? (h : digitValue? base c = some n) : isAscii c = true ∧ n < base := by
  have le : ∀ x y : Char, (x ≤ y) = (x.toNat ≤ y.toNat) := fun _ _ => rfl
  obtain ⟨hvalue, hlt⟩ := Option.filter_eq_some_iff.mp h
  refine ⟨?_, of_decide_eq_true hlt⟩
  have h9 : '9'.toNat = 57 := rfl
  have hf : 'f'.toNat = 102 := rfl
  have hF : 'F'.toNat = 70 := rfl
  rw [isAscii, decide_eq_true_iff]
  simp only [Bool.and_eq_true, decide_eq_true_eq, le] at hvalue
  split at hvalue
  · omega
  · split at hvalue
    · omega
    · split at hvalue
      · omega
      · cases hvalue

/-- A hexadecimal digit is in upper or in lower case. -/
theorem digitValue?_sixteen :
    digitValue? 16 c = some n ↔ n < 16 ∧ (c = hexDigit true n ∨ c = hexDigit false n) := by
  have hwritten : ∀ n < 16, digitValue? 16 (hexDigit true n) = some n ∧
      digitValue? 16 (hexDigit false n) = some n := by
    decide +kernel
  constructor
  · intro h
    obtain ⟨hascii, hlt⟩ := of_digitValue? h
    have hc : ∀ n < 16, digitValue? 16 c = some n → c = hexDigit true n ∨ c = hexDigit false n := by
      refine of_isAscii hascii ?_
      decide +kernel
    exact ⟨hlt, hc n hlt h⟩
  · rintro ⟨hlt, rfl | rfl⟩
    · exact (hwritten n hlt).1
    · exact (hwritten n hlt).2

theorem isDigit_of_digitValue? (h : digitValue? 10 c = some n) : c.isDigit = true := by
  have hc : (digitValue? 10 c).isSome = true → c.isDigit = true := by
    refine of_isAscii (of_digitValue? h).1 ?_
    decide +kernel
  exact hc (by rw [h]; rfl)

theorem digitValue?_of_isDigit (h : c.isDigit = true) :
    digitValue? 10 c = some (c.toNat - '0'.toNat) := by
  obtain ⟨hlow, hhigh⟩ := Bool.and_eq_true_iff.mp h
  have hlow : '0' ≤ c := of_decide_eq_true hlow
  have hhigh : c ≤ '9' := of_decide_eq_true hhigh
  have hle : c.toNat ≤ 57 := hhigh
  rw [digitValue?, if_pos (by rw [decide_eq_true hlow, decide_eq_true hhigh]; rfl),
    Option.filter_some, if_pos (decide_eq_true ?_)]
  show c.toNat - 48 < 10
  omega

theorem digitValue?_of_not_isDigit (h : c.isDigit = false) : digitValue? 10 c = none := by
  cases hvalue : digitValue? 10 c with
  | none => rfl
  | some n =>
    rw [isDigit_of_digitValue? hvalue] at h
    cases h

/-! ## Numerals -/

theorem digitsValue?_singleton : digitsValue? base [c] = digitValue? base c := by
  show (do let n ← (digitValue? base c).map (0 * base + ·); some n) = _
  rw [Nat.zero_mul]
  cases digitValue? base c with
  | none => rfl
  | some n => exact congrArg some (Nat.zero_add n)

theorem digitsValue?_pair : digitsValue? base [c, d] =
    (digitValue? base c).bind fun x => (digitValue? base d).map (x * base + ·) := by
  show (do
    let n ← (digitValue? base c).map (0 * base + ·)
    let n ← (digitValue? base d).map (n * base + ·)
    some n) = _
  rw [Nat.zero_mul]
  cases digitValue? base c with
  | none => rfl
  | some x =>
    show ((digitValue? base d).map ((0 + x) * base + ·) >>= some) = _
    rw [Nat.zero_add]
    cases digitValue? base d <;> rfl

/-- A run of decimal digits, with or without a plus sign in front. -/
def IsNumeral (cs : List Char) : Prop :=
  dropPlus cs ≠ [] ∧ ∀ c ∈ dropPlus cs, c.isDigit = true

theorem isDigit_of_foldlM {start : Nat}
    (h : cs.foldlM (fun n c => (digitValue? 10 c).map (n * 10 + ·)) start = some n) :
    ∀ c ∈ cs, c.isDigit = true := by
  induction cs generalizing start with
  | nil => exact fun _ hc => absurd hc List.not_mem_nil
  | cons c cs ih =>
    rw [List.foldlM_cons] at h
    obtain ⟨next, hnext, h⟩ := Option.bind_eq_some_iff.mp h
    obtain ⟨v, hv, -⟩ := Option.map_eq_some_iff.mp hnext
    exact List.forall_mem_cons.mpr ⟨isDigit_of_digitValue? hv, ih h⟩

theorem isNumeral_of_natural? (h : natural? 10 limit cs = some n) : IsNumeral cs := by
  obtain ⟨hdigits, -⟩ := Option.filter_eq_some_iff.mp h
  unfold digitsValue? at hdigits
  split at hdigits
  case h_1 => cases hdigits
  case h_2 hne => exact ⟨hne, isDigit_of_foldlM hdigits⟩

theorem foldlM_of_isDigit {start : Nat} (h : ∀ c ∈ cs, c.isDigit = true) :
    cs.foldlM (fun n c => (digitValue? 10 c).map (n * 10 + ·)) start =
      some (Nat.ofDigitChars 10 cs start) := by
  induction cs generalizing start with
  | nil => rfl
  | cons c cs ih =>
    rw [List.foldlM_cons, digitValue?_of_isDigit (h c List.mem_cons_self)]
    show List.foldlM _ (start * 10 + (c.toNat - '0'.toNat)) cs = _
    rw [ih fun d hd => h d (List.mem_cons_of_mem c hd), Nat.mul_comm]
    rfl

/-- The texts that are read as a number are the numerals, and the number is that of the digits. -/
theorem natural?_eq_some_iff : natural? 10 limit cs = some n ↔
    IsNumeral cs ∧ Nat.ofDigitChars 10 (dropPlus cs) 0 = n ∧ n ≤ limit := by
  have hvalue (hnumeral : IsNumeral cs) :
      digitsValue? 10 (dropPlus cs) = some (Nat.ofDigitChars 10 (dropPlus cs) 0) := by
    unfold digitsValue?
    split
    case h_1 hnil => exact absurd hnil hnumeral.1
    case h_2 => exact foldlM_of_isDigit hnumeral.2
  constructor
  · intro h
    have hnumeral := isNumeral_of_natural? h
    rw [natural?, hvalue hnumeral, Option.filter_eq_some_iff, Option.some.injEq] at h
    exact ⟨hnumeral, h.1, of_decide_eq_true h.2⟩
  · rintro ⟨hnumeral, hn, hle⟩
    rw [natural?, hvalue hnumeral, hn, Option.filter_eq_some_iff]
    exact ⟨rfl, decide_eq_true hle⟩

end Transponder.Text
