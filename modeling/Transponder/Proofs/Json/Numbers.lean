import Transponder.Json.Parser
import Transponder.Json.Printer
import Transponder.Proofs.Text.Numerals

/-!
# The numbers in a JSON text

`IsNumber` is the shape of a JSON number: a sign, digits without a zero in front of others, a
fraction, an exponent. A number is read to its end, whatever follows that is no part of it
(`numeral?_append`). What is written for natural numbers and for binary64 numbers has that shape,
and a natural number of 64 bits is read back as itself (`number?_toDigits`).
-/

namespace Transponder.Json

variable {cs ds rest whole fraction exponent : List Char}

/-- One or more digits. -/
def IsDigits (ds : List Char) : Prop :=
  ds ≠ [] ∧ ∀ c ∈ ds, c.isDigit = true

/-- Digits of which the first is a zero only if it is the only one. -/
def IsWhole (ds : List Char) : Prop :=
  IsDigits ds ∧ (ds = ['0'] ∨ ds.head? ≠ some '0')

/-- A fraction, or nothing. -/
inductive IsFraction : List Char → Prop where
  | none : IsFraction []
  | some {ds : List Char} (h : IsDigits ds) : IsFraction ('.' :: ds)

/-- An exponent with its sign, or nothing. -/
inductive IsExponent : List Char → Prop where
  | none : IsExponent []
  | some {ds : List Char} (sign : Char) (hsign : sign = '+' ∨ sign = '-') (h : IsDigits ds) :
    IsExponent ('e' :: sign :: ds)

/-- The text of a number that is not negative. -/
def IsUnsigned (cs : List Char) : Prop :=
  ∃ whole fraction exponent, IsWhole whole ∧ IsFraction fraction ∧ IsExponent exponent ∧
    cs = whole ++ (fraction ++ exponent)

/-- The text of a number. -/
def IsNumber (cs : List Char) : Prop :=
  IsUnsigned cs ∨ ∃ ds, IsUnsigned ds ∧ cs = '-' :: ds

/-- A text that does not go on with the digits in front of it. -/
def EndsDigits (rest : List Char) : Prop :=
  ∀ c ∈ rest.head?, c.isDigit = false

/-- A text that does not go on with the number in front of it. -/
def EndsNumber (rest : List Char) : Prop :=
  ∀ c ∈ rest.head?, c.isDigit = false ∧ c ≠ '.' ∧ c ≠ 'e' ∧ c ≠ 'E'

/-- The value of a text that is a number. -/
def number? (cs : List Char) : Option Json :=
  match numeral? cs with
  | some (x, []) => some x.value
  | _ => none

theorem EndsNumber.digits (h : EndsNumber rest) : EndsDigits rest :=
  fun c hc => (h c hc).1

theorem endsDigits_cons {c : Char} (hc : c.isDigit = false) : EndsDigits (c :: rest) :=
  fun _ hd => Option.some.inj hd ▸ hc

/-! ## Digits -/

/-- The value of a digit. -/
def digitOf (c : Char) : Nat :=
  c.toNat - '0'.toNat

theorem takeDigits_of_endsDigits (h : EndsDigits rest) : takeDigits rest = ([], rest) := by
  cases rest with
  | nil => rfl
  | cons c cs => rw [takeDigits, Text.digitValue?_of_not_isDigit (h c rfl)]

theorem takeDigits_append (h : ∀ c ∈ ds, c.isDigit = true) (hrest : EndsDigits rest) :
    takeDigits (ds ++ rest) = (ds.map digitOf, rest) := by
  induction ds with
  | nil => exact takeDigits_of_endsDigits hrest
  | cons c ds ih =>
    rw [List.forall_mem_cons] at h
    rw [List.cons_append, takeDigits, Text.digitValue?_of_isDigit h.1, ih h.2]
    rfl

theorem IsDigits.map_ne_nil (h : IsDigits ds) : ds.map digitOf ≠ [] :=
  fun hnil => h.1 (List.map_eq_nil_iff.mp hnil)

theorem digitOf_eq_zero {c : Char} (hc : c.isDigit = true) (h : digitOf c = 0) : c = '0' := by
  have hlow : '0' ≤ c := of_decide_eq_true (Bool.and_eq_true_iff.mp hc).1
  have hlow : 48 ≤ c.toNat := hlow
  have hle : c.toNat ≤ 48 := Nat.sub_eq_zero_iff_le.mp h
  rw [← Char.ofNat_toNat c, Nat.le_antisymm hle hlow]

theorem wholeDigits?_append (h : IsWhole ds) (hrest : EndsDigits rest) :
    wholeDigits? (ds ++ rest) = some (ds.map digitOf, rest) := by
  obtain ⟨⟨hne, hdigits⟩, hzero⟩ := h
  rw [wholeDigits?, takeDigits_append hdigits hrest]
  match ds with
  | [] => exact absurd rfl hne
  | [c] =>
    rw [List.map_singleton]
    cases digitOf c <;> rfl
  | c :: d :: ds =>
    have hc : digitOf c ≠ 0 := fun hc => by
      rcases hzero with hzero | hzero
      · cases hzero
      · rw [digitOf_eq_zero (hdigits c List.mem_cons_self) hc] at hzero
        exact hzero rfl
    rw [List.map_cons]
    obtain ⟨n, hn⟩ := Nat.exists_eq_succ_of_ne_zero hc
    rw [hn]
    rfl

/-! ## The other parts -/

theorem fractionDigits?_append (h : IsFraction fraction) : ∃ digits,
    (fraction = [] → digits = none) ∧ ∀ rest, EndsDigits rest → (∀ c ∈ rest.head?, c ≠ '.') →
      fractionDigits? (fraction ++ rest) = some (digits, rest) := by
  cases h with
  | none =>
    refine ⟨none, fun _ => rfl, fun rest hrest hdot => ?_⟩
    rw [List.nil_append, fractionDigits?]
    exact fun cs hcs => hdot '.' (by rw [hcs]; rfl) rfl
  | some h =>
    rename_i ds
    refine ⟨some (ds.map digitOf), fun hnil => (nomatch hnil), fun rest hrest _ => ?_⟩
    rw [List.cons_append, fractionDigits?, takeDigits_append h.2 hrest]
    cases hds : ds.map digitOf with
    | nil => exact absurd hds h.map_ne_nil
    | cons d ds => rfl

theorem exponent?_append (h : IsExponent exponent) : ∃ value, (exponent = [] → value = none) ∧
    ∀ rest, EndsNumber rest → exponent? (exponent ++ rest) = some (value, rest) := by
  cases h with
  | none =>
    refine ⟨none, fun _ => rfl, fun rest hrest => ?_⟩
    rw [List.nil_append]
    cases rest with
    | nil => rfl
    | cons c cs =>
      obtain ⟨-, -, he, hE⟩ := hrest c rfl
      have hletter : ¬(decide (c = 'e') || decide (c = 'E')) = true := by simp [he, hE]
      rw [exponent?, if_neg hletter]
  | some sign hsign h =>
    rename_i ds
    have hread : ∀ {rest}, EndsNumber rest →
        takeDigits (ds ++ rest) = (ds.map digitOf, rest) :=
      fun hrest => takeDigits_append h.2 hrest.digits
    obtain ⟨d, digits, hdigits⟩ := List.exists_cons_of_ne_nil h.map_ne_nil
    rw [hdigits] at hread
    rcases hsign with rfl | rfl
    · refine ⟨some ((d :: digits).foldl (fun n d => n * 10 + d) 0 : Nat),
        fun hnil => (nomatch hnil), fun rest hrest => ?_⟩
      rw [List.cons_append, List.cons_append, exponent?, if_pos (by decide), takeSign]
      dsimp only
      rw [hread hrest]
      rfl
    · refine ⟨some (-((d :: digits).foldl (fun n d => n * 10 + d) 0 : Nat)),
        fun hnil => (nomatch hnil), fun rest hrest => ?_⟩
      rw [List.cons_append, List.cons_append, exponent?, if_pos (by decide), takeSign]
      dsimp only
      rw [hread hrest]
      rfl

theorem endsDigits_fraction (h : IsFraction fraction) (hrest : EndsDigits rest) :
    EndsDigits (fraction ++ rest) := by
  cases h with
  | none => exact hrest
  | some => exact endsDigits_cons rfl

theorem endsDigits_exponent (h : IsExponent exponent) (hrest : EndsDigits rest) :
    EndsDigits (exponent ++ rest) ∧ ((∀ c ∈ rest.head?, c ≠ '.') →
      ∀ c ∈ (exponent ++ rest).head?, c ≠ '.') := by
  cases h with
  | none => exact ⟨hrest, id⟩
  | some => exact ⟨endsDigits_cons rfl, fun _ c hc => by cases hc; decide⟩

/-! ## A number -/

theorem head?_of_isWhole (h : IsWhole whole) (rest : List Char) :
    ∀ c ∈ (whole ++ rest).head?, c.isDigit = true := by
  intro c hc
  obtain ⟨⟨hne, hdigits⟩, -⟩ := h
  obtain ⟨d, ds, rfl⟩ := List.exists_cons_of_ne_nil hne
  exact Option.some.inj hc ▸ hdigits d List.mem_cons_self

/-- The number at the start of a text behind its sign. -/
def unsigned? (negative : Bool) (cs : List Char) : Option (Numeral × List Char) := do
  let (whole, cs) ← wholeDigits? cs
  let (fraction, cs) ← fractionDigits? cs
  let (exponent, cs) ← exponent? cs
  return ({ negative, whole, fraction, exponent }, cs)

theorem numeral?_minus (cs : List Char) : numeral? ('-' :: cs) = unsigned? true cs :=
  rfl

theorem numeral?_of_isDigit (h : ∀ c ∈ cs.head?, c.isDigit = true) :
    numeral? cs = unsigned? false cs := by
  rw [numeral?, unsigned?]
  rintro tail rfl
  exact absurd (h '-' rfl) (by decide)

theorem unsigned?_append (hwhole : IsWhole whole) (hfraction : IsFraction fraction)
    (hexponent : IsExponent exponent) : ∃ digits value, (fraction = [] → digits = none) ∧
      (exponent = [] → value = none) ∧ ∀ negative rest, EndsNumber rest →
        unsigned? negative (whole ++ (fraction ++ exponent) ++ rest) =
          some (⟨negative, whole.map digitOf, digits, value⟩, rest) := by
  obtain ⟨digits, hnofraction, hdigits⟩ := fractionDigits?_append hfraction
  obtain ⟨value, hnoexponent, hvalue⟩ := exponent?_append hexponent
  refine ⟨digits, value, hnofraction, hnoexponent, fun negative rest hrest => ?_⟩
  obtain ⟨hends, hdot⟩ := endsDigits_exponent hexponent hrest.digits
  rw [List.append_assoc, List.append_assoc, unsigned?,
    wholeDigits?_append hwhole (endsDigits_fraction hfraction hends)]
  show (do
    let (fraction, cs) ← fractionDigits? (fraction ++ (exponent ++ rest))
    let (exponent, cs) ← exponent? cs
    return ((⟨negative, whole.map digitOf, fraction, exponent⟩ : Numeral), cs)) = _
  rw [hdigits _ hends (hdot fun c hc => (hrest c hc).2.1)]
  show (do
    let (exponent, cs) ← exponent? (exponent ++ rest)
    return ((⟨negative, whole.map digitOf, digits, exponent⟩ : Numeral), cs)) = _
  rw [hvalue rest hrest]
  rfl

/-- A number is read to its end. -/
theorem numeral?_append (h : IsNumber cs) : ∃ x, ∀ rest, EndsNumber rest →
    numeral? (cs ++ rest) = some (x, rest) := by
  rcases h with ⟨whole, fraction, exponent, hwhole, hfraction, hexponent, rfl⟩ |
    ⟨_, ⟨whole, fraction, exponent, hwhole, hfraction, hexponent, rfl⟩, rfl⟩
  · obtain ⟨digits, value, -, -, hread⟩ := unsigned?_append hwhole hfraction hexponent
    refine ⟨⟨false, whole.map digitOf, digits, value⟩, fun rest hrest => ?_⟩
    rw [numeral?_of_isDigit, hread false rest hrest]
    rw [List.append_assoc]
    exact head?_of_isWhole hwhole _
  · obtain ⟨digits, value, -, -, hread⟩ := unsigned?_append hwhole hfraction hexponent
    refine ⟨⟨true, whole.map digitOf, digits, value⟩, fun rest hrest => ?_⟩
    rw [List.cons_append, numeral?_minus, hread true rest hrest]

theorem exists_number? (h : IsNumber cs) : ∃ v, number? cs = some v := by
  obtain ⟨x, hx⟩ := numeral?_append h
  have hnil := hx [] (fun c hc => nomatch hc)
  rw [List.append_nil] at hnil
  exact ⟨x.value, by rw [number?, hnil]⟩

/-! ## Natural numbers -/

theorem isDigits_toDigits (n : Nat) : IsDigits (Nat.toDigits 10 n) :=
  ⟨Nat.toDigits_ne_nil, fun _ => Nat.isDigit_of_mem_toDigits (by decide) (by decide)⟩

theorem head?_toDigits {n : Nat} (h : 0 < n) : (Nat.toDigits 10 n).head? ≠ some '0' := by
  induction n using Nat.strongRecOn with
  | ind n ih =>
    rw [Nat.toDigits_eq_if (by decide)]
    split
    case isTrue hlt =>
      have hdigit : ∀ d < 10, 0 < d → Nat.digitChar d ≠ '0' := by decide
      rw [List.head?_cons]
      exact fun hd => hdigit n hlt h (Option.some.inj hd)
    case isFalse hge =>
      have hfirst := ih (n / 10) (by omega) (by omega)
      obtain ⟨c, cs, hcs⟩ := List.exists_cons_of_ne_nil (isDigits_toDigits (n / 10)).1
      rw [hcs] at hfirst
      rwa [hcs, List.cons_append, List.head?_cons]

theorem isWhole_toDigits (n : Nat) : IsWhole (Nat.toDigits 10 n) := by
  refine ⟨isDigits_toDigits n, ?_⟩
  rcases Nat.eq_zero_or_pos n with rfl | hpos
  · exact .inl rfl
  · exact .inr (head?_toDigits hpos)

theorem isNumber_toDigits (n : Nat) : IsNumber (Nat.toDigits 10 n) :=
  .inl ⟨_, [], [], isWhole_toDigits n, .none, .none, (List.append_nil _).symm⟩

theorem le_foldl (n : Nat) (ds : List Nat) : n ≤ ds.foldl (fun n d => n * 10 + d) n := by
  induction ds generalizing n with
  | nil => exact Nat.le_refl n
  | cons d ds ih =>
    have hle := ih (n * 10 + d)
    rw [List.foldl_cons]
    omega

/-- Digits that fit all go into the significand. -/
theorem gather_eq {n : Nat} {ds : List Nat}
    (h : ds.foldl (fun n d => n * 10 + d) n ≤ maxSignificand) :
    gather n ds = (ds.foldl (fun n d => n * 10 + d) n, []) := by
  induction ds generalizing n with
  | nil => rfl
  | cons d ds ih =>
    rw [List.foldl_cons] at h ⊢
    rw [gather, if_pos (Nat.le_trans (le_foldl _ ds) h), ih h]

theorem foldl_digitOf_toDigits (n : Nat) :
    ((Nat.toDigits 10 n).map digitOf).foldl (fun n d => n * 10 + d) 0 = n := by
  have hvalue : Nat.ofDigitChars 10 (Nat.toDigits 10 n) 0 = n := Nat.ofDigitChars_ten_toDigits
  rw [List.foldl_map]
  rw [Nat.ofDigitChars] at hvalue
  simpa only [digitOf, Nat.mul_comm 10] using hvalue

/-- A natural number of 64 bits is read back. -/
theorem number?_toDigits {n : Nat} (h : n ≤ maxSignificand) :
    number? (Nat.toDigits 10 n) = some (.integer n) := by
  obtain ⟨digits, value, hdigits, hvalue, hread⟩ :=
    unsigned?_append (isWhole_toDigits n) .none .none
  have hnil := hread false [] (fun c hc => nomatch hc)
  rw [hdigits rfl, hvalue rfl, List.append_nil, List.append_nil, List.append_nil] at hnil
  rw [number?, numeral?_of_isDigit, hnil]
  · show some (Numeral.value _) = _
    rw [Numeral.value]
    dsimp only
    rw [gather_eq (by rwa [foldl_digitOf_toDigits]), foldl_digitOf_toDigits]
    rfl
  · have hhead := head?_of_isWhole (isWhole_toDigits n) []
    rwa [List.append_nil] at hhead

/-! ## Binary64 numbers -/

/-- Digits of which the first is not a zero. -/
def IsLeading (ds : List Char) : Prop :=
  IsDigits ds ∧ ds.head? ≠ some '0'

theorem isDigits_zeros {n : Nat} {ds : List Char} (h : IsDigits ds) :
    IsDigits (List.replicate n '0' ++ ds) ∧ IsDigits (ds ++ List.replicate n '0') := by
  have hzeros : ∀ c ∈ List.replicate n '0', c.isDigit = true := fun c hc => by
    rw [List.eq_of_mem_replicate hc]
    rfl
  exact ⟨⟨List.append_ne_nil_of_right_ne_nil _ h.1, List.forall_mem_append.mpr ⟨hzeros, h.2⟩⟩,
    List.append_ne_nil_of_left_ne_nil h.1 _, List.forall_mem_append.mpr ⟨h.2, hzeros⟩⟩

theorem IsLeading.take (h : IsLeading ds) {n : Nat} (hn : 0 < n) : IsWhole (ds.take n) := by
  obtain ⟨⟨hne, hdigits⟩, hhead⟩ := h
  obtain ⟨n, rfl⟩ := Nat.exists_eq_add_one_of_ne_zero (Nat.ne_of_gt hn)
  obtain ⟨c, cs, rfl⟩ := List.exists_cons_of_ne_nil hne
  exact ⟨⟨List.cons_ne_nil _ _, fun d hd => hdigits d (List.mem_of_mem_take hd)⟩, .inr hhead⟩

theorem isLeading_digits {n : Nat} (h : (Decimal.digits n).1 ≠ []) :
    IsLeading (Decimal.digits n).1 := by
  have hfront : (Decimal.digits n).1 <+: Nat.toDigits 10 n := by
    rw [← List.reverse_suffix, Decimal.digits, Text.dropTrailing, List.reverse_reverse]
    exact List.dropWhile_suffix _
  refine ⟨⟨h, fun c hc => (isDigits_toDigits n).2 c (hfront.subset hc)⟩, ?_⟩
  obtain ⟨rest, hrest⟩ := hfront
  obtain ⟨c, cs, hcs⟩ := List.exists_cons_of_ne_nil h
  rcases Nat.eq_zero_or_pos n with rfl | hpos
  · exact absurd rfl h
  · have hhead := head?_toDigits hpos
    rw [← hrest, hcs] at hhead
    rwa [hcs]

theorem isDigits_zero : IsDigits ['0'] :=
  ⟨List.cons_ne_nil _ _, List.forall_mem_singleton.mpr rfl⟩

theorem isUnsigned_positional (h : IsLeading ds) (point : Int) :
    IsUnsigned (Decimal.positional ds point ".0").toList := by
  unfold Decimal.positional
  split
  case isTrue =>
    rw [String.toList_ofList]
    exact ⟨['0'], _, [], ⟨isDigits_zero, .inl rfl⟩, .some (isDigits_zeros h.1).1, .none,
      by rw [List.append_nil]; rfl⟩
  case isFalse hpoint =>
    split
    case isTrue =>
      rw [String.toList_append, String.toList_ofList]
      refine ⟨_, _, [], ⟨(isDigits_zeros h.1).2, .inr ?_⟩, .some isDigits_zero, .none, rfl⟩
      obtain ⟨c, cs, rfl⟩ := List.exists_cons_of_ne_nil h.1.1
      exact h.2
    case isFalse hlength =>
      rw [String.toList_ofList]
      have hdrop : IsDigits (ds.drop point.toNat) := by
        refine ⟨fun hnil => ?_, fun c hc => h.1.2 c (List.mem_of_mem_drop hc)⟩
        have hle := List.drop_eq_nil_iff.mp hnil
        omega
      have hpos : 0 < point.toNat := by omega
      exact ⟨_, _, [], h.take hpos, .some hdrop, .none, by rw [List.append_nil]⟩

theorem isUnsigned_scientific (h : IsLeading ds) (exponent : Int) :
    IsUnsigned (Decimal.scientific ds exponent).toList := by
  have hfraction : IsFraction (if ds.length ≤ 1 then [] else '.' :: ds.drop 1) := by
    split
    case isTrue => exact .none
    case isFalse hlength =>
      refine .some ⟨fun hnil => ?_, fun c hc => h.1.2 c (List.mem_of_mem_drop hc)⟩
      have hle := List.drop_eq_nil_iff.mp hnil
      omega
  refine ⟨_, _, _, h.take Nat.one_pos, hfraction,
    .some (if exponent < 0 then '-' else '+') ?_ (isDigits_toDigits exponent.natAbs), ?_⟩
  · split
    case isTrue => exact .inr rfl
    case isFalse => exact .inl rfl
  · have hsign : (if exponent < 0 then "-" else "+").toList =
        [if exponent < 0 then '-' else '+'] := by
      split <;> rfl
    unfold Decimal.scientific
    rw [Nat.toString_eq_ofList_toDigits]
    simp only [String.toList_append, String.toList_ofList, List.append_assoc]
    rw [hsign]
    rfl

theorem isUnsigned_render (x : Decimal) : IsUnsigned (x.render .interchange).toList := by
  unfold Decimal.render
  split
  case h_1 => exact ⟨['0'], ['.', '0'], [], isWhole_toDigits 0, .some isDigits_zero, .none, rfl⟩
  case h_2 ds zeros hne hdigits =>
    have hds : IsLeading ds := by
      have hleading := @isLeading_digits x.significand
      rw [hdigits] at hleading
      exact hleading hne
    dsimp only
    split
    case isTrue => exact isUnsigned_positional hds _
    case isFalse => exact isUnsigned_scientific hds _

/-- What is written for a finite number is a number. -/
theorem isNumber_realChars {x : Binary64} (h : x.isFinite = true) : IsNumber (realChars x) := by
  rw [realChars, if_pos h]
  cases x with
  | finite s m =>
    have hmagnitude := isUnsigned_render (Decimal.shortest Decimal.Style.interchange.tie m)
    rw [Binary64.render, String.toList_append]
    cases s with
    | false => exact .inl hmagnitude
    | true => exact .inr ⟨_, hmagnitude, rfl⟩
  | infinite s => cases h
  | nan => cases h

end Transponder.Json
