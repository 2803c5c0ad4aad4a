import Transponder.Proofs.Json.Numbers
import Transponder.Proofs.Report.Csv
import Transponder.Proofs.Report.Fields

/-!
# Values that need no quotes

The names of a report and all its values but texts are made of letters, digits and a few signs:
names of codes, times, data in base64 and numbers, even those that are not finite. Such a plain text
needs no quotes among comma-separated values and no escapes in JSON (`of_isPlain`). Every cell of
every message that is not a text is plain (`plainCell_of_mem_reportFields`).
-/

namespace Transponder.Report

/-- Whether a character is written as it is in both kinds of lines. -/
def isPlain (c : Char) : Bool :=
  c.isAlphanum || ['-', '+', '.', '/', ':', '=', '_'].contains c

/-- A text of such characters. -/
def IsPlain (cs : List Char) : Prop :=
  ∀ c ∈ cs, isPlain c = true

instance (cs : List Char) : Decidable (IsPlain cs) :=
  decidable_of_iff (cs.all isPlain = true) List.all_eq_true

variable {cs ds : List Char} {c : Char}

/-! ## Plain texts -/

theorem isAscii_of_isPlain (h : isPlain c = true) : Text.isAscii c = true := by
  rcases Bool.or_eq_true_iff.mp h with halnum | hother
  · exact Text.isAscii_of_isAlphanum halnum
  · have hall : ∀ d ∈ ['-', '+', '.', '/', ':', '=', '_'], Text.isAscii d = true :=
      List.all_eq_true.mp (by decide)
    exact hall c (List.contains_iff_mem.mp hother)

theorem of_isPlain (h : isPlain c = true) :
    (c ≠ ',' ∧ c ≠ '"' ∧ c ≠ '\r' ∧ c ≠ '\n') ∧ Json.escapeChar c = [c] := by
  have hc : isPlain c = true →
      (c ≠ ',' ∧ c ≠ '"' ∧ c ≠ '\r' ∧ c ≠ '\n') ∧ Json.escapeChar c = [c] := by
    refine Text.of_isAscii (isAscii_of_isPlain h) ?_
    decide +kernel
  exact hc h

theorem IsPlain.isBare (h : IsPlain cs) : Csv.IsBare cs :=
  fun c hc => (of_isPlain (h c hc)).1

theorem IsPlain.stringChars {s : String} (h : IsPlain s.toList) :
    Json.stringChars s = '"' :: s.toList ++ ['"'] := by
  have hsame : ∀ cs, IsPlain cs → cs.flatMap Json.escapeChar = cs := by
    intro cs hcs
    induction cs with
    | nil => rfl
    | cons c cs ih =>
      obtain ⟨hc, hcs⟩ := List.forall_mem_cons.mp hcs
      rw [List.flatMap_cons, (of_isPlain hc).2, ih hcs]
      rfl
  rw [Json.stringChars, hsame _ h]

theorem isPlain_nil : IsPlain [] :=
  fun _ hc => absurd hc List.not_mem_nil

theorem isPlain_cons : IsPlain (c :: cs) ↔ isPlain c = true ∧ IsPlain cs :=
  List.forall_mem_cons

theorem isPlain_append : IsPlain (cs ++ ds) ↔ IsPlain cs ∧ IsPlain ds :=
  List.forall_mem_append

theorem isPlain_replicate (n : Nat) (h : isPlain c = true) : IsPlain (List.replicate n c) :=
  fun _ hd => List.eq_of_mem_replicate hd ▸ h

theorem isPlain_toDigits (n : Nat) : IsPlain (Nat.toDigits 10 n) := by
  intro c hc
  rw [isPlain, Char.isAlphanum, (Json.isDigits_toDigits n).2 c hc, Bool.or_true, Bool.true_or]

theorem isPlain_toString (n : Nat) : IsPlain (toString n).toList := by
  rw [Nat.toString_eq_ofList_toDigits, String.toList_ofList]
  exact isPlain_toDigits n

/-! ## Times -/

theorem isPlain_padded (width n : Nat) : IsPlain (Date.padded width n) :=
  isPlain_append.mpr ⟨isPlain_replicate _ rfl, isPlain_toDigits n⟩

theorem isPlain_yearChars (year : Int) : IsPlain (Date.yearChars year) := by
  refine isPlain_append.mpr ⟨?_, isPlain_padded 4 _⟩
  split
  case isTrue => decide
  case isFalse => split <;> decide

theorem isPlain_fractionChars (n : Nat) : IsPlain (Moment.fractionChars n) := by
  have hdot : isPlain '.' = true := rfl
  unfold Moment.fractionChars
  split
  case isTrue => exact isPlain_nil
  case isFalse =>
    split
    case isTrue => exact isPlain_cons.mpr ⟨hdot, isPlain_padded 3 _⟩
    case isFalse =>
      split
      case isTrue => exact isPlain_cons.mpr ⟨hdot, isPlain_padded 6 _⟩
      case isFalse => exact isPlain_cons.mpr ⟨hdot, isPlain_padded 9 _⟩

theorem isPlain_moment (t : Moment) : IsPlain t.render.toList := by
  rw [Moment.render, String.toList_ofList]
  simp only [Moment.chars, Date.chars, isPlain_append, isPlain_cons, isPlain_nil, isPlain_padded,
    isPlain_yearChars, isPlain_fractionChars, and_true]
  decide

/-! ## Data and numbers -/

theorem isPlain_symbol (v : Nat) : isPlain (Base64.symbol v) = true := by
  rcases Nat.lt_or_ge v 64 with hlt | hge
  · revert v
    decide
  · unfold Base64.symbol
    rw [if_neg (by omega), if_neg (by omega), if_neg (by omega), if_neg (by omega)]
    rfl

theorem isPlain_encode (bytes : List UInt8) : IsPlain (Base64.encode bytes) := by
  have hequals : isPlain '=' = true := rfl
  fun_induction Base64.encode bytes with
  | case1 => exact isPlain_nil
  | case2 => simp only [isPlain_cons, isPlain_symbol, hequals, isPlain_nil, and_true]
  | case3 => simp only [isPlain_cons, isPlain_symbol, hequals, isPlain_nil, and_true]
  | case4 a b c rest ih => simp only [isPlain_cons, isPlain_symbol, ih, and_true]

theorem isPlain_base64 (b : Bits) : IsPlain b.base64.toList := by
  rw [Bits.base64, String.toList_ofList]
  exact isPlain_encode _

theorem isPlain_sign (s : Bool) : IsPlain (Decimal.sign s).toList := by
  revert s
  decide

theorem isPlain_fixed (places : Nat) (x : Binary64) : IsPlain (x.fixed places).toList := by
  cases x with
  | finite s m =>
    have hpoint : IsPlain ".".toList := by decide
    have hzero : isPlain '0' = true := rfl
    simp only [Binary64.fixed, Decimal.fixedMagnitude, String.toList_append, String.toList_ofList,
      isPlain_append, isPlain_sign, isPlain_toString, isPlain_toDigits, isPlain_replicate _ hzero,
      hpoint, and_true]
  | infinite s =>
    rw [Binary64.fixed, String.toList_append]
    exact isPlain_append.mpr ⟨isPlain_sign s, by decide⟩
  | nan =>
    rw [Binary64.fixed]
    decide

/-! ## Names -/

/-- The names in a header are plain. -/
theorem isPlain_headerNames (t : UInt8) : ∀ name ∈ headerNames t, IsPlain name.toList :=
  forall_headerNames (P := fun names => ∀ name ∈ names, IsPlain name.toList) (by decide +kernel) t

/-! ## Cells -/

/-- The names of all codes of a kind are plain. -/
class PlainLabels (α : Type) [Coded α] : Prop where
  plain : ∀ a : α, IsPlain (Coded.label a).toList

instance : PlainLabels NavigationStatus where
  plain s := by cases s <;> decide

instance : PlainLabels PositionDevice where
  plain d := by cases d <;> decide

instance : PlainLabels Maneuver where
  plain m := by cases m <;> decide

/-- Cells that hold a text, and cells that are plain. -/
inductive PlainCell : Cell → Prop where
  | natural (n : Nat) : PlainCell (.natural n)
  | flag (b : Bool) : PlainCell (.flag b)
  | coordinate (x : Binary64) : PlainCell (.coordinate x)
  | decimal (x : Binary64) : PlainCell (.decimal x)
  | text (s : String) : PlainCell (.text s)
  | label {s : String} (h : IsPlain s.toList) : PlainCell (.label s)
  | binary {s : String} (h : IsPlain s.toList) : PlainCell (.binary s)
  | empty : PlainCell .empty

theorem plainCell_label {α : Type} [Coded α] [PlainLabels α] (a : α) :
    PlainCell (.label (Coded.label a)) :=
  .label (PlainLabels.plain a)

theorem plainCell_elim {α : Type} {make : α → Cell} (h : ∀ a, PlainCell (make a))
    (a : Option α) : PlainCell (a.elim .empty make) := by
  cases a with
  | none => exact .empty
  | some a => exact h a

/-- The cells of every message are texts or plain. -/
theorem plainCell_of_mem_fields (m : Message) : ∀ entry ∈ m.fields, PlainCell entry.2 := by
  cases m with
  | channelManagement m =>
    cases harea : m.area <;>
      simp [Message.fields, harea, PlainCell.natural, PlainCell.flag, PlainCell.coordinate,
        PlainCell.empty]
  | staticDataReport m =>
    obtain ⟨header, part⟩ := m
    cases part <;>
      simp [Message.fields, staticDataFields, PlainCell.natural, PlainCell.text, PlainCell.empty,
        plainCell_elim]
  | _ =>
    simp [Message.fields, FieldList.entries, acknowledgementNames, assignmentNames,
      reservationNames, PlainCell.natural, PlainCell.flag, PlainCell.coordinate,
      PlainCell.decimal, PlainCell.text, PlainCell.binary, isPlain_base64, plainCell_label,
      plainCell_elim]

theorem plainCell_of_mem_reportFields (m : Message) (time : Moment) :
    ∀ entry ∈ m.reportFields time, PlainCell entry.2 := by
  simp only [Message.reportFields, List.forall_mem_append, List.forall_mem_cons]
  exact ⟨⟨.natural _, .natural _, .natural _, .label (isPlain_moment time),
    fun _ h => absurd h List.not_mem_nil⟩, plainCell_of_mem_fields m⟩

end Transponder.Report
