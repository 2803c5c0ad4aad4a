import Transponder.Proofs.Layout.Carries
import Transponder.Proofs.Layout.Located

/-!
# What a layout writes

`Writes l s xs a` says that `l` writes `s` as the bits `xs`, wherever that is, and answers `a`. The
fields of a value that was read meet it with the bits they were read from: a number that a field
held fits into this field again, and its digits are the bits that were there (`uint_writes`,
`word8_writes`). A text is written with zeros where there was something behind its end, but it is
the same text (`text_writes`). Layouts are put together, and so are the bits (`Writes.bind`).
-/

namespace Transponder

-- Powers are those of `Nat` and `Int` themselves.
attribute [local instance (high)] instPowNat

namespace Bits

variable {α β : Type} {b : Bits} {offset width n : Nat}

theorem eq_value_of_uintAt (h : b.uintAt offset width = .ok n) :
    n = value (b.window offset width) := by
  rcases Nat.lt_or_ge b.length (offset + width) with hlt | hle
  · rw [uintAt_spans.short hlt] at h
    cases h
  · rw [uintAt_eq_ok hle] at h
    exact (Except.ok.inj h).symm

/-- The digits of a number that was read are the bits that it was read from. -/
theorem digits_of_uintAt (h : b.uintAt offset width = .ok n) :
    digits n width = b.window offset width := by
  have hdigits := digits_value (b.window offset width)
  rwa [length_window, ← eq_value_of_uintAt h] at hdigits

theorem lt_of_uintAt (h : b.uintAt offset width = .ok n) : n < 2 ^ width := by
  have hlt := value_lt (b.window offset width)
  rwa [length_window, ← eq_value_of_uintAt h] at hlt

theorem window_one : b.window offset 1 = [b.bit offset] := rfl

theorem toList_of_slice {data : Bits} (h : b.slice offset width = .ok data) :
    data.toList = b.window offset width := by
  rcases Nat.lt_or_ge b.length (offset + width) with hlt | hle
  · rw [slice_spans.short hlt] at h
    cases h
  · rw [slice, checkRange, if_pos hle] at h
    cases h
    exact toList_ofList _

/-- A text that was read can be held by a field of as many characters. -/
theorem isFieldText_of_textAt_width {s : String} (h : b.textAt offset width = .ok s) :
    Text.IsFieldText (width / 6) s := by
  rcases Nat.lt_or_ge b.length (offset + width) with hlt | hle
  · rw [textAt_spans.short hlt] at h
    cases h
  · rw [textAt, checkRange, if_pos hle] at h
    cases h
    have hcodes : ∀ code ∈ (List.range (width / 6)).map fun i =>
        value (b.window (offset + 6 * i) 6), code < 64 := by
      intro code hc
      obtain ⟨i, -, rfl⟩ := List.mem_map.mp hc
      have hlt := value_lt (b.window (offset + 6 * i) 6)
      rwa [length_window] at hlt
    have htext := Text.isFieldText_ofFieldCodes hcodes
    rwa [List.length_map, List.length_range] at htext

theorem isFieldText_of_textAt {count : Nat} {s : String}
    (h : b.textAt offset (6 * count) = .ok s) : Text.IsFieldText count s := by
  have htext := isFieldText_of_textAt_width h
  rwa [Nat.mul_div_cancel_left _ (by decide : 0 < 6)] at htext

end Bits

namespace Layout

variable {σ τ α β : Type} {b : Bits} {offset width : Nat} {xs ys : List Bool}

/-- `l` writes `s` as the bits `xs`, and answers `a`. -/
def Writes (l : Layout σ α) (s : σ) (xs : List Bool) (a : α) : Prop :=
  ∀ w : Writer, l.write s w = .ok (a, ⟨w.bits.append xs⟩)

/-! ## Putting layouts together -/

theorem Writes.pure {s : σ} (a : α) : Writes (pure a) s [] a :=
  fun _ => rfl

/-- A layout in front of another one, which goes on behind the bits. -/
theorem Writes.write_bind {l : Layout σ α} {s : σ} {a : α} (hl : Writes l s xs a)
    (k : α → Layout σ β) (w : Writer) :
    (l >>= k).write s w = (k a).write s ⟨w.bits.append xs⟩ := by
  show (l.write s w).bind _ = _
  rw [hl w]
  rfl

theorem Writes.bind {l : Layout σ α} {k : α → Layout σ β} {s : σ} {a : α} {c : β}
    (hl : Writes l s xs a) (hk : Writes (k a) s ys c) : Writes (l >>= k) s (xs ++ ys) c := by
  intro w
  rw [hl.write_bind, hk, Bits.append, Bits.append, ← List.foldl_append]
  rfl

theorem Writes.on {l : Layout τ α} {part : σ → τ} {s : σ} {a : α}
    (hl : Writes l (part s) xs a) : Writes (l.on part) s xs a :=
  hl

theorem Writes.mapped {l : Layout σ α} {make : α → β} {s : σ} {a : α} (hl : Writes l s xs a) :
    Writes (l.mapped make) s xs (make a) := by
  intro w
  show (l.write s w).map _ = _
  rw [hl w]
  rfl

theorem Writes.cast {l : Layout σ α} {s : σ} {a : α} (hl : Writes l s xs a) (h : xs = ys) :
    Writes l s ys a :=
  h ▸ hl

/-! ## Fields -/

theorem uint_writes {field : String} {n : Nat} (h : b.uintAt offset width = .ok n) :
    Writes (uint field width) n (b.window offset width) n := by
  intro w
  show (answered (w.uint field n width)).map _ = _
  rw [Writer.uint, if_neg (Nat.not_le.mpr (Bits.lt_of_uintAt h)), ← Bits.digits_of_uintAt h]
  rfl

/-- A number that is kept in a word with room for it. -/
theorem wordOf_writes {γ : Type} {field : String} {toNat : γ → Nat} {ofNat : Nat → γ} {x : γ}
    (hround : ∀ n < 2 ^ width, toNat (ofNat n) = n)
    (h : (do return ofNat (← b.uintAt offset width) : Except Error γ) = .ok x) :
    Writes (do return ofNat (← (uint field width).on toNat)) x (b.window offset width) x := by
  cases hn : b.uintAt offset width with
  | error e => rw [hn] at h; cases h
  | ok n =>
    rw [hn] at h
    cases h
    have hx := hround n (Bits.lt_of_uintAt hn)
    have hfield : Writes ((uint field width).on toNat) (ofNat n) (b.window offset width) n := by
      refine Writes.on ?_
      rw [hx]
      exact uint_writes hn
    exact (hfield.bind (.pure (ofNat n))).cast (List.append_nil _)

theorem lt_two_pow_of_le {n k : Nat} (h : n < 2 ^ width) (hw : width ≤ k) : n < 2 ^ k :=
  Nat.lt_of_lt_of_le h (Nat.pow_le_pow_right (by decide) hw)

theorem word8_writes {field : String} {x : UInt8} (hw : width ≤ 8)
    (h : b.word8At offset width = .ok x) : Writes (word8 field width) x (b.window offset width) x :=
  wordOf_writes (fun _ hn => UInt8.toNat_ofNat_of_lt' (lt_two_pow_of_le hn hw)) h

theorem word16_writes {field : String} {x : UInt16} (hw : width ≤ 16)
    (h : b.word16At offset width = .ok x) :
    Writes (word16 field width) x (b.window offset width) x :=
  wordOf_writes (fun _ hn => UInt16.toNat_ofNat_of_lt' (lt_two_pow_of_le hn hw)) h

theorem word32_writes {field : String} {x : UInt32} (hw : width ≤ 32)
    (h : b.word32At offset width = .ok x) :
    Writes (word32 field width) x (b.window offset width) x :=
  wordOf_writes (fun _ hn => UInt32.toNat_ofNat_of_lt' (lt_two_pow_of_le hn hw)) h

theorem flag_writes {x : Bool} (h : b.flagAt offset = .ok x) :
    Writes flag x (b.window offset 1) x := by
  rw [Bits.window_one, ← Bits.eq_bit_of_flagAt h]
  exact fun _ => rfl

theorem spare_writes {s : σ} : Writes (spare width) s (Bits.digits 0 width) () :=
  fun _ => rfl

theorem fixedFlag_writes {s : σ} {x : Bool} : Writes (fixedFlag x) s [x] () :=
  fun _ => rfl

theorem filling_writes {s : σ} {count : σ → Nat} :
    Writes (filling fun s _ => count s) s (Bits.digits 0 (count s)) () :=
  fun _ => rfl

theorem writer_text {w : Writer} {s : String} {count : Nat} :
    w.text s (6 * count) = ⟨w.bits.append (Bits.codeBits (Text.fieldCodes count s))⟩ := by
  refine congrArg Writer.mk (Bits.ext_toList (toList_text.trans ?_))
  rw [Bits.toList_append]

theorem text_writes {count : Nat} {s : String} (h : Text.IsFieldText count s) :
    Writes (text count) s (Bits.codeBits (Text.fieldCodes count s)) s := by
  intro w
  show Except.ok (Text.fieldText count s, w.text s (6 * count)) = _
  rw [Text.fieldText_eq_normalised, h.normalised_eq, writer_text]

theorem textRun_writes {limit : Nat} {s : String} (h : Text.IsFieldText limit s) :
    Writes (textRun limit) s (Bits.codeBits (Text.fieldCodes (min s.length limit) s)) s := by
  intro w
  show Except.ok (Text.fieldText (min s.length limit) s, w.text s (6 * min s.length limit)) = _
  rw [Text.fieldText_eq_normalised, Text.normalised_min, h.normalised_eq, writer_text]

theorem rest_writes {data : Bits} : Writes rest data data.toList data :=
  fun _ => rfl

theorem restBefore_writes {data : Bits} : Writes (restBefore width) data data.toList data :=
  fun _ => rfl

/-! ## Parts that may be missing, and entries -/

/-- A part that is there is written as `bits` of it, a part that is missing takes none. -/
theorem optional_writes {l : Layout α α} {l' : Layout (Option α) (Option α)} {bits : α → List Bool}
    {o : Option α} (hsome : ∀ a, l'.write (some a) = (l.mapped some).write a)
    (hnone : ∀ w, l'.write none w = .ok (none, w)) (h : ∀ a ∈ o, Writes l a (bits a) a) :
    Writes l' o (o.elim [] bits) o := by
  cases o with
  | none => exact hnone
  | some a =>
    intro w
    rw [hsome]
    exact (h a rfl).mapped w

theorem whenLength_writes {least : Nat} {l : Layout α α} {bits : α → List Bool} {o : Option α}
    (h : ∀ a ∈ o, Writes l a (bits a) a) : Writes (whenLength least l) o (o.elim [] bits) o :=
  optional_writes (fun _ => rfl) (fun _ => rfl) h

theorem whenPresent_writes {present : Bool} {l : Layout α α} {bits : α → List Bool} {o : Option α}
    (h : ∀ a ∈ o, Writes l a (bits a) a) : Writes (whenPresent present l) o (o.elim [] bits) o :=
  optional_writes (fun _ => rfl) (fun _ => rfl) h

theorem writeEntries_writes {item : Layout α α} {as : List α}
    (h : ∀ a ∈ as, ∃ xs, Writes item a xs a) :
    ∃ xs, ∀ w, writeEntries item as w = .ok (as, ⟨w.bits.append xs⟩) := by
  induction as with
  | nil => exact ⟨[], fun _ => rfl⟩
  | cons a as ih =>
    obtain ⟨⟨xs, ha⟩, has⟩ := List.forall_mem_cons.mp h
    obtain ⟨ys, hys⟩ := ih has
    refine ⟨xs ++ ys, fun w => ?_⟩
    show (item.write a w >>= _) = _
    rw [ha w]
    show (writeEntries item as _ >>= _) = _
    rw [hys, Bits.append, Bits.append, ← List.foldl_append]
    rfl

/-- Entries of a number that the layout has room for. -/
theorem entries_writes {field expected : String} {limit : Nat} {item : Layout α α} {as : List α}
    (hcount : 1 ≤ as.length ∧ as.length ≤ limit) (h : ∀ a ∈ as, ∃ xs, Writes item a xs a) :
    ∃ xs, Writes (entries field expected width limit item) as xs as := by
  obtain ⟨xs, hxs⟩ := writeEntries_writes h
  exact ⟨xs, fun w => (if_pos hcount).trans (hxs w)⟩

end Layout

end Transponder
