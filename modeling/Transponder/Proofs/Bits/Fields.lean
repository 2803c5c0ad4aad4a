import Mathlib.Algebra.Group.Int.Defs
import Transponder.Proofs.Layout.Writes

/-!
# Fields are read as they were written

A `Field` is one thing that can be put behind what a writer holds. `Field.Refused` says, without a
writer, which fields have no room for their value; these and no others are refused
(`write_of_refused`, `write_of_not_refused`), and the writer after them is the one that they were
given. A field that was written is found again where it is, whatever stands in front of it and
whatever follows (`kept_of_write`), so the fields of a whole run are found one after the other, up
to the end of the bits (`readAll_of_isPrefix`). A text comes back as the wire can carry it; one that
was read has already lost what the wire cannot carry, and stays as it is (`textAt_of_textAt`).
-/

namespace Transponder

-- Powers are those of `Nat` and `Int` themselves.
attribute [local instance (high)] instPowNat

/-- Something that is written behind something else; numbers have a name for errors. -/
inductive Field where
  | uint (name : String) (n width : Nat)
  | int (name : String) (i : Int) (width : Nat)
  | flag (x : Bool)
  | text (s : String) (count : Nat)
  | payload (data : Bits)
  | padding (width : Nat)
deriving DecidableEq

namespace Field

open Layout (answered)

/-- The writer after a field, and whether the field was refused. -/
def write (w : Writer) : Field → Writer × Except Error Unit
  | uint name n width => w.uint name n width
  | int name i width => w.int name i width
  | flag x => (w.flag x, .ok ())
  | text s count => (w.text s (6 * count), .ok ())
  | payload data => (w.payload data, .ok ())
  | padding width => (w.padding width, .ok ())

/-- Reads a field of the same kind and width. -/
def read (r : Reader) : Field → Except Error (Field × Reader)
  | uint name _ width => (answered (r.uint width)).map fun (n, r) => (uint name n width, r)
  | int name _ width => (answered (r.int width)).map fun (i, r) => (int name i width, r)
  | flag _ => (answered r.flag).map fun (x, r) => (flag x, r)
  | text _ count => (answered (r.text (6 * count))).map fun (s, r) => (text s count, r)
  | payload data => (answered (r.payload data.length)).map fun (data, r) => (payload data, r)
  | padding width => (answered (r.skip width)).map fun (_, r) => (padding width, r)

/-- Whether a field has no room for its value. -/
def Refused : Field → Prop
  | uint _ n width => 2 ^ width ≤ n
  | int _ i width =>
    ¬ (1 ≤ width ∧ width ≤ 64) ∨ i < -2 ^ (width - 1) ∨ 2 ^ (width - 1) ≤ i
  | _ => False

instance : DecidablePred Refused
  | uint _ _ _ => inferInstanceAs (Decidable (_ ≤ _))
  | int _ _ _ => inferInstanceAs (Decidable (_ ∨ _))
  | flag _ | text _ _ | payload _ | padding _ => inferInstanceAs (Decidable False)

/-- The field as it is read: of a text, what the wire can carry. -/
def kept : Field → Field
  | text s count => text (Text.normalised count s) count
  | f => f

/-- The bits that a field takes. -/
def width : Field → Nat
  | uint _ _ width | int _ _ width | padding width => width
  | flag _ => 1
  | text _ count => 6 * count
  | payload data => data.length

/-- Writes fields one behind the other, each with the writer that the one in front of it has left,
and keeps what each of them answered. -/
def writeAll (w : Writer) : List Field → Writer × List (Except Error Unit)
  | [] => (w, [])
  | f :: fs =>
    let (w, answer) := f.write w
    (writeAll w fs).map id (answer :: ·)

/-- Reads fields one behind the other. -/
def readAll : List Field → Reader → Except Error (List Field × Reader)
  | [], r => .ok ([], r)
  | f :: fs, r => do
    let (f, r) ← f.read r
    let (fs, r) ← readAll fs r
    return (f :: fs, r)

/-- The fields that are not refused. -/
def written (fs : List Field) : List Field :=
  fs.filter (¬ Refused ·)

variable {f : Field} {fs : List Field} {w w' : Writer}

/-! ## One field -/

theorem write_of_refused (h : f.Refused) (w : Writer) : ∃ e, f.write w = (w, .error e) := by
  cases f with
  | uint name n width => exact ⟨_, if_pos h⟩
  | int name i width =>
    show ∃ e, w.int name i width = (w, .error e)
    unfold Writer.int
    by_cases hwidth : width = 0 ∨ 64 < width
    · exact ⟨_, if_pos hwidth⟩
    · rw [if_neg hwidth, if_pos (h.resolve_left (by omega))]
      exact ⟨_, rfl⟩
  | flag x => exact h.elim
  | text s count => exact h.elim
  | payload data => exact h.elim
  | padding width => exact h.elim

theorem write_of_not_refused (h : ¬ f.Refused) (w : Writer) : ∃ w', f.write w = (w', .ok ()) := by
  cases f with
  | uint name n width => exact ⟨_, if_neg h⟩
  | int name i width =>
    show ∃ w', w.int name i width = (w', .ok ())
    obtain ⟨hwidth, hrange⟩ := not_or.mp h
    unfold Writer.int
    rw [if_neg (by omega), if_neg hrange]
    exact ⟨_, rfl⟩
  | flag x => exact ⟨_, rfl⟩
  | text s count => exact ⟨_, rfl⟩
  | payload data => exact ⟨_, rfl⟩
  | padding width => exact ⟨_, rfl⟩

/-- A field that is refused leaves the writer as it is. -/
theorem fst_write_of_error {e : Error} (h : (f.write w).2 = .error e) : (f.write w).1 = w := by
  by_cases hf : f.Refused
  · obtain ⟨e', hw⟩ := write_of_refused hf w
    rw [hw]
  · obtain ⟨w', hw⟩ := write_of_not_refused hf w
    rw [hw] at h
    cases h

/-- A field as a layout of its own. -/
def layout (f : Field) : Layout Unit Field where
  read r := f.read r
  write _ w := (answered (f.write w)).map fun (_, w) => (f.kept, w)

open Layout in
/-- A field that was written is read back where it is. -/
theorem kept_of_write (h : f.write w = (w', .ok ())) :
    Kept f.layout w w' f.width 0 (fun _ => True) f.kept := by
  cases f with
  | uint name n width =>
    have hc : Carries ((Layout.uint name width).mapped (Field.uint name · width)) w.bits.length n
        width (uint name n width) := uint_carries.mapped
    have hw : ((Layout.uint name width).mapped (Field.uint name · width)).write n w =
        .ok (uint name n width, w') := by
      show ((answered (w.uint name n width)).map _).map _ = _
      rw [show w.uint name n width = (w', .ok ()) from h]
      rfl
    obtain ⟨-, hk⟩ := hc w _ w' rfl hw
    exact ⟨hk.grows, hk.length, hk.reads⟩
  | int name i width =>
    have hc : Carries ((Layout.int name width).mapped (Field.int name · width)) w.bits.length i
        width (int name i width) := int_carries.mapped
    have hw : ((Layout.int name width).mapped (Field.int name · width)).write i w =
        .ok (int name i width, w') := by
      show ((answered (w.int name i width)).map _).map _ = _
      rw [show w.int name i width = (w', .ok ()) from h]
      rfl
    obtain ⟨-, hk⟩ := hc w _ w' rfl hw
    exact ⟨hk.grows, hk.length, hk.reads⟩
  | flag x =>
    cases h
    have hc : Carries (Layout.flag.mapped Field.flag) w.bits.length x 1 (flag x) :=
      flag_carries.mapped
    obtain ⟨-, hk⟩ := hc w _ _ rfl rfl
    exact ⟨hk.grows, hk.length, hk.reads⟩
  | text s count =>
    cases h
    have hc : Carries ((Layout.text count).mapped (Field.text · count)) w.bits.length s (6 * count)
        (text (Text.normalised count s) count) := (text_carries count).mapped
    obtain ⟨-, hk⟩ := hc w _ _ rfl rfl
    exact ⟨hk.grows, hk.length, hk.reads⟩
  | payload data =>
    cases h
    refine ⟨⟨_, (Bits.toList_extend _ _).symm⟩, length_payload, fun b hb _ => ?_⟩
    show Except.map _ (answered (Reader.advance _ data.length
      (b.slice w.bits.length data.length))) = _
    rw [slice_of_isPrefix hb]
    rfl
  | padding width =>
    cases h
    have hc : Carries ((Layout.spare width).mapped fun _ => Field.padding width) w.bits.length ()
        width (padding width) := spare_carries.mapped
    obtain ⟨-, hk⟩ := hc w _ _ rfl rfl
    exact ⟨hk.grows, hk.length, hk.reads⟩

/-! ## A run of fields -/

theorem writeAll_cons (w : Writer) (f : Field) (fs : List Field) :
    writeAll w (f :: fs) = (writeAll (f.write w).1 fs).map id ((f.write w).2 :: ·) :=
  rfl

theorem refused_of_writeAll (w : Writer) (fs : List Field) :
    (writeAll w fs).2.map (·.isOk) = fs.map fun f => decide ¬ f.Refused := by
  induction fs generalizing w with
  | nil => rfl
  | cons f fs ih =>
    rw [writeAll_cons, List.map_cons, ← ih (f.write w).1]
    by_cases h : f.Refused
    · obtain ⟨e, hw⟩ := write_of_refused h w
      simp [hw, h, Except.isOk, Except.toBool]
    · obtain ⟨w', hw⟩ := write_of_not_refused h w
      simp [hw, h, Except.isOk, Except.toBool]

theorem fst_writeAll_append (w : Writer) (fs gs : List Field) :
    (writeAll w (fs ++ gs)).1 = (writeAll (writeAll w fs).1 gs).1 := by
  induction fs generalizing w with
  | nil => rfl
  | cons f fs ih => exact ih (f.write w).1

/-- A field that is refused adds nothing to what is written. -/
theorem writeAll_concat_of_refused (h : f.Refused) (w : Writer) (fs : List Field) :
    (writeAll w (fs ++ [f])).1 = (writeAll w fs).1 := by
  obtain ⟨e, hw⟩ := write_of_refused h (writeAll w fs).1
  rw [fst_writeAll_append, writeAll_cons, hw]
  rfl

/-- What the fields of a run leave behind is read by the readers of those that were not refused, one
after the other, from where the writer was and up to where it is in the end. -/
theorem readAll_of_isPrefix (w : Writer) (fs : List Field) :
    w.bits.toList <+: (writeAll w fs).1.bits.toList ∧
      ∀ b : Bits, (writeAll w fs).1.bits.toList <+: b.toList →
        readAll (written fs) ⟨b, w.bits.length⟩ =
          .ok ((written fs).map kept, ⟨b, (writeAll w fs).1.bits.length⟩) := by
  induction fs generalizing w with
  | nil => exact ⟨List.prefix_refl _, fun b _ => rfl⟩
  | cons f fs ih =>
    by_cases h : f.Refused
    · obtain ⟨e, hw⟩ := write_of_refused h w
      rw [writeAll_cons, hw,
        show written (f :: fs) = written fs from List.filter_cons_of_neg (by simpa using h)]
      exact ih w
    · obtain ⟨v, hw⟩ := write_of_not_refused h w
      have hk := kept_of_write hw
      obtain ⟨hgrows, hreads⟩ := ih v
      rw [writeAll_cons, hw,
        show written (f :: fs) = f :: written fs from List.filter_cons_of_pos (by simpa using h)]
      refine ⟨hk.grows.trans hgrows, fun b hb => ?_⟩
      have hf : f.read ⟨b, w.bits.length⟩ = .ok (f.kept, ⟨b, w.bits.length + f.width⟩) :=
        hk.reads b (hgrows.trans hb) trivial
      rw [readAll, hf, ← show v.bits.length = w.bits.length + f.width from hk.length]
      show (readAll (written fs) ⟨b, v.bits.length⟩ >>= _) = _
      rw [hreads b hb]
      rfl

/-! ## What a text field can hold -/

/-- A text that was read is written and read again as it is, in any field with room for it. -/
theorem textAt_of_textAt {b : Bits} {offset width count : Nat} {s : String}
    (h : b.textAt offset width = .ok s) (hcount : s.length ≤ count) (w : Writer) {c : Bits}
    (hc : (w.text s (6 * count)).bits.toList <+: c.toList) :
    c.textAt w.bits.length (6 * count) = .ok s := by
  have htext : Text.IsFieldText count s :=
    { Bits.isFieldText_of_textAt_width h with length_le := hcount }
  have hread := Bits.window_of_isPrefix Layout.toList_text hc
  have hle := Bits.length_le_of_isPrefix hc
  rw [Layout.length_text] at hle
  rw [Bits.length_toList, Layout.length_fieldBits] at hread
  rw [Layout.textAt_of_window hle hread, htext.normalised_eq]

/-- A run of fields: those without room for their value are refused, each leaves the writer as it
found it, and the others are read back up to the end of the bits. A text that is read anywhere is
made of characters of the wire, and comes back as it is when it is written and read again. -/
theorem fields_read_back (fs : List Field) :
    (writeAll .empty fs).2.map (·.isOk) = fs.map (fun f => decide ¬ f.Refused) ∧
    (∀ (w : Writer) (f : Field) (e : Error), (f.write w).2 = .error e → (f.write w).1 = w) ∧
    (∀ f : Field, f.Refused → (writeAll .empty (fs ++ [f])).1 = (writeAll .empty fs).1) ∧
    (∃ r, readAll (written fs) (.start (writeAll .empty fs).1.bits) =
      .ok ((written fs).map kept, r) ∧ r.remaining = 0) ∧
    ∀ (b : Bits) (offset width : Nat) (s : String), b.textAt offset width = .ok s →
      (∀ c ∈ s.toList, ' ' ≤ c ∧ c ≤ '_' ∧ c ≠ '@') ∧ s.toList.getLast? ≠ some ' ' ∧
      s.length ≤ width / 6 ∧
      ∀ (count : Nat) (w : Writer) (c : Bits), s.length ≤ count →
        (w.text s (6 * count)).bits.toList <+: c.toList →
        c.textAt w.bits.length (6 * count) = .ok s := by
  refine ⟨refused_of_writeAll _ fs, fun _ _ _ => fst_write_of_error,
    fun f hf => writeAll_concat_of_refused hf _ fs, ?_, ?_⟩
  · obtain ⟨-, hreads⟩ := readAll_of_isPrefix .empty fs
    exact ⟨_, hreads _ (List.prefix_refl _), Nat.sub_self _⟩
  · intro b offset width s h
    have htext := Bits.isFieldText_of_textAt_width h
    refine ⟨fun c hc => ?_, htext.getLast?_ne, htext.length_le,
      fun count w c hcount hc => textAt_of_textAt h hcount w hc⟩
    have hrange := Text.sentChar_range c
    rw [htext.sent c hc] at hrange
    exact ⟨hrange.1, hrange.2, fun hat => htext.at_not_mem (hat ▸ hc)⟩

/-- Integers at both ends of their fields and beyond, a width that is none, a text that loses almost
everything, and data that ends in the middle of a byte. -/
theorem fields_read_back_awkward :
    let fs := [uint "mmsi" 7 3, uint "mmsi" 8 3, int "rate" (-16) 5, int "rate" 16 5, int "rate" 0 0,
      text "k~ 7@x" 7, payload (.ofList [true, false, true]), flag true, int "rate" (2 ^ 63 - 1) 64]
    (writeAll .empty fs).2.map (·.isOk) =
      [true, false, true, false, false, true, true, true, true] ∧
    ((uint "mmsi" 4 2).write (writeAll .empty fs).1).1 = (writeAll .empty fs).1 ∧
    (writeAll .empty (fs ++ [uint "mmsi" 4 2])).1 = (writeAll .empty fs).1 ∧
    (∃ r, readAll (written fs) (.start (writeAll .empty fs).1.bits) =
      .ok ([uint "mmsi" 7 3, int "rate" (-16) 5, text "K? 7" 7,
        payload (.ofList [true, false, true]), flag true, int "rate" (2 ^ 63 - 1) 64], r) ∧
      r.remaining = 0) ∧
    (Writer.empty.text "k 7 " 25).bits.textAt 0 24 = .ok "K 7" ∧
    ((Writer.empty.flag true).text "K 7" 18).bits.textAt 1 18 = .ok "K 7" := by
  intro fs
  obtain ⟨hrefused, hunchanged, hleft, ⟨r, hread, hend⟩, htext⟩ := fields_read_back fs
  have hsent : (Writer.empty.text "k 7 " 25).bits.textAt 0 24 = .ok "K 7" := by decide +kernel
  obtain ⟨-, -, -, hagain⟩ := htext _ 0 24 "K 7" hsent
  exact ⟨hrefused.trans (by decide), hunchanged _ (uint "mmsi" 4 2) _ rfl, hleft _ (by decide),
    ⟨r, hread.trans (congrArg (fun fs => Except.ok (fs, r)) (by decide +kernel)), hend⟩, hsent,
    hagain 3 (Writer.empty.flag true) _ (by decide) (List.prefix_refl _)⟩

end Field

end Transponder
