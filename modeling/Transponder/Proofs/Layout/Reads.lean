import Transponder.Layout.Message

/-!
# What a layout reads

The reading side of a layout walks along a sequence of bits; the absolute reads of `Bits` look at an
offset. `Reads b read p n x` says what both have to do with each other: from the position `p` of `b`,
`read` takes the `n` bits there and gives what `x`, an expression in absolute reads, gives; and it
refuses a sequence that ends before them, naming a range that reaches past the end (`Bits.Exceeds`).
Layouts are put together, and so is this (`Reads.bind`): what a whole layout reads is an expression
whose offsets are the sums of the widths in front.

The number of bits may depend on `b`: on its length, for what takes the rest of a message, and on its
bits, for what is announced by a flag. `Needs` forgets how far a layout reads and keeps the least
length that it accepts.
-/

namespace Transponder

namespace Bits

variable {α β : Type} {b : Bits} {offset width : Nat}

/-- The error of a range of bits that reaches past the end of `b`. -/
def Exceeds (b : Bits) (e : Error) : Prop :=
  ∃ offset width, e = .truncated offset width b.length ∧ b.length < offset + width

/-- `x` is a read of the `width` bits at `offset`, which fails exactly if they are not all there. -/
structure Spans (b : Bits) (offset width : Nat) (x : Except Error α) : Prop where
  ok : offset + width ≤ b.length → ∃ a, x = .ok a
  short : b.length < offset + width → x = .error (.truncated offset width b.length)

theorem checkRange_spans : b.Spans offset width (b.checkRange offset width) where
  ok h := ⟨(), if_pos h⟩
  short h := if_neg (by omega)

theorem Spans.bind {x : Except Error α} (h : b.Spans offset width x) {f : α → Except Error β}
    (hf : ∀ a, ∃ c, f a = .ok c) : b.Spans offset width (x >>= f) where
  ok hle := by
    obtain ⟨a, rfl⟩ := h.ok hle
    exact hf a
  short hlt := by rw [h.short hlt]; rfl

theorem uintAt_spans : b.Spans offset width (b.uintAt offset width) :=
  checkRange_spans.bind fun _ => ⟨_, rfl⟩

theorem intAt_spans : b.Spans offset width (b.intAt offset width) :=
  uintAt_spans.bind fun _ => ⟨_, rfl⟩

theorem flagAt_spans : b.Spans offset 1 (b.flagAt offset) :=
  uintAt_spans.bind fun _ => ⟨_, rfl⟩

theorem textAt_spans : b.Spans offset width (b.textAt offset width) :=
  checkRange_spans.bind fun _ => ⟨_, rfl⟩

theorem slice_spans : b.Spans offset width (b.slice offset width) :=
  checkRange_spans.bind fun _ => ⟨_, rfl⟩

theorem uintAt_eq_ok (h : offset + width ≤ b.length) :
    b.uintAt offset width = .ok (value (b.window offset width)) := by
  rw [uintAt, checkRange, if_pos h]
  rfl

theorem value_window_one : value (b.window offset 1) = (b.bit offset).toNat := by
  simp [window, value]

theorem flagAt_eq_ok (h : offset + 1 ≤ b.length) : b.flagAt offset = .ok (b.bit offset) := by
  rw [flagAt, uintAt_eq_ok h, value_window_one]
  cases b.bit offset <;> rfl

theorem eq_bit_of_flagAt {x : Bool} (h : b.flagAt offset = .ok x) : x = b.bit offset := by
  rcases Nat.lt_or_ge b.length (offset + 1) with hlt | hle
  · rw [flagAt_spans.short hlt] at h
    cases h
  · rw [flagAt_eq_ok hle] at h
    exact (Except.ok.inj h).symm

end Bits

namespace Layout

variable {σ τ α β : Type} {b : Bits} {p n m : Nat}

/-- From the position `p` of `b`, `read` takes the `n` bits there and gives what `x` finds, or
refuses a sequence that ends before them. -/
structure Reads (b : Bits) (read : Reader → Except Error (α × Reader)) (p n : Nat)
    (x : Except Error α) : Prop where
  ok : p + n ≤ b.length → ∃ a, read ⟨b, p⟩ = .ok (a, ⟨b, p + n⟩) ∧ x = .ok a
  short : p ≤ b.length → b.length < p + n → ∃ e, read ⟨b, p⟩ = .error e ∧ b.Exceeds e

/-- From the position `p` of `b`, `read` gives what `x` finds if `b` has `least` bits, and refuses a
shorter sequence. -/
structure Needs (b : Bits) (read : Reader → Except Error (α × Reader)) (p least : Nat)
    (x : Except Error α) : Prop where
  ok : least ≤ b.length → ∃ a r, read ⟨b, p⟩ = .ok (a, r) ∧ x = .ok a
  short : p ≤ b.length → b.length < least → ∃ e, read ⟨b, p⟩ = .error e ∧ b.Exceeds e

/-! ## Putting layouts together -/

theorem Reads.pure (a : α) : Reads b (pure a : Layout σ α).read p 0 (pure a) where
  ok _ := ⟨a, rfl, rfl⟩
  short h h' := by omega

theorem Reads.bind {l : Layout σ α} {k : α → Layout σ β} {x : Except Error α}
    {y : α → Except Error β} (hl : Reads b l.read p n x)
    (hk : ∀ a, x = .ok a → Reads b (k a).read (p + n) m (y a)) :
    Reads b (l >>= k).read p (n + m) (x >>= y) where
  ok h := by
    obtain ⟨a, ha, rfl⟩ := hl.ok (by omega)
    obtain ⟨c, hc, hy⟩ := (hk a rfl).ok (by omega)
    refine ⟨c, ?_, hy⟩
    show (l.read ⟨b, p⟩).bind _ = _
    rw [ha]
    show (k a).read _ = _
    rw [hc, Nat.add_assoc]
  short h h' := by
    show ∃ e, (l.read ⟨b, p⟩).bind _ = _ ∧ _
    rcases Nat.lt_or_ge b.length (p + n) with hn | hn
    · obtain ⟨e, he, hx⟩ := hl.short h hn
      exact ⟨e, by rw [he]; rfl, hx⟩
    · obtain ⟨a, ha, rfl⟩ := hl.ok hn
      obtain ⟨e, he, hx⟩ := (hk a rfl).short hn (by omega)
      exact ⟨e, by rw [ha]; exact he, hx⟩

theorem Reads.on {l : Layout τ α} {x : Except Error α} (hl : Reads b l.read p n x)
    {part : σ → τ} : Reads b (l.on part).read p n x := ⟨hl.ok, hl.short⟩

theorem Reads.map {l : Layout σ α} {x : Except Error α} (hl : Reads b l.read p n x) (f : α → β) :
    Reads b (fun r => (l.read r).map fun (a, r) => (f a, r)) p n (do return f (← x)) where
  ok h := by
    obtain ⟨a, ha, rfl⟩ := hl.ok h
    exact ⟨f a, congrArg (Except.map _) ha, rfl⟩
  short h h' := by
    obtain ⟨e, he, hx⟩ := hl.short h h'
    exact ⟨e, congrArg (Except.map _) he, hx⟩

theorem Reads.mapped {l : Layout σ α} {x : Except Error α} (hl : Reads b l.read p n x)
    {f : α → β} : Reads b (l.mapped f).read p n (do return f (← x)) := hl.map f

theorem Reads.congr {read read' : Reader → Except Error (α × Reader)} {x : Except Error α}
    (h : Reads b read p n x) (he : read' ⟨b, p⟩ = read ⟨b, p⟩) : Reads b read' p n x :=
  ⟨by rw [he]; exact h.ok, by rw [he]; exact h.short⟩

/-- Two reads of the same bits that find the same are the same there. -/
theorem Reads.unique {read read' : Reader → Except Error (α × Reader)} {x : Except Error α}
    (h : Reads b read p n x) (h' : Reads b read' p n x) (hle : p + n ≤ b.length) :
    read ⟨b, p⟩ = read' ⟨b, p⟩ := by
  obtain ⟨a, ha, hx⟩ := h.ok hle
  obtain ⟨a', ha', hx'⟩ := h'.ok hle
  obtain rfl : a = a' := Except.ok.inj (hx.symm.trans hx')
  rw [ha, ha']

theorem Reads.cast {read : Reader → Except Error (α × Reader)} {x : Except Error α}
    (h : Reads b read p n x) (hn : n = m) : Reads b read p m x := hn ▸ h

theorem Reads.needs {read : Reader → Except Error (α × Reader)} {x y : Except Error α}
    {least : Nat} (h : Reads b read p n x) (hn : p + n ≤ b.length ↔ least ≤ b.length)
    (hx : least ≤ b.length → x = y) : Needs b read p least y where
  ok hle := by
    obtain ⟨a, ha, rfl⟩ := h.ok (hn.mpr hle)
    exact ⟨a, _, ha, (hx hle).symm⟩
  short hp hlt := h.short hp (by omega)

theorem Needs.mapped {l : Layout σ α} {x : Except Error α} {least : Nat}
    (h : Needs b l.read p least x) {f : α → β} :
    Needs b (l.mapped f).read p least (do return f (← x)) where
  ok hle := by
    obtain ⟨a, r, ha, rfl⟩ := h.ok hle
    exact ⟨f a, r, congrArg (Except.map _) ha, rfl⟩
  short hp hlt := by
    obtain ⟨e, he, hx⟩ := h.short hp hlt
    exact ⟨e, congrArg (Except.map _) he, hx⟩

/-! ## Fields -/

/-- A read that advances over the bits that an absolute read spans. -/
theorem Reads.of_advance {read : Reader → Except Error (α × Reader)} {x : Except Error α}
    (hr : read ⟨b, p⟩ = answered (Reader.advance ⟨b, p⟩ n x)) (h : b.Spans p n x) :
    Reads b read p n x where
  ok hle := by
    obtain ⟨a, rfl⟩ := h.ok hle
    exact ⟨a, hr, rfl⟩
  short _ hlt := by
    obtain rfl := h.short hlt
    exact ⟨_, hr, _, _, rfl, hlt⟩

theorem uint_reads {field : String} {width : Nat} :
    Reads b (uint field width).read p width (b.uintAt p width) :=
  .of_advance rfl Bits.uintAt_spans

theorem int_reads {field : String} {width : Nat} :
    Reads b (int field width).read p width (b.intAt p width) :=
  .of_advance rfl Bits.intAt_spans

theorem flag_reads : Reads b flag.read p 1 (b.flagAt p) :=
  .of_advance rfl Bits.flagAt_spans

theorem text_reads (count : Nat) :
    Reads b (text count).read p (6 * count) (b.textAt p (6 * count)) :=
  .of_advance rfl Bits.textAt_spans

theorem skip_eq_advance (r : Reader) (width : Nat) :
    r.skip width = r.advance width (r.bits.checkRange r.position width) := by
  unfold Reader.skip Reader.advance
  cases r.bits.checkRange r.position width <;> rfl

theorem skip_reads {width : Nat} :
    Reads b (fun r => answered (r.skip width)) p width (pure ()) := by
  have h : Reads b (fun r => answered (r.skip width)) p width (b.checkRange p width) :=
    .of_advance (congrArg answered (skip_eq_advance ⟨b, p⟩ width)) Bits.checkRange_spans
  refine ⟨fun hle => ?_, h.short⟩
  obtain ⟨a, ha, -⟩ := h.ok hle
  exact ⟨a, ha, rfl⟩

theorem spare_reads {width : Nat} : Reads b (spare width : Layout σ Unit).read p width (pure ()) :=
  skip_reads

theorem fixedFlag_reads {x : Bool} : Reads b (fixedFlag x : Layout σ Unit).read p 1 (pure ()) :=
  skip_reads

theorem filling_reads {width : σ → Writer → Nat} : Reads b (filling width).read p 0 (pure ()) :=
  .pure (σ := σ) ()

theorem checked_reads {check : σ → Writer → Except Error Unit} :
    Reads b (checked check).read p 0 (pure ()) := .pure (σ := σ) ()

theorem quantity_reads {ι : Type} {field : String} {encode : Binary64 → Except FieldFault ι}
    {decode : ι → Binary64} {code : Layout ι ι} {x : Except Error ι}
    (h : Reads b code.read p n x) :
    Reads b (quantity field encode decode code).read p n (do return decode (← x)) := h.map decode

/-! ## Fields that take what is left -/

theorem rest_reads : Reads b rest.read p (b.length - p) (b.slice p (b.length - p)) :=
  .of_advance rfl Bits.slice_spans

theorem textRun_reads {limit : Nat} :
    Reads b (textRun limit).read p (6 * min ((b.length - p) / 6) limit)
      (b.textAt p (6 * min ((b.length - p) / 6) limit)) :=
  .of_advance rfl Bits.textAt_spans

theorem restBefore_reads {width : Nat} :
    Reads b (restBefore width).read p
      (if b.length - p < width then width else b.length - p - width)
      (b.slice p (b.length - p - width)) := by
  split
  · rename_i h
    exact ⟨fun hle => by omega, fun hp hlt => ⟨_, if_pos h, _, _, rfl, hlt⟩⟩
  · rename_i h
    exact .of_advance (if_neg h) Bits.slice_spans

theorem whenLength_reads_some {least : Nat} {l : Layout σ α} {x : Except Error α}
    (h : least ≤ b.length) (hl : Reads b l.read p n x) :
    Reads b (whenLength least l).read p n (do return some (← x)) :=
  (hl.map some).congr (if_pos h)

theorem whenLength_reads_none {least : Nat} {l : Layout σ α} (h : b.length < least) :
    Reads b (whenLength least l).read p 0 (pure none) :=
  (Reads.pure (σ := σ) none).congr (if_neg (Nat.not_le.mpr h))

theorem whenPresent_reads {present : Bool} {l : Layout σ α} {x : Except Error α}
    (hl : Reads b l.read p n x) :
    Reads b (whenPresent present l).read p (n * present.toNat)
      (if present then do return some (← x) else pure none) := by
  cases present with
  | true => exact (hl.map some).cast (Nat.mul_one n).symm
  | false => exact .pure (σ := σ) none

/-! ## Entries -/

/-- `count` entries of `width` bits each from `p` on. -/
theorem readEntries_reads {item : Layout σ α} {width : Nat} {x : Nat → Except Error α}
    (hi : ∀ p, Reads b item.read p width (x p)) :
    ∀ count p, Reads b (readEntries item count) p (width * count)
      ((List.range' p count width).mapM x)
  | 0, p => .pure (σ := σ) []
  | count + 1, p => by
    have ih := readEntries_reads hi count (p + width)
    have h : Reads b (item >>= fun a => ⟨readEntries item count, (pure [] : Layout σ (List α)).write⟩
        >>= fun as => pure (a :: as)).read p (width + (width * count + 0)) _ :=
      (hi p).bind fun _ _ => .bind ih fun _ _ => .pure _
    rw [show width * (count + 1) = width + (width * count + 0) by rw [Nat.mul_succ]; omega,
      List.range'_succ, List.mapM_cons]
    exact h

theorem entries_reads {field expected : String} {width limit : Nat} {item : Layout σ α}
    {x : Nat → Except Error α} (hi : ∀ p, Reads b item.read p width (x p)) :
    Reads b (entries field expected width limit item).read p
      (width * min (max ((b.length - p) / width) 1) limit)
      ((List.range' p (min (max ((b.length - p) / width) 1) limit) width).mapM x) :=
  (readEntries_reads hi _ _).congr rfl

end Layout

end Transponder
