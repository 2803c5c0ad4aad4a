import Transponder.Proofs.Bits.Windows
import Transponder.Proofs.Layout.Reads
import Transponder.Proofs.Record.Normalised

/-!
# What a layout carries

A layout that has written a value reads it back from the bits it wrote, whatever was written in front
of them and whatever follows. `Carries l p s n a` says so of the value `s`: from the position `p` on
it takes `n` bits, and they are read back as `a`, which is `s` up to what the wire has no room for.

Some layouts take all that is left, or leave bits at the end of a message that reading passes over.
They need to be at its end. `Closes l p s n f slack a` is the law with both: behind the `n` bits that
are read back there are `f` bits that are not, and what follows may only be `t` bits long if
`slack t`. A message is a chain of layouts that carry something and of one that closes it.
-/

namespace Transponder

-- Powers are those of `Nat` and `Int` themselves.
attribute [local instance (high)] instPowNat

namespace Layout

variable {σ τ υ α β : Type} {p n m f : Nat} {slack slack' : Nat → Prop}

/-- What `l` has written from `w` to `w'` is read back as `a`. -/
structure Kept (l : Layout σ α) (w w' : Writer) (n f : Nat) (slack : Nat → Prop) (a : α) : Prop where
  grows : w.bits.toList <+: w'.bits.toList
  length : w'.bits.length = w.bits.length + n + f
  reads : ∀ b : Bits, w'.bits.toList <+: b.toList → slack (b.length - w'.bits.length) →
    l.read ⟨b, w.bits.length⟩ = .ok (a, ⟨b, w.bits.length + n⟩)

/-- If `l` writes `s` from the position `p` on, it answers `a` and takes `n` bits that are read back
as `a`, and `f` bits behind them; reading minds what follows, which may have a length in `slack`. -/
def Closes (l : Layout σ α) (p : Nat) (s : σ) (n f : Nat) (slack : Nat → Prop) (a : α) : Prop :=
  ∀ w a' w', w.bits.length = p → l.write s w = .ok (a', w') → a' = a ∧ Kept l w w' n f slack a

/-- If `l` writes `s` from the position `p` on, it answers `a` and takes `n` bits that are read back
as `a`, whatever follows. -/
abbrev Carries (l : Layout σ α) (p : Nat) (s : σ) (n : Nat) (a : α) : Prop :=
  Closes l p s n 0 (fun _ => True) a

/-! ## Putting layouts together -/

theorem Closes.pure {s : σ} (a : α) : Closes (pure a) p s 0 0 slack a := by
  rintro w a' w' - h
  cases h
  exact ⟨rfl, List.prefix_refl _, rfl, fun _ _ _ => rfl⟩

theorem write_bind {l : Layout σ α} {k : α → Layout σ β} {s : σ} {w w' : Writer} {c : β}
    (h : (l >>= k).write s w = .ok (c, w')) :
    ∃ a v, l.write s w = .ok (a, v) ∧ (k a).write s v = .ok (c, w') := by
  change (l.write s w).bind _ = _ at h
  cases hw : l.write s w with
  | error e => rw [hw] at h; cases h
  | ok x =>
    rw [hw] at h
    exact ⟨x.1, x.2, rfl, h⟩

/-- What is kept by a part and then by another one is kept by a layout that reads one after the
other. -/
theorem Kept.trans {l : Layout σ α} {l' : Layout τ β} {l'' : Layout υ β} {w v w' : Writer} {a : α}
    {c : β} (h₁ : Kept l w v n 0 slack a) (h₂ : Kept l' v w' m f slack' c)
    (hs : ∀ t, slack' t → slack (m + f + t))
    (hr : ∀ r r', l.read r = .ok (a, r') → l''.read r = l'.read r') :
    Kept l'' w w' (n + m) f slack' c where
  grows := h₁.grows.trans h₂.grows
  length := by
    rw [h₂.length, h₁.length]
    omega
  reads b hb ht := by
    have hle := Bits.length_le_of_isPrefix hb
    have hlen := h₂.length
    have hr₁ := h₁.reads b (h₂.grows.trans hb) (by
      rw [show b.length - v.bits.length = m + f + (b.length - w'.bits.length) by omega]
      exact hs _ ht)
    have hr₂ := h₂.reads b hb ht
    rw [h₁.length] at hr₂
    rw [hr _ _ hr₁, ← Nat.add_assoc]
    exact hr₂

/-- A last part that closes a message, behind one that minds what follows it. -/
theorem Closes.bindLast {l : Layout σ α} {k : α → Layout σ β} {s : σ} {a : α} {c : α → β}
    (hl : Closes l p s n 0 slack a)
    (hk : ∀ a', a' = a → Closes (k a') (p + n) s m f slack' (c a'))
    (hs : ∀ t, slack' t → slack (m + f + t)) : Closes (l >>= k) p s (n + m) f slack' (c a) := by
  rintro w c' w' rfl h
  obtain ⟨a', v, hw, hv⟩ := write_bind h
  obtain ⟨rfl, h₁⟩ := hl w a' v rfl hw
  obtain ⟨rfl, h₂⟩ := hk _ rfl v c' w' h₁.length hv
  refine ⟨rfl, h₁.trans h₂ hs fun r r' hr => ?_⟩
  show (l.read r).bind _ = _
  rw [hr]
  rfl

theorem Closes.bind {l : Layout σ α} {k : α → Layout σ β} {s : σ} {a : α} {c : α → β}
    (hl : Carries l p s n a) (hk : ∀ a', a' = a → Closes (k a') (p + n) s m f slack (c a')) :
    Closes (l >>= k) p s (n + m) f slack (c a) :=
  Closes.bindLast hl hk fun _ _ => trivial

/-- Nothing but an answer follows. -/
theorem Closes.returning {l : Layout σ α} {s : σ} {a : α} (hl : Closes l p s n f slack a)
    {g : α → β} : Closes (l >>= fun a => Pure.pure (g a)) p s n f slack (g a) := by
  rintro w c w' rfl h
  obtain ⟨a', v, hw, hv⟩ := write_bind h
  cases hv
  obtain ⟨rfl, hk⟩ := hl w a' w' rfl hw
  refine ⟨rfl, hk.grows, hk.length, fun b hb ht => ?_⟩
  show (l.read _).bind _ = _
  rw [hk.reads b hb ht]
  rfl

theorem Closes.on {l : Layout τ α} {part : σ → τ} {s : σ} {a : α}
    (hl : Closes l p (part s) n f slack a) : Closes (l.on part) p s n f slack a :=
  fun w a' w' hp h =>
    let ⟨ha, hk⟩ := hl w a' w' hp h
    ⟨ha, hk.grows, hk.length, hk.reads⟩

theorem Closes.mapped {l : Layout σ α} {make : α → β} {s : σ} {a : α}
    (hl : Closes l p s n f slack a) : Closes (l.mapped make) p s n f slack (make a) := by
  rintro w c w' rfl h
  change (l.write s w).map _ = _ at h
  cases hw : l.write s w with
  | error e => rw [hw] at h; cases h
  | ok x =>
    obtain ⟨a', v⟩ := x
    rw [hw] at h
    cases h
    obtain ⟨rfl, h₁⟩ := hl w a' w' rfl hw
    refine ⟨rfl, h₁.grows, h₁.length, fun b hb ht => ?_⟩
    show (l.read _).map _ = _
    rw [h₁.reads b hb ht]
    rfl

theorem Closes.cast {l : Layout σ α} {s : σ} {a a' : α} {n' : Nat}
    (hl : Closes l p s n f slack a) (hn : n = n') (ha : a = a') : Closes l p s n' f slack a' :=
  hn ▸ ha ▸ hl

theorem Closes.mono {l : Layout σ α} {s : σ} {a : α} (hl : Closes l p s n f slack a)
    (hs : ∀ t, slack' t → slack t) : Closes l p s n f slack' a :=
  fun w a' w' hp h =>
    let ⟨ha, hk⟩ := hl w a' w' hp h
    ⟨ha, hk.grows, hk.length, fun b hb ht => hk.reads b hb (hs _ ht)⟩

/-- A layout that reads and writes like another one. -/
theorem Closes.congr {l : Layout σ α} {l' : Layout τ α} {s : σ} {t : τ} {a : α}
    (hl : Closes l' p t n f slack a) (hw : l.write s = l'.write t) (hr : l.read = l'.read) :
    Closes l p s n f slack a :=
  fun w a' w' hp h =>
    let ⟨ha, hk⟩ := hl w a' w' hp (hw ▸ h)
    ⟨ha, hk.grows, hk.length, hr ▸ hk.reads⟩

/-! ## Fields -/

/-- A layout that writes the bits `xs` and reads them from a position where it finds them. -/
theorem Carries.of_append {l : Layout σ α} {s : σ} {a : α} (xs : List Bool) (hn : xs.length = n)
    (h : ∀ w a' w', l.write s w = .ok (a', w') → a' = a ∧ w'.bits.toList = w.bits.toList ++ xs ∧
      ∀ (b : Bits) p, p + n ≤ b.length → b.window p n = xs → l.read ⟨b, p⟩ = .ok (a, ⟨b, p + n⟩)) :
    Carries l p s n a := by
  rintro w a' w' rfl hw
  obtain ⟨rfl, hl, hr⟩ := h w a' w' hw
  have hlen : w'.bits.length = w.bits.length + n := by
    rw [← Bits.length_toList, hl, List.length_append, Bits.length_toList, hn]
  refine ⟨rfl, ⟨xs, hl.symm⟩, hlen, fun b hb _ => hr b _ ?_ ?_⟩
  · rw [← hlen]
    exact Bits.length_le_of_isPrefix hb
  · have hx := Bits.window_of_isPrefix hl hb
    rwa [Bits.length_toList, hn] at hx

theorem uint_carries {field : String} {width x : Nat} :
    Carries (uint field width) p x width x := by
  refine .of_append _ (Bits.length_digits x width) fun w a' w' hw => ?_
  change (answered (w.uint field x width)).map _ = _ at hw
  unfold Writer.uint at hw
  split at hw
  case isTrue => cases hw
  case isFalse hx =>
    cases hw
    refine ⟨rfl, Bits.toList_pushUint _ _ _, fun b p hle hb => ?_⟩
    show answered (Reader.advance ⟨b, p⟩ width (b.uintAt p width)) = _
    rw [Bits.uintAt_eq_ok hle, hb, Bits.value_digits_of_lt (Nat.not_le.mp hx)]
    rfl

theorem int_carries {field : String} {width : Nat} {i : Int} :
    Carries (int field width) p i width i := by
  refine .of_append _ (Bits.length_digits (i % 2 ^ width).toNat width) fun w a' w' hw => ?_
  change (answered (w.int field i width)).map _ = _ at hw
  unfold Writer.int at hw
  split at hw
  case isTrue => cases hw
  case isFalse hwidth =>
    split at hw
    case isTrue => cases hw
    case isFalse hi =>
      cases hw
      refine ⟨rfl, Bits.toList_pushUint _ _ _, fun b p hle hb => ?_⟩
      have hlt : (i % 2 ^ width).toNat < 2 ^ width := by
        have hm := Int.emod_lt_of_pos i (Int.pow_pos (by decide : (0 : Int) < 2) (m := width))
        have hc : ((2 ^ width : Nat) : Int) = (2 : Int) ^ width := by simp
        omega
      show answered (Reader.advance ⟨b, p⟩ width (b.intAt p width)) = _
      rw [Bits.intAt, Bits.uintAt_eq_ok hle, hb, Bits.value_digits_of_lt hlt]
      show Except.ok (Bits.signed width (i % 2 ^ width).toNat, _) = _
      rw [Bits.signed_emod (by omega) (by omega) (by omega)]
      rfl

theorem word8_carries {field : String} {width : Nat} {x : UInt8} :
    Carries (word8 field width) p x width x :=
  uint_carries.on.returning.cast rfl (UInt8.ofNat_toNat)

theorem word16_carries {field : String} {width : Nat} {x : UInt16} :
    Carries (word16 field width) p x width x :=
  uint_carries.on.returning.cast rfl (UInt16.ofNat_toNat)

theorem word32_carries {field : String} {width : Nat} {x : UInt32} :
    Carries (word32 field width) p x width x :=
  uint_carries.on.returning.cast rfl (UInt32.ofNat_toNat)

theorem flag_carries {x : Bool} : Carries flag p x 1 x := by
  refine .of_append [x] rfl fun w a' w' hw => ?_
  cases hw
  refine ⟨rfl, Bits.toList_push _ _, fun b p hle hb => ?_⟩
  have hx : b.bit p = x := by simpa [Bits.window] using hb
  show answered (Reader.advance ⟨b, p⟩ 1 (b.flagAt p)) = _
  rw [Bits.flagAt_eq_ok hle, hx]
  rfl

/-- Bits that reading passes over. -/
theorem skipped_carries {l : Layout σ Unit} {s : σ} (xs : List Bool) (hn : xs.length = n)
    (hw : ∀ w, l.write s w = .ok ((), ⟨w.bits.append xs⟩))
    (hr : l.read = fun r => answered (r.skip n)) : Carries l p s n () := by
  refine .of_append xs hn fun w a' w' h => ?_
  rw [hw] at h
  cases h
  refine ⟨rfl, Bits.toList_append _ _, fun b p hle _ => ?_⟩
  rw [hr]
  show answered (Reader.skip ⟨b, p⟩ n) = _
  rw [skip_eq_advance]
  show answered (Reader.advance ⟨b, p⟩ n (b.checkRange p n)) = _
  rw [Bits.checkRange, if_pos hle]
  rfl

theorem spare_carries {s : σ} {width : Nat} : Carries (spare width) p s width () :=
  skipped_carries _ (Bits.length_digits 0 width) (fun _ => rfl) rfl

theorem fixedFlag_carries {s : σ} {x : Bool} : Carries (fixedFlag x) p s 1 () :=
  skipped_carries [x] rfl (fun _ => rfl) rfl

theorem filling_closes {width : σ → Writer → Nat} {s : σ}
    (hw : ∀ w, w.bits.length = p → width s w = f) : Closes (filling width) p s 0 f slack () := by
  rintro w a' w' hp h
  cases h
  refine ⟨rfl, ⟨_, (Bits.toList_pushUint _ _ _).symm⟩, ?_, fun _ _ _ => rfl⟩
  show (w.bits.pushUint 0 (width s w)).length = _
  rw [hw w hp, Bits.pushUint, Bits.length_append, Bits.length_digits]
  omega

theorem checked_carries {check : σ → Writer → Except Error Unit} {s : σ} :
    Carries (checked check) p s 0 () := by
  rintro w a' w' - h
  change (check s w).map _ = _ at h
  cases hc : check s w with
  | error e => rw [hc] at h; cases h
  | ok u =>
    rw [hc] at h
    cases h
    exact ⟨rfl, List.prefix_refl _, rfl, fun _ _ _ => rfl⟩

/-- The codes of a text, read where they were written. -/
theorem textAt_of_window {b : Bits} {s : String} {count : Nat} (hle : p + 6 * count ≤ b.length)
    (hb : b.window p (6 * count) = Bits.codeBits (Text.fieldCodes count s)) :
    b.textAt p (6 * count) = .ok (Text.normalised count s) := by
  have hcodes : (List.range count).map (fun i => Bits.value (b.window (p + 6 * i) 6)) =
      Text.fieldCodes count s := by
    have h := Bits.codes_of_window (b := b) (p := p) (Text.fieldCodes_lt count s)
    rw [Text.length_fieldCodes] at h
    exact h hb
  rw [Bits.textAt, Bits.checkRange, if_pos hle, ← Text.fieldText_eq_normalised, Text.fieldText,
    ← hcodes, Nat.mul_div_cancel_left _ (by decide : 0 < 6)]
  rfl

theorem length_fieldBits {s : String} {count : Nat} :
    (Bits.codeBits (Text.fieldCodes count s)).length = 6 * count := by
  rw [Bits.length_codeBits, Text.length_fieldCodes]

theorem toList_text {w : Writer} {s : String} {count : Nat} :
    (w.text s (6 * count)).bits.toList =
      w.bits.toList ++ Bits.codeBits (Text.fieldCodes count s) := by
  rw [Writer.text, Nat.mul_div_cancel_left _ (by decide : 0 < 6)]
  exact Bits.toList_foldl_pushUint _

theorem length_text {w : Writer} {s : String} {count : Nat} :
    (w.text s (6 * count)).bits.length = w.bits.length + 6 * count := by
  rw [← Bits.length_toList, toList_text, List.length_append, Bits.length_toList, length_fieldBits]

theorem text_carries (count : Nat) {s : String} :
    Carries (text count) p s (6 * count) (Text.normalised count s) := by
  refine .of_append (Bits.codeBits (Text.fieldCodes count s)) length_fieldBits fun w a' w' hw => ?_
  cases hw
  refine ⟨Text.fieldText_eq_normalised _ _, toList_text, fun b p hle hb => ?_⟩
  show answered (Reader.advance ⟨b, p⟩ (6 * count) (b.textAt p (6 * count))) = _
  rw [textAt_of_window hle hb]
  rfl

/-- What is read back of a quantity that is sent as a code. -/
theorem quantity_carries {ι : Type} {field : String} {encode : Binary64 → Except FieldFault ι}
    {decode : ι → Binary64} {code : Layout ι ι} {x : Binary64}
    (hc : ∀ c, Carries code p c n c) :
    Carries (quantity field encode decode code) p x n (Quantity.requantised encode decode x) := by
  rintro w a' w' rfl h
  change (Writer.refuse field (encode x) >>= _) = _ at h
  cases hx : encode x with
  | error e => rw [hx] at h; cases h
  | ok c =>
    rw [hx] at h
    change ((code.write c w) >>= _) = _ at h
    cases hw : code.write c w with
    | error e => rw [hw] at h; cases h
    | ok y =>
      obtain ⟨c', v⟩ := y
      rw [hw] at h
      cases h
      obtain ⟨rfl, hk⟩ := hc c w c' w' rfl hw
      rw [Quantity.requantised, hx]
      refine ⟨rfl, hk.grows, hk.length, fun b hb ht => ?_⟩
      show (code.read _).map _ = _
      rw [hk.reads b hb ht]
      rfl

/-! ## Fields that take what is left -/

theorem length_payload {w : Writer} {data : Bits} :
    (w.payload data).bits.length = w.bits.length + data.length := by
  show (w.bits.append data.toList).length = _
  rw [Bits.length_append, Bits.length_toList]

/-- Data, read where it was written. -/
theorem slice_of_isPrefix {w : Writer} {data b : Bits}
    (hb : (w.payload data).bits.toList <+: b.toList) :
    b.slice w.bits.length data.length = .ok data := by
  have hx := Bits.window_of_isPrefix (Bits.toList_extend w.bits data) hb
  rw [Bits.length_toList, Bits.length_toList] at hx
  have hle := Bits.length_le_of_isPrefix hb
  rw [length_payload] at hle
  rw [Bits.slice, Bits.checkRange, if_pos hle, hx]
  show Except.ok (Bits.ofList data.toList) = _
  rw [Bits.ofList_toList]

theorem rest_closes {data : Bits} : Closes rest p data data.length 0 (· = 0) data := by
  rintro w a' w' rfl h
  cases h
  refine ⟨rfl, ⟨_, (Bits.toList_extend _ _).symm⟩, length_payload, fun b hb ht => ?_⟩
  have hle := Bits.length_le_of_isPrefix hb
  rw [length_payload] at ht hle
  show answered (Reader.payload _ (b.length - w.bits.length)) = _
  rw [show b.length - w.bits.length = data.length by omega]
  show answered (Reader.advance _ data.length (b.slice w.bits.length data.length)) = _
  rw [slice_of_isPrefix hb]
  rfl

theorem restBefore_closes {width : Nat} {data : Bits} :
    Closes (restBefore width) p data data.length 0 (· = width) data := by
  rintro w a' w' rfl h
  cases h
  refine ⟨rfl, ⟨_, (Bits.toList_extend _ _).symm⟩, length_payload, fun b hb ht => ?_⟩
  have hle := Bits.length_le_of_isPrefix hb
  rw [length_payload] at ht hle
  have hr : Reader.remaining ⟨b, w.bits.length⟩ = data.length + width := by
    show b.length - w.bits.length = _
    omega
  show (if Reader.remaining ⟨b, w.bits.length⟩ < width then _ else
    answered (Reader.payload _ (Reader.remaining ⟨b, w.bits.length⟩ - width))) = _
  rw [hr, if_neg (by omega), Nat.add_sub_cancel]
  show answered (Reader.advance _ data.length (b.slice w.bits.length data.length)) = _
  rw [slice_of_isPrefix hb]
  rfl

/-- The characters of a text that takes what is left. -/
theorem textRun_closes {limit : Nat} {s : String} :
    Closes (textRun limit) p s (6 * min s.length limit) 0 (· < 6) (Text.normalised limit s) := by
  rintro w a' w' rfl h
  change Except.ok (Text.fieldText (min s.length limit) s, w.text s (6 * min s.length limit)) =
    Except.ok (a', w') at h
  obtain ⟨rfl, rfl⟩ := Prod.mk.inj (Except.ok.inj h)
  have hl : (w.text s (6 * min s.length limit)).bits.toList = _ := toList_text
  have hlen : (w.text s (6 * min s.length limit)).bits.length =
      w.bits.length + 6 * min s.length limit := length_text
  refine ⟨by rw [Text.fieldText_eq_normalised, Text.normalised_min], ⟨_, hl.symm⟩, hlen,
    fun b hb ht => ?_⟩
  have hle := Bits.length_le_of_isPrefix hb
  rw [hlen] at ht hle
  have hx := Bits.window_of_isPrefix hl hb
  rw [Bits.length_toList, length_fieldBits] at hx
  show answered (Reader.text _ (6 * min ((b.length - w.bits.length) / 6) limit)) = _
  rw [show min ((b.length - w.bits.length) / 6) limit = min s.length limit by omega]
  show answered (Reader.advance _ _ (b.textAt w.bits.length (6 * min s.length limit))) = _
  rw [textAt_of_window hle hx, Text.normalised_min]
  rfl

/-! ## Parts that may be missing -/

/-- A part that is there makes the message as long as it has to be. -/
theorem whenLength_carries_some {least : Nat} {l : Layout σ α} {s : σ} {a : α}
    (hl : Carries l p s n a) (h : least ≤ p + n) :
    Carries (whenLength least l) p (some s) n (some a) := by
  rintro w a' w' rfl hw
  have hs : Carries (l.mapped some) w.bits.length s n (some a) := hl.mapped
  obtain ⟨rfl, hk⟩ := hs w a' w' rfl hw
  refine ⟨rfl, hk.grows, hk.length, fun b hb ht => ?_⟩
  have hle := Bits.length_le_of_isPrefix hb
  rw [hk.length] at hle
  show (if least ≤ b.length then _ else _) = _
  rw [if_pos (by omega)]
  exact hk.reads b hb ht

theorem whenLength_closes_none {least : Nat} {l : Layout σ α} :
    Closes (whenLength least l) p none 0 0 (fun t => p + t < least) none := by
  rintro w a' w' rfl h
  cases h
  refine ⟨rfl, List.prefix_refl _, rfl, fun b hb ht => ?_⟩
  have hle := Bits.length_le_of_isPrefix hb
  show (if least ≤ b.length then _ else _) = _
  rw [if_neg (by omega)]
  rfl

theorem whenPresent_carries {l : Layout α α} (hl : ∀ a, Carries l p a n a) (a : Option α) :
    Carries (whenPresent a.isSome l) p a (n * a.isSome.toNat) a := by
  cases a with
  | none => exact (Closes.pure (σ := Option α) (s := none) none).congr rfl rfl
  | some a =>
    have hs : Carries (l.mapped some) p a n (some a) := (hl a).mapped
    have h : Carries (whenPresent true l) p (some a) n (some a) := hs.congr rfl rfl
    exact h.cast (Nat.mul_one n).symm rfl

/-! ## Entries -/

/-- So many entries one after the other. -/
def listed (item : Layout α α) (count : Nat) : Layout (List α) (List α) where
  read := readEntries item count
  write := writeEntries item

/-- An entry in front of so many others. -/
def listedCons (item : Layout α α) (count : Nat) : Layout (α × List α) (List α) := do
  let a ← item.on (·.1)
  let as ← (listed item count).on (·.2)
  return a :: as

theorem listed_carries {item : Layout α α} {width : Nat}
    (hi : ∀ p a, Carries item p a width a) :
    ∀ (as : List α) (p : Nat), Carries (listed item as.length) p as (width * as.length) as
  | [], p => (Closes.pure (σ := List α) (s := []) []).congr rfl rfl
  | a :: as, p => by
    have hhead : Carries (item.on Prod.fst) p (a, as) width a := (hi p a).on
    have htail : ∀ p, Carries ((listed item as.length).on Prod.snd) p (a, as)
        (width * as.length) as :=
      fun p => (listed_carries hi as p).on
    have hcons : Carries (listedCons item as.length) p (a, as) (width + width * as.length) (a :: as) :=
      hhead.bind fun _ _ => (htail _).returning
    have hwidth : width + width * as.length = width * (a :: as).length := by
      rw [List.length_cons, Nat.mul_succ, Nat.add_comm]
    have hlisted : Carries (listed item (as.length + 1)) p (a :: as) (width + width * as.length)
        (a :: as) := hcons.congr rfl rfl
    exact hlisted.cast hwidth rfl

theorem entries_closes {field expected : String} {width limit : Nat} {item : Layout α α}
    {as : List α} (hwidth : 0 < width) (hi : ∀ p a, Carries item p a width a) :
    Closes (entries field expected width limit item) p as (width * as.length) 0 (· < width) as := by
  rintro w as' w' rfl h
  change (if 1 ≤ as.length ∧ as.length ≤ limit then writeEntries item as w else _) = _ at h
  split at h
  case isFalse => cases h
  case isTrue hcount =>
    obtain ⟨rfl, hk⟩ := listed_carries hi as _ w as' w' rfl h
    refine ⟨rfl, hk.grows, hk.length, fun b hb ht => ?_⟩
    have hle := Bits.length_le_of_isPrefix hb
    have hlen : w'.bits.length = w.bits.length + width * as'.length := hk.length
    rw [hlen] at ht hle
    have hdiv : (b.length - w.bits.length) / width = as'.length := by
      rw [show b.length - w.bits.length =
        b.length - (w.bits.length + width * as'.length) + width * as'.length by omega,
        Nat.add_mul_div_left _ _ hwidth, Nat.div_eq_of_lt ht, Nat.zero_add]
    show readEntries item (min (max ((b.length - w.bits.length) / width) 1) limit) _ = _
    rw [hdiv, show min (max as'.length 1) limit = as'.length by omega]
    exact hk.reads b hb trivial

end Layout

end Transponder
