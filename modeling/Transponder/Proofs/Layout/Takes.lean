import Transponder.Layout.Part
import Transponder.Proofs.Layout.Carries
import Transponder.Proofs.Record.Demands

/-!
# What a layout takes

`Takes l p s ds n` says exactly when `l` can write `s` behind `p` bits: if all the demands `ds` are
met, and then it takes `n` bits. If they are not, it fails with the error of the first one that is
not. Layouts that follow each other demand what each of them demands, and take what both of them take
(`Takes.bind`), so a layout is a list of demands and a sum of widths.

Quantities have writers of their own. `Puts put n` says of a writer that what it takes does not
depend on what stands in front of it; then it is enough to know what it does with nothing in front.
-/

namespace Transponder

-- Powers are those of `Nat` and `Int` themselves.
attribute [local instance (high)] instPowNat

namespace Layout

open Demand

variable {σ τ α β ι : Type} {p n m : Nat} {ds ds' : List Demand}

/-- Behind `p` bits, `l` writes `s` in `n` bits if all of `ds` are met, and otherwise fails with the
error of the first that is not. -/
structure Takes (l : Layout σ α) (p : Nat) (s : σ) (ds : List Demand) (n : Nat) : Prop where
  refuses : ∀ w e, w.bits.length = p → firstRefusal? ds = some e → l.write s w = .error e
  accepts : ∀ w, w.bits.length = p → firstRefusal? ds = none →
    ∃ a w', l.write s w = .ok (a, w') ∧ w'.bits.length = p + n

/-! ## Putting layouts together -/

/-- A layout and another one behind it, which may depend on what the first one answers. -/
theorem Takes.bindAnswer {l : Layout σ α} {k : α → Layout σ β} {s : σ} (hl : Takes l p s ds n)
    (hk : ∀ a w w', l.write s w = .ok (a, w') → Takes (k a) (p + n) s ds' m) :
    Takes (l >>= k) p s (ds ++ ds') (n + m) where
  refuses w e hp h := by
    show (l.write s w).bind _ = _
    rw [firstRefusal?_append] at h
    cases hds : firstRefusal? ds with
    | some e' =>
      rw [hds] at h
      cases h
      rw [hl.refuses w e hp hds]
      rfl
    | none =>
      rw [hds] at h
      obtain ⟨a, v, hw, hv⟩ := hl.accepts w hp hds
      rw [hw]
      exact (hk a w v hw).refuses v e hv h
  accepts w hp h := by
    rw [firstRefusal?_append, Option.or_eq_none_iff] at h
    obtain ⟨a, v, hw, hv⟩ := hl.accepts w hp h.1
    obtain ⟨c, w', hw', hlen⟩ := (hk a w v hw).accepts v hv h.2
    refine ⟨c, w', ?_, by omega⟩
    show (l.write s w).bind _ = _
    rw [hw]
    exact hw'

theorem Takes.bind {l : Layout σ α} {k : α → Layout σ β} {s : σ} (hl : Takes l p s ds n)
    (hk : ∀ a, Takes (k a) (p + n) s ds' m) : Takes (l >>= k) p s (ds ++ ds') (n + m) :=
  hl.bindAnswer fun a _ _ _ => hk a

theorem Takes.pure {s : σ} (a : α) : Takes (Pure.pure a) p s [] 0 where
  refuses _ _ _ h := nomatch h
  accepts w hp _ := ⟨a, w, rfl, hp⟩

theorem Takes.on {l : Layout τ α} {part : σ → τ} {s : σ} (h : Takes l p (part s) ds n) :
    Takes (l.on part) p s ds n :=
  ⟨h.refuses, h.accepts⟩

theorem Takes.mapped {l : Layout σ α} {make : α → β} {s : σ} (h : Takes l p s ds n) :
    Takes (l.mapped make) p s ds n where
  refuses w e hp he := by
    show (l.write s w).map _ = _
    rw [h.refuses w e hp he]
    rfl
  accepts w hp hnone := by
    obtain ⟨a, w', hw, hlen⟩ := h.accepts w hp hnone
    refine ⟨make a, w', ?_, hlen⟩
    show (l.write s w).map _ = _
    rw [hw]
    rfl

/-- A layout that writes like another one. -/
theorem Takes.congr {l : Layout σ α} {l' : Layout τ α} {s : σ} {t : τ} (h : Takes l' p t ds n)
    (hw : l.write s = l'.write t) : Takes l p s ds n :=
  ⟨hw ▸ h.refuses, hw ▸ h.accepts⟩

/-- Nothing but an answer follows. -/
theorem Takes.returning {l : Layout σ α} {s : σ} {g : α → β} (h : Takes l p s ds n) :
    Takes (l >>= fun a => Pure.pure (g a)) p s ds n := by
  have hmapped : Takes (l.mapped g) p s ds n := h.mapped
  refine hmapped.congr (funext fun w => ?_)
  show (l.write s w).bind _ = (l.write s w).map _
  cases l.write s w <;> rfl

/-- Demands are as good as others that are refused in the same way, and the width only matters if
all of them are met. -/
theorem Takes.cast {l : Layout σ α} {s : σ} (h : Takes l p s ds n)
    (hds : firstRefusal? ds = firstRefusal? ds') (hn : firstRefusal? ds = none → n = m) :
    Takes l p s ds' m where
  refuses w e hp he := h.refuses w e hp (hds.trans he)
  accepts w hp hnone := by
    rw [← hds] at hnone
    rw [← hn hnone]
    exact h.accepts w hp hnone

theorem Takes.width {l : Layout σ α} {s : σ} (h : Takes l p s ds n) (hn : n = m) :
    Takes l p s ds m :=
  h.cast rfl fun _ => hn

/-- A demand that is met makes no difference. -/
theorem Takes.met {l : Layout σ α} {s : σ} {d : Demand} (h : Takes l p s ds n)
    (hd : d.refusal? = none) : Takes l p s (d :: ds) n :=
  h.cast (by rw [firstRefusal?, firstRefusal?, List.findSome?_cons, hd]) fun _ => rfl

/-- A demand that is not met decides, whatever is demanded behind it. -/
theorem takes_of_error {l : Layout σ α} {s : σ} {d : Demand} {e : Error}
    (hd : d.refusal? = some e) (h : ∀ w, l.write s w = .error e) : Takes l p s (d :: ds) n := by
  have hfirst : firstRefusal? (d :: ds) = some e := by
    rw [firstRefusal?, List.findSome?_cons, hd]
  refine ⟨fun w e' _ he => ?_, fun w _ hnone => ?_⟩
  · rw [hfirst] at he
    cases he
    exact h w
  · rw [hfirst] at hnone
    cases hnone

/-! ## Fields -/

/-- A layout that demands nothing. -/
theorem takes_of_ok {l : Layout σ α} {s : σ} (h : ∀ w, w.bits.length = p →
    ∃ a w', l.write s w = .ok (a, w') ∧ w'.bits.length = p + n) : Takes l p s [] n where
  refuses _ _ _ he := nomatch he
  accepts w hp _ := h w hp

theorem uint_takes {field : String} {width x : Nat} :
    Takes (uint field width) p x [.number field x width] width := by
  by_cases hx : x < 2 ^ width
  · have hwrite : ∀ w, (uint field width).write x w = .ok (x, ⟨w.bits.pushUint x width⟩) := by
      intro w
      show (answered (w.uint field x width)).map _ = _
      rw [Writer.uint, if_neg (Nat.not_le.mpr hx)]
      rfl
    refine (takes_of_ok fun w hp => ⟨_, _, hwrite w, ?_⟩).met (if_pos hx)
    show (w.bits.append _).length = _
    rw [Bits.length_append, Bits.length_digits, hp]
  · refine takes_of_error (if_neg hx) fun w => ?_
    show (answered (w.uint field x width)).map _ = _
    rw [Writer.uint, if_pos (Nat.not_lt.mp hx)]
    rfl

theorem word8_takes {field : String} {width : Nat} {x : UInt8} :
    Takes (word8 field width) p x [.number field x.toNat width] width :=
  uint_takes.on.returning

theorem word16_takes {field : String} {width : Nat} {x : UInt16} :
    Takes (word16 field width) p x [.number field x.toNat width] width :=
  uint_takes.on.returning

theorem word32_takes {field : String} {width : Nat} {x : UInt32} :
    Takes (word32 field width) p x [.number field x.toNat width] width :=
  uint_takes.on.returning

theorem coded_takes [Coded α] [DecidableEq α] {field : String} {width : Nat} {a : α} :
    Takes (coded field width) p a [.number field (Coded.code a) width] width :=
  uint_takes.on.returning

theorem flag_takes {x : Bool} : Takes flag p x [] 1 :=
  takes_of_ok fun w hp => ⟨x, w.flag x, rfl, by rw [← hp]; rfl⟩

theorem fixedFlag_takes {s : σ} {x : Bool} : Takes (fixedFlag x) p s [] 1 :=
  takes_of_ok fun w hp => ⟨(), w.flag x, rfl, by rw [← hp]; rfl⟩

theorem length_padding {w : Writer} {width : Nat} :
    (w.padding width).bits.length = w.bits.length + width := by
  show (w.bits.append _).length = _
  rw [Bits.length_append, Bits.length_digits]

theorem spare_takes {s : σ} {width : Nat} : Takes (spare width) p s [] width :=
  takes_of_ok fun w hp => ⟨(), w.padding width, rfl, by rw [length_padding, hp]⟩

theorem filling_takes {width : σ → Writer → Nat} {s : σ}
    (h : ∀ w, w.bits.length = p → width s w = n) : Takes (filling width) p s [] n :=
  takes_of_ok fun w hp => ⟨(), w.padding (width s w), rfl, by rw [length_padding, hp, h w hp]⟩

theorem text_takes (count : Nat) {s : String} : Takes (text count) p s [] (6 * count) :=
  takes_of_ok fun w hp => ⟨_, w.text s (6 * count), rfl, by rw [length_text, hp]⟩

theorem textRun_takes {limit : Nat} {s : String} :
    Takes (textRun limit) p s [] (6 * min s.length limit) :=
  takes_of_ok fun w hp => ⟨_, w.text s (6 * min s.length limit), rfl, by rw [length_text, hp]⟩

theorem rest_takes {data : Bits} : Takes rest p data [] data.length :=
  takes_of_ok fun w hp => ⟨data, w.payload data, rfl, by rw [length_payload, hp]⟩

theorem restBefore_takes {width : Nat} {data : Bits} :
    Takes (restBefore width) p data [] data.length :=
  rest_takes.congr rfl

/-- A check of what has been written, which is that of a demand. -/
theorem checked_takes {check : σ → Writer → Except Error Unit} {s : σ} {d : Demand}
    (h : ∀ w, w.bits.length = p → check s w = d.refusal?.elim (.ok ()) .error) :
    Takes (checked check) p s [d] 0 := by
  refine ⟨fun w e hp he => ?_, fun w hp hnone => ?_⟩
  · have hd : d.refusal? = some e := by simpa [firstRefusal?] using he
    show (check s w).map _ = _
    rw [h w hp, hd]
    rfl
  · have hd : d.refusal? = none := by simpa [firstRefusal?] using hnone
    refine ⟨(), w, ?_, hp⟩
    show (check s w).map _ = _
    rw [h w hp, hd]
    rfl

/-! ## Quantities -/

/-- `put` answers behind every writer what it answers behind any, and takes `n` bits. -/
def Puts (put : Writer → Writer × Except Error Unit) (n : Nat) : Prop :=
  ∀ w w', (put w').2 = (put w).2 ∧
    ((put w).2 = .ok () → (put w').1.bits.length = w'.bits.length + n)

theorem uint_puts {field : String} {x width : Nat} :
    Puts (fun w => w.uint field x width) width := by
  intro w w'
  by_cases hx : 2 ^ width ≤ x
  · simp [Writer.uint, hx]
  · simp [Writer.uint, hx, Bits.pushUint, Bits.length_append, Bits.length_digits]

theorem int_puts {field : String} {i : Int} {width : Nat} :
    Puts (fun w => w.int field i width) width := by
  intro w w'
  by_cases hwidth : width = 0 ∨ 64 < width
  · simp [Writer.int, hwidth]
  · by_cases hi : i < -2 ^ (width - 1) ∨ 2 ^ (width - 1) ≤ i
    · simp [Writer.int, hwidth, hi]
    · simp [Writer.int, hwidth, hi, Bits.pushUint, Bits.length_append, Bits.length_digits]

/-- A value that has a code or is refused, before the code is written. -/
theorem Puts.coded {put : Writer → ι → Writer × Except Error Unit} {field : String}
    (h : ∀ c, Puts (put · c) n) (code : Except FieldFault ι) :
    Puts (fun w => w.coded field code put) n := by
  cases code with
  | error fault => exact fun _ _ => ⟨rfl, nofun⟩
  | ok c => exact h c

theorem quantity_takes {l : Layout σ α} {s : σ} {kind : Quantity.Kind} {x : Binary64}
    (hput : Puts (·.quantity x kind) n)
    (hwrite : ∀ w, (l.write s w).map Prod.snd = (answered (w.quantity x kind)).map Prod.snd) :
    Takes l p s [.quantity kind x] n := by
  cases hempty : (Writer.empty.quantity x kind).2 with
  | error e =>
    have hd : (Demand.quantity kind x).refusal? = some e := by simp only [refusal?, hempty]
    refine takes_of_error hd fun w => ?_
    have hw : (l.write s w).map Prod.snd = .error e := by
      rw [hwrite, answered, (hput .empty w).1, hempty]
      rfl
    cases hwr : l.write s w with
    | error e' =>
      rw [hwr] at hw
      cases hw
      rfl
    | ok y =>
      rw [hwr] at hw
      cases hw
  | ok v =>
    have hd : (Demand.quantity kind x).refusal? = none := by simp only [refusal?, hempty]
    refine Takes.met (takes_of_ok fun w hp => ?_) hd
    obtain ⟨hok, hlen⟩ := hput .empty w
    have hw : (l.write s w).map Prod.snd = .ok (w.quantity x kind).1 := by
      rw [hwrite, answered, hok, hempty]
      rfl
    cases hwr : l.write s w with
    | error e =>
      rw [hwr] at hw
      cases hw
    | ok y =>
      rw [hwr] at hw
      exact ⟨y.1, y.2, rfl, by rw [Except.ok.inj hw, hlen hempty, hp]⟩

/-- The writer of a quantity, without the answer of its layout. -/
theorem quantity_write {field : String} {encode : Binary64 → Except FieldFault ι}
    {decode : ι → Binary64} {code : Layout ι ι} {put : Writer → ι → Writer × Except Error Unit}
    (hcode : ∀ c w, code.write c w = (answered (put w c)).map fun (_, w) => (c, w)) (x : Binary64)
    (w : Writer) : ((quantity field encode decode code).write x w).map Prod.snd =
      (answered (w.coded field (encode x) put)).map Prod.snd := by
  show ((Writer.refuse field (encode x)).bind _).map _ = _
  unfold Writer.coded
  cases Writer.refuse field (encode x) with
  | error e => rfl
  | ok c =>
    show ((code.write c w).bind _).map _ = (answered (put w c)).map _
    rw [hcode]
    cases answered (put w c) <;> rfl

theorem coordinate_takes {axis : Quantity.Axis} {field : String} {width : Nat} {x : Binary64} :
    Takes (coordinate axis field width) p x
      [.quantity (.coordinate axis field width) x] width :=
  quantity_takes (Puts.coded (fun _ => int_puts) _) (quantity_write (fun _ _ => rfl) x)

theorem longitude_takes {width : Nat} {x : Binary64} :
    Takes (longitude width) p x [.longitude width x] width :=
  coordinate_takes

theorem latitude_takes {width : Nat} {x : Binary64} :
    Takes (latitude width) p x [.latitude width x] width :=
  coordinate_takes

theorem speed_takes {x : Binary64} : Takes speed p x [.speed x] 10 :=
  quantity_takes (Puts.coded (fun _ => uint_puts) _) (quantity_write (fun _ _ => rfl) x)

theorem course_takes {x : Binary64} : Takes course p x [.course x] 12 :=
  quantity_takes (Puts.coded (fun _ => uint_puts) _) (quantity_write (fun _ _ => rfl) x)

theorem rateOfTurn_takes {x : Binary64} : Takes rateOfTurn p x [.rateOfTurn x] 8 :=
  quantity_takes (Puts.coded (fun _ => int_puts) _) (quantity_write (fun _ _ => rfl) x)

theorem draught_takes {x : Binary64} : Takes draught p x [.draught x] 8 :=
  quantity_takes (Puts.coded (fun _ => uint_puts) _) (quantity_write (fun _ _ => rfl) x)

/-! ## Parts that may be missing, and entries -/

theorem optional_takes {l : Layout α α} {l' : Layout (Option α) (Option α)} {ds : α → List Demand}
    {o : Option α} (hsome : ∀ a, l'.write (some a) = (l.mapped some).write a)
    (hnone : ∀ w, l'.write none w = .ok (none, w)) (h : ∀ a, Takes l p a (ds a) n) :
    Takes l' p o (o.elim [] ds) (n * o.isSome.toNat) := by
  cases o with
  | none => exact takes_of_ok fun w hp => ⟨none, w, hnone w, hp⟩
  | some a =>
    have ha : Takes (l.mapped some) p a (ds a) n := (h a).mapped
    exact (ha.congr (hsome a)).width (Nat.mul_one n).symm

theorem whenLength_takes {least : Nat} {l : Layout α α} {ds : α → List Demand} {o : Option α}
    (h : ∀ a, Takes l p a (ds a) n) :
    Takes (whenLength least l) p o (o.elim [] ds) (n * o.isSome.toNat) :=
  optional_takes (fun _ => rfl) (fun _ => rfl) h

theorem whenPresent_takes {present : Bool} {l : Layout α α} {ds : α → List Demand} {o : Option α}
    (h : ∀ a, Takes l p a (ds a) n) :
    Takes (whenPresent present l) p o (o.elim [] ds) (n * o.isSome.toNat) :=
  optional_takes (fun _ => rfl) (fun _ => rfl) h

theorem listed_takes {item : Layout α α} {ds : α → List Demand}
    (h : ∀ p a, Takes item p a (ds a) n) :
    ∀ (as : List α) (p : Nat), Takes (listed item as.length) p as (as.flatMap ds) (n * as.length)
  | [], p => takes_of_ok fun w hp => ⟨[], w, rfl, hp⟩
  | a :: as, p => by
    have hhead : Takes (item.on Prod.fst) p (a, as) (ds a) n := (h p a).on
    have htail : ∀ p, Takes ((listed item as.length).on Prod.snd) p (a, as) (as.flatMap ds)
        (n * as.length) :=
      fun p => (listed_takes h as p).on
    have hcons : Takes (listedCons item as.length) p (a, as) (ds a ++ as.flatMap ds)
        (n + n * as.length) :=
      hhead.bind fun _ => (htail _).returning
    have hlisted : Takes (listed item (as.length + 1)) p (a :: as) _ _ := hcons.congr rfl
    refine hlisted.cast (by rw [List.flatMap_cons]) fun _ => ?_
    rw [List.length_cons, Nat.mul_succ, Nat.add_comm]

/-- Entries, of a number that the layout has room for. -/
theorem entries_takes {field expected : String} {width limit : Nat} {item : Layout α α}
    {ds : α → List Demand} {as : List α} (h : ∀ p a, Takes item p a (ds a) width) :
    Takes (entries field expected width limit item) p as
      (.count field as.length limit expected :: as.flatMap ds) (width * as.length) := by
  by_cases hcount : 1 ≤ as.length ∧ as.length ≤ limit
  · have hwrite : (entries field expected width limit item).write as =
        (listed item as.length).write as := funext fun w => if_pos hcount
    exact ((listed_takes h as p).congr hwrite).met (if_pos hcount)
  · exact takes_of_error (if_neg hcount) fun w => if_neg hcount

end Layout

end Transponder
