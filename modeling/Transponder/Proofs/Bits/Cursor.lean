import Transponder.Proofs.Layout.Writes

/-!
# The position of a reader

Every read at the position is an absolute read there, and moves by the width that this one checked
(`next_eq_advance`, `readAt_spans`): a text by all its bits, not only by its characters. A call is
made, up to a position that is not past the end, or it leaves the reader as it found it
(`Call.make_cases`). So no call takes a reader past the end of its bits (`Within.apply`), and no
sequence of calls does, be they made or refused (`Within.after`). Whether bits are missing is asked
of integers here; with a sum of machine words, which may be too large for one, the answer is the
same (`checkWords_eq`).
-/

namespace Transponder

-- Powers are those of `Nat` and `Int` themselves.
attribute [local instance (high)] instPowNat

/-! ## Sums of machine words -/

/-- The sum of two machine words, if it is one. A sum that is not wraps around, to less than either
of them. -/
def checkedAdd? (m n : UInt64) : Option UInt64 :=
  if m + n < m then none else some (m + n)

theorem checkedAdd?_eq_some {m n : UInt64} (h : m.toNat + n.toNat < UInt64.size) :
    checkedAdd? m n = some (m + n) ∧ (m + n).toNat = m.toNat + n.toNat := by
  have hsum : (m + n).toNat = m.toNat + n.toNat := by
    rw [UInt64.toNat_add, Nat.mod_eq_of_lt h]
  have hlt : ¬ m + n < m := by
    rw [UInt64.lt_iff_toNat_lt, hsum]
    omega
  exact ⟨if_neg hlt, hsum⟩

theorem checkedAdd?_eq_none {m n : UInt64} (h : UInt64.size ≤ m.toNat + n.toNat) :
    checkedAdd? m n = none := by
  have hn := n.toNat_lt_size
  have hm := m.toNat_lt_size
  have hsum : (m + n).toNat = m.toNat + n.toNat - UInt64.size := by
    rw [UInt64.toNat_add, Nat.mod_eq_sub_mod h, Nat.mod_eq_of_lt (by omega)]
  refine if_pos ?_
  rw [UInt64.lt_iff_toNat_lt, hsum]
  omega

namespace Bits

variable {b : Bits} {offset width : Nat}

/-- Refuses a range that reaches past the end, or whose end is no machine word. -/
def checkWords (b : Bits) (offset width : UInt64) : Except Error Unit :=
  match checkedAdd? offset width with
  | some stop =>
    if stop.toNat ≤ b.length then .ok ()
    else .error (.truncated offset.toNat width.toNat b.length)
  | none => .error (.truncated offset.toNat width.toNat b.length)

/-- A range whose end is no machine word reaches past the end of any bits with a length that is
one. -/
theorem checkWords_eq (hlength : b.length < UInt64.size) (offset width : UInt64) :
    b.checkWords offset width = b.checkRange offset.toNat width.toNat := by
  unfold checkWords checkRange
  rcases Nat.lt_or_ge (offset.toNat + width.toNat) UInt64.size with hfits | hlarge
  · obtain ⟨hstop, hsum⟩ := checkedAdd?_eq_some hfits
    rw [hstop]
    dsimp only
    rw [hsum]
  · rw [checkedAdd?_eq_none hlarge, if_neg (by omega)]

theorem coordinateAt_spans : b.Spans offset width (b.coordinateAt offset width) :=
  intAt_spans.bind fun _ => ⟨_, rfl⟩

theorem speedAt_spans : b.Spans offset Quantity.speedWidth (b.speedAt offset) :=
  uintAt_spans.bind fun _ => ⟨_, rfl⟩

theorem courseAt_spans : b.Spans offset Quantity.courseWidth (b.courseAt offset) :=
  uintAt_spans.bind fun _ => ⟨_, rfl⟩

theorem rateOfTurnAt_spans : b.Spans offset Quantity.rateOfTurnWidth (b.rateOfTurnAt offset) :=
  intAt_spans.bind fun _ => ⟨_, rfl⟩

theorem Spans.map {α β : Type} {x : Except Error α} (h : b.Spans offset width x) (f : α → β) :
    b.Spans offset width (x.map f) where
  ok hle := by
    obtain ⟨a, rfl⟩ := h.ok hle
    exact ⟨f a, rfl⟩
  short hlt := by rw [h.short hlt]; rfl

end Bits

namespace Reader

/-! ## Reads -/

/-- What a read finds. -/
inductive Answer where
  | natural (n : Nat)
  | integer (i : Int)
  | flag (x : Bool)
  | text (s : String)
  | quantity (x : Binary64)
  | payload (data : Bits)

/-- The reads at the position. A coordinate is a latitude or a longitude. -/
inductive Read where
  | uint (width : Nat)
  | word8 (width : Nat)
  | word16 (width : Nat)
  | word32 (width : Nat)
  | int (width : Nat)
  | flag
  | text (width : Nat)
  | coordinate (width : Nat)
  | speed
  | course
  | rateOfTurn
  | payload (width : Nat)

namespace Read

/-- The bits that a read takes. -/
def width : Read → Nat
  | uint width | word8 width | word16 width | word32 width | int width | text width
  | coordinate width | payload width => width
  | flag => 1
  | speed => 10
  | course => 12
  | rateOfTurn => 8

/-- Whether a number that is kept in a word has room in it. -/
def Fits : Read → Prop
  | word8 width => width ≤ 8
  | word16 width => width ≤ 16
  | word32 width => width ≤ 32
  | _ => True

/-- The absolute read of the same kind. -/
def readAt (b : Bits) (offset : Nat) : Read → Except Error Answer
  | uint width | word8 width | word16 width | word32 width =>
    (b.uintAt offset width).map .natural
  | int width => (b.intAt offset width).map .integer
  | flag => (b.flagAt offset).map .flag
  | text width => (b.textAt offset width).map .text
  | coordinate width => (b.coordinateAt offset width).map .quantity
  | speed => (b.speedAt offset).map .quantity
  | course => (b.courseAt offset).map .quantity
  | rateOfTurn => (b.rateOfTurnAt offset).map .quantity
  | payload width => (b.slice offset width).map .payload

/-- The reader after a read at the position, and what the read finds. -/
def next (r : Reader) : Read → Reader × Except Error Answer
  | uint width => (r.uint width).map id (·.map .natural)
  | word8 width => (r.word8 width).map id (·.map (.natural ·.toNat))
  | word16 width => (r.word16 width).map id (·.map (.natural ·.toNat))
  | word32 width => (r.word32 width).map id (·.map (.natural ·.toNat))
  | int width => (r.int width).map id (·.map .integer)
  | flag => r.flag.map id (·.map .flag)
  | text width => (r.text width).map id (·.map .text)
  | coordinate width => (r.coordinate width).map id (·.map .quantity)
  | speed => r.speed.map id (·.map .quantity)
  | course => r.course.map id (·.map .quantity)
  | rateOfTurn => r.rateOfTurn.map id (·.map .quantity)
  | payload width => (r.payload width).map id (·.map .payload)

/-- What is left of a number in the word that it is kept in. -/
def kept : Read → Answer → Answer
  | word8 _, .natural n => .natural (n % UInt8.size)
  | word16 _, .natural n => .natural (n % UInt16.size)
  | word32 _, .natural n => .natural (n % UInt32.size)
  | _, a => a

end Read

open Read

variable {r : Reader} {b : Bits} {offset : Nat}

theorem readAt_spans (read : Read) : b.Spans offset read.width (read.readAt b offset) := by
  cases read with
  | uint width | word8 width | word16 width | word32 width => exact Bits.uintAt_spans.map _
  | int width => exact Bits.intAt_spans.map _
  | flag => exact Bits.flagAt_spans.map _
  | text width => exact Bits.textAt_spans.map _
  | coordinate width => exact Bits.coordinateAt_spans.map _
  | speed => exact Bits.speedAt_spans.map _
  | course => exact Bits.courseAt_spans.map _
  | rateOfTurn => exact Bits.rateOfTurnAt_spans.map _
  | payload width => exact Bits.slice_spans.map _

theorem map_advance {α : Type} {width : Nat} {found : Except Error α} {f g : α → Answer}
    {k : Answer → Answer} (hkept : ∀ a, k (g a) = f a) :
    (r.advance width found).map id (·.map f) = r.advance width ((found.map g).map k) := by
  obtain rfl : (fun a => k (g a)) = f := funext hkept
  cases found <;> rfl

theorem map_word {γ : Type} {x : Reader × Except Error Nat} {ofNat : Nat → γ} {g : γ → Answer} :
    (x.map id (·.map ofNat)).map id (·.map g) = x.map id (·.map (g <| ofNat ·)) := by
  obtain ⟨r, _ | n⟩ := x <;> rfl

/-- Every read at the position is an absolute read there, and moves by the width of this one. -/
theorem next_eq_advance (read : Read) :
    read.next r = r.advance read.width ((read.readAt r.bits r.position).map read.kept) := by
  cases read with
  | word8 width | word16 width | word32 width =>
    exact map_word.trans (map_advance fun n => congrArg Answer.natural (by simp))
  | uint width => exact map_advance fun _ => rfl
  | int width => exact map_advance fun _ => rfl
  | flag => exact map_advance fun _ => rfl
  | text width => exact map_advance fun _ => rfl
  | coordinate width => exact map_advance fun _ => rfl
  | speed => exact map_advance fun _ => rfl
  | course => exact map_advance fun _ => rfl
  | rateOfTurn => exact map_advance fun _ => rfl
  | payload width => exact map_advance fun _ => rfl

theorem map_kept_readAt {read : Read} (hfits : read.Fits) :
    (read.readAt b offset).map read.kept = read.readAt b offset := by
  -- A number of the width of the read is less than the words that the read fits into.
  have hword : ∀ {width size : Nat} {kept : Answer → Answer}, width ≤ size →
      (∀ n, kept (.natural n) = .natural (n % 2 ^ size)) →
      ((b.uintAt offset width).map Answer.natural).map kept =
        (b.uintAt offset width).map .natural := by
    intro width size kept hle hkept
    cases hn : b.uintAt offset width with
    | error e => rfl
    | ok n =>
      have hlt := Layout.lt_two_pow_of_le (Bits.lt_of_uintAt hn) hle
      exact congrArg Except.ok ((hkept n).trans (by rw [Nat.mod_eq_of_lt hlt]))
  have hplain : ∀ {α : Type} {x : Except Error α} {g : α → Answer} {kept : Answer → Answer},
      (∀ a, kept (g a) = g a) → (x.map g).map kept = x.map g := by
    intro α x g kept hkept
    cases x with
    | error e => rfl
    | ok a => exact congrArg Except.ok (hkept a)
  cases read with
  | word8 width => exact hword hfits fun _ => rfl
  | word16 width => exact hword hfits fun _ => rfl
  | word32 width => exact hword hfits fun _ => rfl
  | uint | int | flag | text | coordinate | speed | course | rateOfTurn | payload =>
    exact hplain fun _ => rfl

/-- A read either moves over its bits, all of which are there, or is refused where it is. -/
theorem next_spans (r : Reader) (read : Read) :
    (r.position + read.width ≤ r.bits.length →
      ∃ a, read.next r = (⟨r.bits, r.position + read.width⟩, .ok a) ∧
        (read.Fits → read.readAt r.bits r.position = .ok a)) ∧
      (r.bits.length < r.position + read.width →
        read.next r = (r, .error (.truncated r.position read.width r.bits.length)) ∧
          read.readAt r.bits r.position =
            .error (.truncated r.position read.width r.bits.length)) := by
  have hspans : r.bits.Spans r.position read.width (read.readAt r.bits r.position) :=
    readAt_spans read
  rw [next_eq_advance]
  refine ⟨fun hle => ?_, fun hlt => ?_⟩
  · obtain ⟨a, ha⟩ := hspans.ok hle
    refine ⟨read.kept a, by rw [ha]; rfl, fun hfits => ?_⟩
    rw [← map_kept_readAt hfits, ha]
    rfl
  · have hshort := hspans.short hlt
    exact ⟨by rw [hshort]; rfl, hshort⟩

/-! ## Calls -/

/-- The calls that move a reader. -/
inductive Call where
  | take (read : Read)
  | skip (width : Nat)
  | moveTo (position : Nat)

namespace Call

/-- The reader after a call, and what a read finds. -/
def make (r : Reader) : Call → Reader × Except Error (Option Answer)
  | take read => (read.next r).map id (·.map some)
  | skip width => (r.skip width).map id (·.map fun _ => none)
  | moveTo position => (r.moveTo position).map id (·.map fun _ => none)

/-- The reader after a call, whatever the answer is. -/
def apply (r : Reader) (call : Call) : Reader :=
  (call.make r).1

end Call

/-- The reader after calls that come one after the other. -/
def after (r : Reader) (calls : List Call) : Reader :=
  calls.foldl Call.apply r

/-- A reader of `b` that is not past the end. -/
structure Within (b : Bits) (r : Reader) : Prop where
  bits : r.bits = b
  position_le : r.position ≤ b.length

theorem skip_spans (r : Reader) (width : Nat) :
    (r.position + width ≤ r.bits.length →
      r.skip width = (⟨r.bits, r.position + width⟩, .ok ())) ∧
      (r.bits.length < r.position + width →
        r.skip width = (r, .error (.truncated r.position width r.bits.length))) := by
  have hspans : r.bits.Spans r.position width (r.bits.checkRange r.position width) :=
    Bits.checkRange_spans
  rw [Layout.skip_eq_advance]
  refine ⟨fun hle => ?_, fun hlt => by rw [hspans.short hlt]; rfl⟩
  obtain ⟨⟨⟩, hcheck⟩ := hspans.ok hle
  rw [hcheck]
  rfl

theorem moveTo_spans (r : Reader) (position : Nat) :
    (position ≤ r.bits.length → r.moveTo position = (⟨r.bits, position⟩, .ok ())) ∧
      (r.bits.length < position →
        r.moveTo position = (r, .error (.invalidPosition position r.bits.length))) :=
  ⟨fun hle => if_neg (Nat.not_lt.mpr hle), fun hlt => if_pos hlt⟩

/-- A call is made, up to a position that is not past the end, or it is refused, and then the reader
is left as it is. -/
theorem Call.make_cases (call : Call) (r : Reader) :
    (∃ position a, position ≤ r.bits.length ∧ call.make r = (⟨r.bits, position⟩, .ok a)) ∨
      ∃ e, call.make r = (r, .error e) := by
  cases call with
  | take read =>
    rcases Nat.lt_or_ge r.bits.length (r.position + read.width) with hlt | hle
    · exact .inr ⟨_, congrArg (Prod.map id _) ((next_spans r read).2 hlt).1⟩
    · obtain ⟨a, hnext, -⟩ := (next_spans r read).1 hle
      exact .inl ⟨_, _, hle, congrArg (Prod.map id _) hnext⟩
  | skip width =>
    rcases Nat.lt_or_ge r.bits.length (r.position + width) with hlt | hle
    · exact .inr ⟨_, congrArg (Prod.map id _) ((skip_spans r width).2 hlt)⟩
    · exact .inl ⟨_, _, hle, congrArg (Prod.map id _) ((skip_spans r width).1 hle)⟩
  | moveTo position =>
    rcases Nat.lt_or_ge r.bits.length position with hlt | hle
    · exact .inr ⟨_, congrArg (Prod.map id _) ((moveTo_spans r position).2 hlt)⟩
    · exact .inl ⟨_, _, hle, congrArg (Prod.map id _) ((moveTo_spans r position).1 hle)⟩

theorem Call.apply_of_refused {call : Call} {e : Error} (h : (call.make r).2 = .error e) :
    call.apply r = r := by
  rcases call.make_cases r with ⟨position, a, -, hmake⟩ | ⟨e', hmake⟩
  · rw [hmake] at h
    cases h
  · rw [apply, hmake]

/-- No call changes the bits or moves past their end, be it made or refused. -/
theorem Within.apply (h : Within b r) (call : Call) : Within b (call.apply r) := by
  obtain ⟨rfl, hposition⟩ := h
  rcases call.make_cases r with ⟨position, a, hle, hmake⟩ | ⟨e, hmake⟩
  · rw [Call.apply, hmake]
    exact ⟨rfl, hle⟩
  · rw [Call.apply, hmake]
    exact ⟨rfl, hposition⟩

theorem Within.after (h : Within b r) (calls : List Call) : Within b (r.after calls) := by
  induction calls generalizing r with
  | nil => exact h
  | cons call calls ih => exact ih (h.apply call)

/-- Whatever calls a reader has been given, it is not past the end of its bits, so what is in front
of it and what remains are all of them. A call that is refused leaves it where it is. A read takes
what the absolute read finds there and moves by the width, and so does a skip that takes nothing;
both are refused if and only if not all of these bits are there, however large the width is, and a
sum of machine words that is too large for one makes no difference. A position is refused if and
only if it is past the end. -/
theorem cursor_discipline (b : Bits) (calls : List Call) :
    let r := (start b).after calls
    r.bits = b ∧ r.position ≤ b.length ∧ r.position + r.remaining = b.length ∧
      (∀ (call : Call) e, (call.make r).2 = .error e → (call.make r).1 = r) ∧
      (∀ read : Read,
        (r.position + read.width ≤ b.length →
          ∃ a, read.next r = (⟨b, r.position + read.width⟩, .ok a) ∧
            (read.Fits → read.readAt b r.position = .ok a)) ∧
        (b.length < r.position + read.width →
          read.next r = (r, .error (.truncated r.position read.width b.length)) ∧
            read.readAt b r.position = .error (.truncated r.position read.width b.length))) ∧
      (∀ width,
        (r.position + width ≤ b.length → r.skip width = (⟨b, r.position + width⟩, .ok ())) ∧
        (b.length < r.position + width →
          r.skip width = (r, .error (.truncated r.position width b.length)))) ∧
      (∀ position,
        (position ≤ b.length → r.moveTo position = (⟨b, position⟩, .ok ())) ∧
        (b.length < position →
          r.moveTo position = (r, .error (.invalidPosition position b.length)))) ∧
      (b.length < UInt64.size → ∀ width : UInt64,
        b.checkWords (.ofNat r.position) width = b.checkRange r.position width.toNat) := by
  intro r
  have hstart : Within b (start b) := ⟨rfl, Nat.zero_le _⟩
  obtain ⟨hbits, hposition⟩ := hstart.after calls
  refine ⟨hbits, hposition, ?_, fun call e => Call.apply_of_refused, ?_, ?_, ?_, ?_⟩
  · show r.position + (r.bits.length - r.position) = b.length
    rw [hbits]
    exact Nat.add_sub_cancel' hposition
  · rw [← hbits]
    exact next_spans r
  · rw [← hbits]
    exact skip_spans r
  · rw [← hbits]
    exact moveTo_spans r
  · intro hlength width
    have hword : (UInt64.ofNat r.position).toNat = r.position :=
      UInt64.toNat_ofNat_of_lt' (Nat.lt_of_le_of_lt hposition hlength)
    rw [b.checkWords_eq hlength, hword]

/-- A number, a skip whose end is no machine word, a position past the end, and a word. -/
def strayCalls : List Call :=
  [.take (.uint 6), .skip 18446744073709551615, .moveTo 41, .take (.word8 8)]

/-- Two of the calls are refused, and the reader is behind the two others; a text of 30 bits is too
long for the 26 bits that remain, and leaves the reader there. -/
theorem cursor_discipline_strayCalls :
    let b := Bits.ofList (List.replicate 40 true)
    let r := (start b).after strayCalls
    r.position = 14 ∧ r.position + r.remaining = 40 ∧
      (∃ a, (Read.word8 8).next r = (⟨b, r.position + 8⟩, .ok a) ∧
        (Read.word8 8).readAt b r.position = .ok a) ∧
      (Read.text 30).next r = (r, .error (.truncated r.position 30 b.length)) ∧
      b.checkWords (.ofNat r.position) 18446744073709551615 =
        b.checkRange r.position 18446744073709551615 := by
  intro b r
  have hposition : r.position = 14 := by decide +kernel
  have hlength : b.length = 40 := by decide +kernel
  obtain ⟨-, -, hremaining, -, hread, -, -, hwords⟩ := cursor_discipline b strayCalls
  obtain ⟨a, hnext, hfound⟩ := (hread (.word8 8)).1 (by decide +kernel)
  exact ⟨hposition, hremaining.trans hlength, ⟨a, hnext, hfound (Nat.le_refl 8)⟩,
    ((hread (.text 30)).2 (by decide +kernel)).1, hwords (by decide +kernel) _⟩

end Reader

end Transponder
