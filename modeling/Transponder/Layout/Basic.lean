import Transponder.Bits.Reader
import Transponder.Bits.Writer

/-!
# Layouts

A `Layout σ α` says how an `α` is laid out on the wire, once for both directions: how to read it, and
how to write the one that a `σ` holds. Writing answers the value as it will be read back, which
differs from the one written where the wire is coarser than the record. Layouts are put together in
`do` blocks: reading and writing run through the same steps, so a later step may depend on what an
earlier one read or wrote. `Layout.on` says where in a larger value a part is found.
-/

namespace Transponder

/-- How an `α` is read, and how the `α` of a `σ` is written. -/
structure Layout (σ α : Type) where
  read : Reader → Except Error (α × Reader)
  write : σ → Writer → Except Error (α × Writer)

namespace Layout

variable {σ τ α β : Type}

/-- What a call answers, with the state after it; of a call that is refused, only why. A layout goes
no further then, and has no use for the state. -/
def answered (call : σ × Except Error α) : Except Error (α × σ) :=
  call.2.map fun a => (a, call.1)

/-- A value that takes no bits. -/
def constant (a : α) : Layout σ α where
  read r := .ok (a, r)
  write _ w := .ok (a, w)

/-- One layout after another, which may depend on what the first one gave. -/
def andThen (l : Layout σ α) (k : α → Layout σ β) : Layout σ β where
  read r := (l.read r).bind fun (a, r) => (k a).read r
  write s w := (l.write s w).bind fun (a, w) => (k a).write s w

instance : Monad (Layout σ) where
  pure := constant
  bind := andThen

/-- The layout of a part that is found in a larger value. -/
def on (l : Layout τ α) (part : σ → τ) : Layout σ α where
  read := l.read
  write s := l.write (part s)

/-- The layout of what is made from another value. -/
def mapped (l : Layout σ α) (make : α → β) : Layout σ β where
  read r := (l.read r).map fun (a, r) => (make a, r)
  write s w := (l.write s w).map fun (a, w) => (make a, w)

/-- Something that is checked when writing and takes no bits. -/
def checked (check : σ → Writer → Except Error Unit) : Layout σ Unit where
  read r := .ok ((), r)
  write s w := (check s w).map fun _ => ((), w)

/-- Bits that are passed over in reading and zero in writing. -/
def spare (width : Nat) : Layout σ Unit where
  read r := answered (r.skip width)
  write _ w := .ok ((), w.padding width)

/-- Zero bits that are written and need not be there in reading. -/
def filling (width : σ → Writer → Nat) : Layout σ Unit where
  read r := .ok ((), r)
  write s w := .ok ((), w.padding (width s w))

/-- A natural number. -/
def uint (field : String) (width : Nat) : Layout Nat Nat where
  read r := answered (r.uint width)
  write n w := (answered (w.uint field n width)).map fun (_, w) => (n, w)

/-- An integer in two's complement. -/
def int (field : String) (width : Nat) : Layout Int Int where
  read r := answered (r.int width)
  write i w := (answered (w.int field i width)).map fun (_, w) => (i, w)

def word8 (field : String) (width : Nat) : Layout UInt8 UInt8 := do
  return UInt8.ofNat (← (uint field width).on UInt8.toNat)

def word16 (field : String) (width : Nat) : Layout UInt16 UInt16 := do
  return UInt16.ofNat (← (uint field width).on UInt16.toNat)

def word32 (field : String) (width : Nat) : Layout UInt32 UInt32 := do
  return UInt32.ofNat (← (uint field width).on UInt32.toNat)

def flag : Layout Bool Bool where
  read r := answered r.flag
  write x w := .ok (x, w.flag x)

/-- A flag that always has the same value in writing, and any value in reading. -/
def fixedFlag (x : Bool) : Layout σ Unit where
  read r := answered (r.skip 1)
  write _ w := .ok ((), w.flag x)

/-- A text in a field of `count` characters. -/
def text (count : Nat) : Layout String String where
  read r := answered (r.text (6 * count))
  write s w := .ok (Text.fieldText count s, w.text s (6 * count))

/-- A text that takes the whole characters that are left, `limit` at most. -/
def textRun (limit : Nat) : Layout String String where
  read r := answered (r.text (6 * min (r.remaining / 6) limit))
  write s w :=
    let count := min s.length limit
    .ok (Text.fieldText count s, w.text s (6 * count))

/-- A quantity that is sent as a code. -/
def quantity {ι : Type} (field : String) (encode : Binary64 → Except FieldFault ι)
    (decode : ι → Binary64) (code : Layout ι ι) : Layout Binary64 Binary64 where
  read r := (code.read r).map fun (c, r) => (decode c, r)
  write x w := do
    let (c, w) ← code.write (← Writer.refuse field (encode x)) w
    return (decode c, w)

def coordinate (axis : Quantity.Axis) (field : String) (width : Nat) : Layout Binary64 Binary64 :=
  quantity field (Quantity.coordinateCode axis width) (Quantity.coordinate width) (int field width)

def latitude (width : Nat) : Layout Binary64 Binary64 :=
  coordinate .latitude "latitude" width

def longitude (width : Nat) : Layout Binary64 Binary64 :=
  coordinate .longitude "longitude" width

def speed : Layout Binary64 Binary64 :=
  quantity "speed_over_ground" Quantity.speedCode Quantity.speed
    (uint "speed_over_ground" Quantity.speedWidth)

def course : Layout Binary64 Binary64 :=
  quantity "course_over_ground" Quantity.courseCode Quantity.course
    (uint "course_over_ground" Quantity.courseWidth)

def rateOfTurn : Layout Binary64 Binary64 :=
  quantity "rate_of_turn" Quantity.rateOfTurnCode Quantity.rateOfTurn
    (int "rate_of_turn" Quantity.rateOfTurnWidth)

def draught : Layout Binary64 Binary64 :=
  quantity "draught" Quantity.draughtCode Quantity.ofTenths (uint "draught" 8)

/-- All bits that are left. -/
def rest : Layout Bits Bits where
  read r := answered (r.payload r.remaining)
  write data w := .ok (data, w.payload data)

/-- All bits that are left but the last `width`. -/
def restBefore (width : Nat) : Layout Bits Bits where
  read r :=
    if r.remaining < width then .error (.truncated r.position width r.bits.length)
    else answered (r.payload (r.remaining - width))
  write data w := .ok (data, w.payload data)

/-- Something that is there in a message of at least `least` bits. -/
def whenLength (least : Nat) (l : Layout σ α) : Layout (Option σ) (Option α) where
  read r :=
    if least ≤ r.bits.length then (l.read r).map fun (a, r) => (some a, r) else .ok (none, r)
  write
    | some s, w => (l.write s w).map fun (a, w) => (some a, w)
    | none, w => .ok (none, w)

/-- Something whose presence is known. -/
def whenPresent (present : Bool) (l : Layout σ α) : Layout (Option σ) (Option α) where
  read r := if present then (l.read r).map fun (a, r) => (some a, r) else .ok (none, r)
  write
    | some s, w => (l.write s w).map fun (a, w) => (some a, w)
    | none, w => .ok (none, w)

/-- Reads `count` entries. -/
def readEntries (item : Layout σ α) : Nat → Reader → Except Error (List α × Reader)
  | 0, r => .ok ([], r)
  | count + 1, r => do
    let (a, r) ← item.read r
    let (as, r) ← readEntries item count r
    return (a :: as, r)

/-- Writes entries. -/
def writeEntries (item : Layout σ α) : List σ → Writer → Except Error (List α × Writer)
  | [], w => .ok ([], w)
  | s :: ss, w => do
    let (a, w) ← item.write s w
    let (as, w) ← writeEntries item ss w
    return (a :: as, w)

/-- Entries of `width` bits each: as many as are left, but at least one and at most `limit`. -/
def entries (field expected : String) (width limit : Nat) (item : Layout σ α) :
    Layout (List σ) (List α) where
  read r := readEntries item (min (max (r.remaining / width) 1) limit) r
  write ss w :=
    if 1 ≤ ss.length ∧ ss.length ≤ limit then writeEntries item ss w
    else .error (.unencodable field (.entryCount ss.length expected))

end Layout

end Transponder
