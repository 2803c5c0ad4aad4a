import Transponder.Json.Value

/-!
# Records as JSON

A `Schema α` says how an `α` is written as a JSON value, and which values are read as one. `Fields`
lists the fields of a record once for both directions. A record is an object with the fields in any
order, or an array with them in the order of the list. Unknown names are passed over; a name that
occurs twice is refused, and so is a missing field, unless its schema has a value for it.

A value of several kinds carries a tag: inside its own object (`tagged?`) or beside its content
(`labelled?`). What stands in front of a tag, and all that shares an object with it, is kept until
the tag says what it is, and a kept value is read a little more widely (`Reading`).
-/

namespace Transponder

/-- How a value is met: where it stands in the text, or kept until its tag was known. In a kept value
a tag may also be a number, and an empty object counts as nothing under a label. -/
inductive Reading where
  | direct
  | kept
deriving DecidableEq

/-- How an `α` is written as a JSON value, and read. -/
structure Schema (α : Type) where
  readAs : Reading → Json → Option α
  write : α → Json
  /-- The value of a field that is missing. -/
  absent : Option α := none

/-- Reads a value where it stands. -/
def Schema.read {α : Type} (schema : Schema α) : Json → Option α :=
  schema.readAs .direct

/-- Some fields of a `σ`, which make an `α`. -/
structure Fields (σ α : Type) where
  ofEntries : Reading → List (String × Json) → Option α
  /-- Reads the fields from the front of a list. -/
  ofItems : Reading → List Json → Option (α × List Json)
  entries : σ → List (String × Json)

namespace Fields

variable {σ τ α β : Type}

/-- No fields. -/
def nothing (a : α) : Fields σ α where
  ofEntries _ _ := some a
  ofItems _ js := some (a, js)
  entries _ := []

def mapped (f : α → β) (fs : Fields σ α) : Fields σ β where
  ofEntries r es := (fs.ofEntries r es).map f
  ofItems r js := (fs.ofItems r js).map fun (a, js) => (f a, js)
  entries := fs.entries

/-- Fields one after the other. -/
def followedBy (fs : Fields σ (α → β)) (gs : Fields σ α) : Fields σ β where
  ofEntries r es := do
    let f ← fs.ofEntries r es
    let a ← gs.ofEntries r es
    return f a
  ofItems r js := do
    let (f, js) ← fs.ofItems r js
    let (a, js) ← gs.ofItems r js
    return (f a, js)
  entries s := fs.entries s ++ gs.entries s

instance : Applicative (Fields σ) where
  map := mapped
  pure := nothing
  seq fs gs := fs.followedBy (gs ())

end Fields

/-- A field with a name. -/
def field {σ α : Type} (name : String) (schema : Schema α) (get : σ → α) : Fields σ α where
  ofEntries r es :=
    match Json.named es name with
    | [] => schema.absent
    | [j] => schema.readAs r j
    | _ => none
  ofItems
    | _, [] => none
    | r, j :: js => (schema.readAs r j).map (·, js)
  entries s := [(name, schema.write (get s))]

/-- A field that may be left out, also at the end of an array. -/
def fieldOr {σ α : Type} (default : α) (name : String) (schema : Schema α) (get : σ → α) :
    Fields σ α where
  ofEntries r es :=
    match Json.named es name with
    | [] => some default
    | [j] => schema.readAs r j
    | _ => none
  ofItems
    | _, [] => some (default, [])
    | r, j :: js => (schema.readAs r j).map (·, js)
  entries s := [(name, schema.write (get s))]

namespace Schema

/-- A record of some fields. -/
def record {α : Type} (fs : Fields α α) : Schema α where
  readAs
    | r, .object es => fs.ofEntries r es
    | r, .array js =>
      match fs.ofItems r js with
      | some (a, []) => some a
      | _ => none
    | _, _ => none
  write a := .object (fs.entries a)

/-- A record of some fields that is never an array. -/
def object {α : Type} (fs : Fields α α) : Schema α where
  readAs
    | r, .object es => fs.ofEntries r es
    | _, _ => none
  write a := .object (fs.entries a)

def bool : Schema Bool where
  readAs
    | _, .bool b => some b
    | _, _ => none
  write := .bool

def string : Schema String where
  readAs
    | _, .string s => some s
    | _, _ => none
  write := .string

/-- A string of one character. -/
def char : Schema Char where
  readAs
    | _, .string s =>
      match s.toList with
      | [c] => some c
      | _ => none
    | _, _ => none
  write c := .string (String.singleton c)

/-- An integer from zero to `limit`. -/
def natural (limit : Nat) : Schema Nat where
  readAs
    | _, .integer i => if 0 ≤ i ∧ i ≤ limit then some i.toNat else none
    | _, _ => none
  write n := .integer n

def word8 : Schema UInt8 where
  readAs r j := ((natural 255).readAs r j).map UInt8.ofNat
  write n := .integer n.toNat

def word16 : Schema UInt16 where
  readAs r j := ((natural 65535).readAs r j).map UInt16.ofNat
  write n := .integer n.toNat

def word32 : Schema UInt32 where
  readAs r j := ((natural 4294967295).readAs r j).map UInt32.ofNat
  write n := .integer n.toNat

/-- A natural number of 64 bits. -/
def natural64 : Schema Nat :=
  natural (UInt64.size - 1)

/-- A binary64 number, written with or without a fraction. -/
def real : Schema Binary64 where
  readAs
    | _, .real x => some x
    | _, .integer i => some (.ofInt i)
    | _, _ => none
  write x := if x.isFinite then .real x else .null

/-- A value that may be missing. -/
def optional {α : Type} (schema : Schema α) : Schema (Option α) where
  readAs
    | _, .null => some none
    | r, j => (schema.readAs r j).map some
  write
    | none => .null
    | some a => schema.write a
  absent := some none

def list {α : Type} (schema : Schema α) : Schema (List α) where
  readAs
    | r, .array js => js.mapM (schema.readAs r)
    | _, _ => none
  write as := .array (as.map schema.write)

end Schema

namespace Json

/-- A label: a string, or an object that has nothing under it. -/
def label? : Reading → Json → Option String
  | _, string s => some s
  | _, object [(s, null)] => some s
  | .kept, object [(s, object [])] => some s
  | _, _ => none

/-- A tag out of several: a string, or a number that counts them from zero. -/
def tag? (tags : List String) : Reading → Json → Option String
  | _, string s => some s
  | .kept, integer (.ofNat n) => tags[n]?
  | _, _ => none

/-- The tag inside a value, and the value without it. The rest must be representable: it is kept
until the tag says what it is. -/
def tagged? (tag : String) (tags : List String) (r : Reading) : Json → Option (String × Json)
  | object es => do
    let [j] := named es tag | none
    let rest := es.filter (·.1 != tag)
    if entriesRepresentable rest then return (← j.tag? tags r, object rest) else none
  | array (j :: js) => do
    if areRepresentable js then return (← j.tag? tags r, array js) else none
  | _ => none

/-- Whether a name occurs before another one. -/
def isBefore (first second : String) (es : List (String × Json)) : Bool :=
  (es.takeWhile (·.1 != second)).any (·.1 == first)

/-- The label, and the content that stands beside it with the way to read it. A content in front of
the label must be representable: it is kept until the label says what it is. In an array the label
is written like a tag. -/
def labelled? (label content : String) (tags : List String) (r : Reading) :
    Json → Option (String × Reading × Json)
  | object es => do
    let [l] := named es label | none
    let [j] := named es content | none
    if isBefore content label es then
      if j.isRepresentable then return (← l.label? r, .kept, j) else none
    else
      return (← l.label? r, r, j)
  | array [l, j] => do return (← l.tag? tags r, r, j)
  | _ => none

end Json

end Transponder
