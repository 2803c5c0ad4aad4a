import Transponder.Binary64.Arithmetic
import Transponder.Bits.Bytes
import Transponder.Decimal.Style
import Transponder.Json.Printer

/-!
# Cells of reports

A report is a flat list of named values. A `Cell` is such a value; it has a form in JSON and one in
lines of comma-separated values. Coordinates have six places and other quantities one; a value that a
message does not have is `null` or nothing.
-/

namespace Transponder

-- Powers are those of `Nat` and `Int` themselves.
attribute [local instance (high)] instPowNat

/-- A value in a report. -/
inductive Cell where
  | natural (n : Nat)
  | flag (b : Bool)
  | coordinate (x : Binary64)
  | decimal (x : Binary64)
  | text (s : String)
  | label (s : String)
  | binary (s : String)
  | empty
deriving DecidableEq

namespace Cell

/-- The places of a coordinate. -/
def coordinatePlaces : Nat :=
  6

/-- The places of any other quantity. -/
def decimalPlaces : Nat :=
  1

/-- A number that has been rounded to some places by scaling it up and down again. -/
def rounded (places : Nat) (x : Binary64) : Binary64 :=
  let scale := Binary64.ofNat (10 ^ places)
  (x * scale).round / scale

/-- The form in JSON. -/
def json : Cell → Json
  | natural n => .integer n
  | flag b => .bool b
  | coordinate x => .real (rounded coordinatePlaces x)
  | decimal x => .real (rounded decimalPlaces x)
  | text s | label s | binary s => .string s
  | empty => .null

/-- A text between quotes, with the quotes in it doubled. -/
def quotedText (s : String) : String :=
  String.ofList ('"' :: s.toList.flatMap (fun c => if c = '"' then ['"', '"'] else [c]) ++ ['"'])

/-- The form among comma-separated values. -/
def csv : Cell → String
  | natural n => toString n
  | flag b => if b then "true" else "false"
  | coordinate x => x.fixed coordinatePlaces
  | decimal x => x.fixed decimalPlaces
  | text s => quotedText s
  | label s | binary s => s
  | empty => ""

end Cell

end Transponder
