import Transponder.Decimal.Style
import Transponder.Json.Value

/-!
# JSON text

The text of a value: no blanks, the entries of an object in their order, strings with as few escapes
as JSON allows, and numbers with the fewest digits that read back. A number that is not finite has no
JSON text and becomes `null`.
-/

namespace Transponder.Json

/-- One character inside a string. -/
def escapeChar (c : Char) : List Char :=
  if c = '"' then ['\\', '"']
  else if c = '\\' then ['\\', '\\']
  else if c = '\x08' then ['\\', 'b']
  else if c = '\t' then ['\\', 't']
  else if c = '\n' then ['\\', 'n']
  else if c = '\x0c' then ['\\', 'f']
  else if c = '\r' then ['\\', 'r']
  else if c.toNat < 32 then '\\' :: 'u' :: '0' :: '0' :: Text.hexByte false (UInt8.ofNat c.toNat)
  else [c]

/-- A string with its quotes. -/
def stringChars (s : String) : List Char :=
  '"' :: s.toList.flatMap escapeChar ++ ['"']

/-- The text of a number. -/
def realChars (x : Binary64) : List Char :=
  if x.isFinite then (x.render .interchange).toList else "null".toList

mutual

/-- The text of a value. -/
def chars : Json → List Char
  | null => "null".toList
  | bool b => (if b then "true" else "false").toList
  | integer i => (toString i).toList
  | real x => realChars x
  | string s => stringChars s
  | array items => '[' :: itemChars true items ++ [']']
  | object entries => '\x7b' :: entryChars true entries ++ ['\x7d']
  | unrepresentable => "null".toList

/-- Items, with a comma before each but the first. -/
def itemChars (first : Bool) : List Json → List Char
  | [] => []
  | j :: js => (if first then [] else [',']) ++ j.chars ++ itemChars false js

/-- Entries, with a comma before each but the first. -/
def entryChars (first : Bool) : List (String × Json) → List Char
  | [] => []
  | (key, j) :: rest =>
    (if first then [] else [',']) ++ stringChars key ++ ':' :: j.chars ++ entryChars false rest

end

/-- The text of a value as a string. -/
def render (j : Json) : String :=
  String.ofList j.chars

end Transponder.Json
