import Transponder.Text.Printable

/-!
# Quoted text in messages

How messages for people show a text or a character they complain about: between quotes, with a
backslash before the backslash and the quote, short names for the usual control characters, and the
hexadecimal number of any other character that is not printable.
-/

namespace Transponder.Text

/-- One character between the given quotes. -/
def escape (quote c : Char) : List Char :=
  if c = quote || c = '\\' then ['\\', c]
  else if c = '\x00' then ['\\', '0']
  else if c = '\t' then ['\\', 't']
  else if c = '\r' then ['\\', 'r']
  else if c = '\n' then ['\\', 'n']
  else if isPrintable c then [c]
  else "\\u\x7b".toList ++ Nat.toDigits 16 c.toNat ++ "\x7d".toList

/-- A text between double quotes. -/
def quoted (s : String) : String :=
  "\"" ++ String.ofList (s.toList.flatMap (escape '"')) ++ "\""

/-- A character between single quotes. -/
def quotedChar (c : Char) : String :=
  "'" ++ String.ofList (escape '\'' c) ++ "'"

example : quoted "a\"b\n" = "\"a\\\"b\\n\"" ∧ quotedChar '\'' = "'\\''" := by
  decide +kernel

end Transponder.Text
