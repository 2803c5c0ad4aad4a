/-!
# Lines

Bytes cut into lines. A line ends with a line feed, which may have a carriage return in front; the
last line need not end.
-/

namespace Transponder.Text

/-- The line feed. -/
def lineFeed : UInt8 :=
  10

/-- The carriage return. -/
def carriageReturn : UInt8 :=
  13

/-- The lines that end, without their line feeds, and the bytes behind the last of them. -/
def splitLines : List UInt8 → List (List UInt8) × List UInt8
  | [] => ([], [])
  | b :: bs =>
    let (ended, rest) := splitLines bs
    if b = lineFeed then ([] :: ended, rest)
    else
      match ended with
      | [] => ([], b :: rest)
      | line :: ended => ((b :: line) :: ended, rest)

/-- A line without the carriage return at its end. -/
def dropReturn (line : List UInt8) : List UInt8 :=
  if line.getLast? = some carriageReturn then line.dropLast else line

/-- The lines of some bytes. -/
def lines (bytes : List UInt8) : List (List UInt8) :=
  let (ended, rest) := splitLines bytes
  ended.map dropReturn ++ if rest.isEmpty then [] else [rest]

/-- The text of some bytes in UTF-8. -/
def ofUtf8? (bytes : List UInt8) : Option String :=
  String.fromUTF8? ⟨bytes.toArray⟩

end Transponder.Text
