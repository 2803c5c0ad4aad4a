/-!
# ASCII text

Character classes and case of ASCII, the bytes of a text, and the numerals that fields, settings and
options hold. Characters beyond ASCII are left alone: none is a digit, a letter or printable here.
-/

namespace Transponder.Text

-- Powers are those of `Nat` and `Int` themselves.
attribute [local instance (high)] instPowNat

/-- Whether a character is printable ASCII other than the space. -/
def isGraphic (c : Char) : Bool :=
  '!' ≤ c && c ≤ '~'

/-- Whether a character belongs to ASCII. -/
def isAscii (c : Char) : Bool :=
  c.toNat < 128

/-- A string with its ASCII letters in upper case. -/
def upper (s : String) : String :=
  String.ofList (s.toList.map Char.toUpper)

/-- A string with its ASCII letters in lower case. -/
def lower (s : String) : String :=
  String.ofList (s.toList.map Char.toLower)

/-- The UTF-8 bytes of a text. -/
def utf8 (cs : List Char) : List UInt8 :=
  cs.flatMap String.utf8EncodeChar

/-- The length of a text in UTF-8. -/
def byteLength (cs : List Char) : Nat :=
  (utf8 cs).length

/-- The text without the run of `c` at its end. -/
def dropTrailing (c : Char) (cs : List Char) : List Char :=
  (cs.reverse.dropWhile (· == c)).reverse

/-- The value of a digit in a base of at most sixteen. -/
def digitValue? (base : Nat) (c : Char) : Option Nat :=
  let v := if '0' ≤ c && c ≤ '9' then some (c.toNat - '0'.toNat)
    else if 'a' ≤ c && c ≤ 'f' then some (c.toNat - 'a'.toNat + 10)
    else if 'A' ≤ c && c ≤ 'F' then some (c.toNat - 'A'.toNat + 10)
    else none
  v.filter (· < base)

/-- The value of a non-empty run of digits. -/
def digitsValue? (base : Nat) : List Char → Option Nat
  | [] => none
  | cs => cs.foldlM (fun n c => (digitValue? base c).map (n * base + ·)) 0

/-- The text without a plus sign in front. -/
def dropPlus : List Char → List Char
  | '+' :: cs => cs
  | cs => cs

/-- A natural number of at most `limit`: digits, with or without a plus sign. -/
def natural? (base limit : Nat) (cs : List Char) : Option Nat :=
  (digitsValue? base (dropPlus cs)).filter (· ≤ limit)

/-- An integer of `bits` bits: digits, with or without a sign. -/
def integer? (bits : Nat) (cs : List Char) : Option Int :=
  match cs with
  | '-' :: ds => ((digitsValue? 10 ds).filter (· ≤ 2 ^ (bits - 1))).map fun n => -(n : Int)
  | _ => (natural? 10 (2 ^ (bits - 1) - 1) cs).map fun n => (n : Int)

/-- The digits of a number below sixteen. -/
def hexDigit (upperCase : Bool) (n : Nat) : Char :=
  if n < 10 then Char.ofNat ('0'.toNat + n)
  else Char.ofNat ((if upperCase then 'A'.toNat else 'a'.toNat) + (n - 10))

/-- The two hexadecimal digits of a byte. -/
def hexByte (upperCase : Bool) (b : UInt8) : List Char :=
  [hexDigit upperCase (b.toNat / 16), hexDigit upperCase (b.toNat % 16)]

/-- The pieces of a text between the occurrences of a separator. -/
def splitAt (separator : Char) : List Char → List (List Char)
  | [] => [[]]
  | c :: cs =>
    if c = separator then [] :: splitAt separator cs
    else
      match splitAt separator cs with
      | [] => [[c]]
      | piece :: pieces => (c :: piece) :: pieces

/-- The text in front of the first occurrence of a character and the text behind it, if any. -/
def breakAt? (c : Char) : List Char → Option (List Char × List Char)
  | [] => none
  | d :: ds =>
    if d = c then some ([], ds)
    else (breakAt? c ds).map fun (front, back) => (d :: front, back)

end Transponder.Text
