import Transponder.Json.Number

/-!
# Reading JSON

`parse?` reads a text that holds exactly one value, with blanks around it.
-/

namespace Transponder.Json

/-- The characters that may stand between the parts of a text. -/
def isGap (c : Char) : Bool :=
  c = ' ' || c = '\t' || c = '\n' || c = '\r'

def skipGap (cs : List Char) : List Char :=
  cs.dropWhile isGap

/-- A piece of a string: a character, or a unit of UTF-16 that was written as a number. -/
inductive Piece where
  | char (c : Char)
  | unit (n : Nat)

/-- The character that a letter after a backslash stands for. -/
def unescape? : Char → Option Char
  | '"' => some '"'
  | '\\' => some '\\'
  | '/' => some '/'
  | 'b' => some '\x08'
  | 'f' => some '\x0c'
  | 'n' => some '\n'
  | 'r' => some '\r'
  | 't' => some '\t'
  | _ => none

/-- The pieces of a string up to its closing quote. -/
def pieces? : List Char → Option (List Piece × List Char)
  | [] => none
  | '"' :: rest => some ([], rest)
  | '\\' :: 'u' :: a :: b :: c :: d :: rest => do
    let n ← Text.digitsValue? 16 [a, b, c, d]
    let (ps, rest) ← pieces? rest
    return (.unit n :: ps, rest)
  | '\\' :: c :: rest => do
    let u ← unescape? c
    let (ps, rest) ← pieces? rest
    return (.char u :: ps, rest)
  | c :: rest =>
    if c = '\\' || c.toNat < 32 then none
    else do
      let (ps, rest) ← pieces? rest
      return (.char c :: ps, rest)

/-- Whether a unit is the first half of a surrogate pair. -/
def isLeading (n : Nat) : Bool :=
  0xD800 ≤ n && n < 0xDC00

/-- Whether a unit is the second half of a surrogate pair. -/
def isTrailing (n : Nat) : Bool :=
  0xDC00 ≤ n && n < 0xE000

/-- The text that pieces make, if the halves of all surrogate pairs are together. -/
def assemble? : List Piece → Option (List Char)
  | [] => some []
  | .char c :: ps => (assemble? ps).map (c :: ·)
  | .unit n :: .unit m :: ps =>
    if isLeading n then
      if isTrailing m then
        (assemble? ps).map (Char.ofNat (0x10000 + (n - 0xD800) * 0x400 + (m - 0xDC00)) :: ·)
      else none
    else if isTrailing n then none
    else (assemble? (.unit m :: ps)).map (Char.ofNat n :: ·)
  | .unit n :: ps =>
    if isLeading n || isTrailing n then none
    else (assemble? ps).map (Char.ofNat n :: ·)

/-- A string after its opening quote; its text is missing if half a surrogate pair stands alone. -/
def string? (cs : List Char) : Option (Option String × List Char) := do
  let (ps, rest) ← pieces? cs
  return ((assemble? ps).map String.ofList, rest)

/-- The text after a word that must come next. -/
def after? : List Char → List Char → Option (List Char)
  | [], cs => some cs
  | w :: ws, c :: cs => if w = c then after? ws cs else none
  | _ :: _, [] => none

/-- An object is out of range as a whole if one of its names is. -/
def ofEntries (entries : List (Option String × Json)) : Json :=
  match entries.mapM fun (key, j) => key.map (·, j) with
  | some entries => object entries
  | none => unrepresentable

/-- The arrays and objects that may be inside each other. -/
def maxLevels : Nat :=
  127

/-- An array or object is out of range if no more levels are left for it. -/
def bounded (levels : Nat) (j : Json) : Json :=
  if levels = 0 then unrepresentable else j

mutual

/-- A value; the first argument bounds the depth of the calls, the second is the number of levels
that are left. -/
def value? : Nat → Nat → List Char → Option (Json × List Char)
  | 0, _, _ => none
  | fuel + 1, levels, cs =>
    match skipGap cs with
    | 'n' :: rest => (after? "ull".toList rest).map (null, ·)
    | 't' :: rest => (after? "rue".toList rest).map (bool true, ·)
    | 'f' :: rest => (after? "alse".toList rest).map (bool false, ·)
    | '"' :: rest => do
      let (s, rest) ← string? rest
      return (s.elim unrepresentable string, rest)
    | '[' :: rest =>
      match skipGap rest with
      | ']' :: rest => some (bounded levels (array []), rest)
      | rest => do
        let (items, rest) ← items? fuel (levels - 1) rest
        return (bounded levels (array items), rest)
    | '\x7b' :: rest =>
      match skipGap rest with
      | '\x7d' :: rest => some (bounded levels (object []), rest)
      | rest => do
        let (entries, rest) ← entries? fuel (levels - 1) rest
        return (bounded levels (ofEntries entries), rest)
    | rest => (numeral? rest).map fun (x, rest) => (x.value, rest)

/-- One or more items up to the closing bracket. -/
def items? : Nat → Nat → List Char → Option (List Json × List Char)
  | 0, _, _ => none
  | fuel + 1, levels, cs => do
    let (j, rest) ← value? fuel levels cs
    match skipGap rest with
    | ',' :: rest =>
      let (js, rest) ← items? fuel levels rest
      return (j :: js, rest)
    | ']' :: rest => return ([j], rest)
    | _ => none

/-- One or more entries up to the closing brace. -/
def entries? : Nat → Nat → List Char → Option (List (Option String × Json) × List Char)
  | 0, _, _ => none
  | fuel + 1, levels, cs =>
    match skipGap cs with
    | '"' :: rest => do
      let (key, rest) ← string? rest
      match skipGap rest with
      | ':' :: rest =>
        let (j, rest) ← value? fuel levels rest
        match skipGap rest with
        | ',' :: rest =>
          let (more, rest) ← entries? fuel levels rest
          return ((key, j) :: more, rest)
        | '\x7d' :: rest => return ([(key, j)], rest)
        | _ => none
      | _ => none
    | _ => none

end

/-- The value of a text that holds nothing else. Every second call takes a character, so the bound
is never reached. -/
def parse? (text : String) : Option Json :=
  let cs := text.toList
  match value? (2 * cs.length + 2) maxLevels cs with
  | some (j, rest) => if (skipGap rest).isEmpty then some j else none
  | none => none

end Transponder.Json
