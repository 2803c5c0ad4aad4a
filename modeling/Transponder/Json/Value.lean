import Transponder.Binary64.Basic

/-!
# JSON values

Values as trees. An object is a list of entries in the order of the text, so that a repeated name can
be seen. Numbers without fraction and exponent are integers. `unrepresentable` stands for a value
that is well-formed as text but out of range as a value: a number too large, a string with half a
surrogate pair, or arrays and objects too deep inside each other. It does no harm where nobody looks.
-/

namespace Transponder

/-- A JSON value. -/
inductive Json where
  | null
  | bool (b : Bool)
  | integer (i : Int)
  | real (x : Binary64)
  | string (s : String)
  | array (items : List Json)
  | object (entries : List (String × Json))
  | unrepresentable

namespace Json

mutual

/-- Whether a value can be looked at as a whole. -/
def isRepresentable : Json → Bool
  | unrepresentable => false
  | array items => areRepresentable items
  | object entries => entriesRepresentable entries
  | _ => true

def areRepresentable : List Json → Bool
  | [] => true
  | j :: js => j.isRepresentable && areRepresentable js

def entriesRepresentable : List (String × Json) → Bool
  | [] => true
  | (_, j) :: rest => j.isRepresentable && entriesRepresentable rest

end

/-- The values under a name, in the order of the text. -/
def named (entries : List (String × Json)) (name : String) : List Json :=
  entries.filterMap fun (key, j) => if key = name then some j else none

/-- The value under a name that occurs once. -/
def field? (name : String) : Json → Option Json
  | object entries =>
    match named entries name with
    | [j] => some j
    | _ => none
  | _ => none

end Json

end Transponder
