import Transponder.Error
import Transponder.Text.Ascii

/-!
# Who speaks, and on which channel

The address of a sentence is the id of the talker, two characters, and the formatter, which says
whether the message is about another vessel or about the own one.
-/

namespace Transponder

/-- Whose message a sentence carries. -/
inductive Formatter where
  | vdm
  | vdo
deriving DecidableEq

def Formatter.text : Formatter → String
  | vdm => "VDM"
  | vdo => "VDO"

/-- The formatter with a text. -/
def Formatter.ofText? (s : String) : Option Formatter :=
  [vdm, vdo].find? fun f => f.text == s

/-- The address of a sentence. -/
structure Address where
  talker : String
  formatter : Formatter
deriving DecidableEq

namespace Address

/-- The talker of a sentence that names none. -/
def defaultTalker : String :=
  "AI"

/-- The address with the first two characters of a text as the talker, in upper case; the default
talker if they do not take two bytes. -/
def ofTalker (text : String) (formatter : Formatter) : Address :=
  let talker := text.toList.take 2
  if Text.byteLength talker = 2 then ⟨Text.upper (String.ofList talker), formatter⟩
  else ⟨defaultTalker, formatter⟩

/-- Whether the sentence is about the own vessel. -/
def isOwnVessel (a : Address) : Bool :=
  a.formatter == .vdo

def text (a : Address) : String :=
  a.talker ++ a.formatter.text

/-- The address with a text of five ASCII characters. -/
def parse (s : String) : Except ValueError Address :=
  let cs := s.toList
  if Text.byteLength cs ≠ 5 || !cs.all Text.isAscii then .error (.address s .shape)
  else
    match Formatter.ofText? (String.ofList (cs.drop 2)) with
    | some formatter => .ok (ofTalker (String.ofList (cs.take 2)) formatter)
    | none => .error (.address s .formatter)

instance : Inhabited Address :=
  ⟨⟨defaultTalker, .vdm⟩⟩

end Address

/-- The radio channel that a field names: one printable ASCII character, or nothing. -/
def parseChannel (cs : List Char) : Except ValueError (Option Char) :=
  match cs with
  | [] => .ok none
  | [c] => if Text.isGraphic c then .ok (some c) else .error (.channel (String.ofList cs))
  | _ => .error (.channel (String.ofList cs))

end Transponder
