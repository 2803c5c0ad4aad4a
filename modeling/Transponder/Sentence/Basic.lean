import Transponder.Instant
import Transponder.Sentence.Address
import Transponder.Text.Blank

/-!
# Sentences

A message travels in sentences, lines of text with fields between commas:

    !AIVDM,<count>,<number>,<sequence id>,<channel>,<payload>,<fill bits>*<checksum>

A tag block between backslashes may stand in front. `parse` reads a line and `render` writes one;
the checksum is the exclusive or of the bytes between the start and the star.
-/

namespace Transponder

/-- The fields of a sentence. -/
structure Sentence where
  address : Address := default
  fragmentCount : UInt8 := 1
  fragmentNumber : UInt8 := 1
  /-- What the sentences of one message have in common; may be empty. -/
  sequenceId : String := ""
  channel : Option Char := none
  payload : String
  fillBits : UInt8 := 0
  /-- The checksum as it was sent. -/
  checksum : Option UInt8 := none
  /-- The tag block without its backslashes. -/
  tagBlock : Option String := none
deriving DecidableEq

namespace Sentence

/-- Whether the message is spread over several sentences. -/
def isMultipart (s : Sentence) : Bool :=
  1 < s.fragmentCount

/-- Whether this is the last sentence of its message. -/
def isLast (s : Sentence) : Bool :=
  s.fragmentNumber == s.fragmentCount

/-- The checksum of the text between the start and the star. -/
def checksumOf (body : List Char) : UInt8 :=
  (Text.utf8 body).foldl (· ^^^ ·) 0

/-- The tag block in front of a sentence, and the sentence. -/
def splitTagBlock : List Char → Except Error (Option String × List Char)
  | '\\' :: rest =>
    match Text.breakAt? '\\' rest with
    | some (tag, sentence) => .ok (some (String.ofList tag), sentence)
    | none => .error (.malformed .unterminatedTagBlock)
  | cs => .ok (none, cs)

/-- The checksum that two hexadecimal digits write. -/
def readChecksum (field : List Char) : Except Error UInt8 :=
  let digits := Text.trim field
  match if Text.byteLength digits = 2 then Text.natural? 16 255 digits else none with
  | some n => .ok (UInt8.ofNat n)
  | none => .error (.malformed (.badChecksumField (String.ofList digits)))

/-- The text between the start and the star, and the checksum behind it. -/
def splitChecksum (sentence : List Char) : Except Error (List Char × Option UInt8) :=
  match sentence with
  | [] => .error (.malformed .missingStart)
  | start :: inner =>
    if start = '!' || start = '$' then
      match Text.breakAt? '*' inner with
      | some (body, field) => do return (body, some (← readChecksum field))
      | none => .ok (inner, none)
    else .error (.malformed .missingStart)

/-- A field that holds a number, or `missing` if it is empty or not there. -/
def numericField (fields : List (List Char)) (index : Nat) (field : NumericField)
    (missing : UInt8) : Except Error UInt8 :=
  match fields.getD index [] with
  | [] => .ok missing
  | text =>
    match Text.natural? 10 255 text with
    | some n => .ok (UInt8.ofNat n)
    | none => .error (.malformed (.notANumber field (String.ofList text)))

/-- Refuses a body whose checksum is missing or does not agree. -/
def checkChecksum (body : List Char) (carried : Option UInt8) : Except Error Unit :=
  match carried with
  | none => .error (.malformed .missingChecksum)
  | some sum =>
    if checksumOf body = sum then .ok () else .error (.checksumMismatch sum (checksumOf body))

/-- A fault of a value is a fault of the sentence. -/
def valueOf {α : Type} : Except ValueError α → Except Error α :=
  Except.mapError fun e => .malformed (.value e)

/-- The largest count of fill bits. -/
def maxFillBits : UInt8 :=
  5

/-- The fields of a body. -/
def ofBody (tagBlock : Option String) (checksum : Option UInt8) (body : List Char) :
    Except Error Sentence := do
  let fields := Text.splitAt ',' body
  let address ← valueOf (Address.parse (String.ofList (fields.getD 0 [])))
  let fragmentCount ← numericField fields 1 .fragmentCount 1
  let fragmentNumber ← numericField fields 2 .fragmentNumber 1
  if fragmentCount = 0 ∨ fragmentNumber = 0 ∨ fragmentCount < fragmentNumber then
    .error (.malformed (.fragmentOutOfRange fragmentNumber.toNat fragmentCount.toNat))
  let sequenceId := String.ofList (fields.getD 3 [])
  let channel ← valueOf (parseChannel (fields.getD 4 []))
  match fields[5]? with
  | none => .error (.malformed .missingPayload)
  | some payload =>
    let payload := String.ofList payload
    let fillBits ← numericField fields 6 .fillBits 0
    if maxFillBits < fillBits then .error (.malformed (.excessFillBits fillBits.toNat))
    return {
      address, fragmentCount, fragmentNumber, sequenceId, channel, payload, fillBits, checksum,
      tagBlock }

/-- The fields of a line. With `validate` the checksum must be there and agree; without it, any
checksum will do. -/
def parse (line : String) (validate : Bool) : Except Error Sentence := do
  let (tagBlock, sentence) ← splitTagBlock (Text.trim line.toList)
  let (body, checksum) ← splitChecksum sentence
  if validate then checkChecksum body checksum
  ofBody tagBlock checksum body

/-- Whether a line carries a checksum that agrees. -/
def isValid (line : String) : Bool :=
  let body := do
    let (_, sentence) ← splitTagBlock (Text.trim line.toList)
    splitChecksum sentence
  match body with
  | .ok (body, some sum) => checksumOf body == sum
  | _ => false

/-- The text between the start and the star. -/
def body (s : Sentence) : List Char :=
  List.intercalate [','] [
    s.address.text.toList, Nat.toDigits 10 s.fragmentCount.toNat,
    Nat.toDigits 10 s.fragmentNumber.toNat, s.sequenceId.toList, s.channel.toList,
    s.payload.toList, Nat.toDigits 10 s.fillBits.toNat]

/-- The line of a sentence, with its checksum and line end. -/
def render (s : Sentence) : String :=
  let tag := match s.tagBlock with
    | some tag => '\\' :: tag.toList ++ ['\\']
    | none => []
  String.ofList (tag ++ '!' :: s.body ++ '*' :: Text.hexByte true (checksumOf s.body) ++
    ['\r', '\n'])

/-- Counts of time above this one are milliseconds, the others seconds. -/
def maxSeconds : Int :=
  100000000000

/-- The time of receipt that a tag block states. -/
def tagBlockTime? (tagBlock : String) : Option Instant := do
  let parameters := Text.splitAt ',' (tagBlock.toList.takeWhile (· != '*'))
  let text ← parameters.findSome? fun
    | 'c' :: ':' :: text => some text
    | _ => none
  let n ← Text.integer? 64 text
  if maxSeconds < n then Instant.ofMilliseconds? n else Instant.ofSeconds? n

/-- The time of receipt that the tag block of a sentence states. -/
def receivedAt (s : Sentence) : Option Instant :=
  s.tagBlock.bind tagBlockTime?

end Sentence

end Transponder
