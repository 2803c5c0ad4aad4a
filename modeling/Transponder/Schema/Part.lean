import Transponder.Bits.Bytes
import Transponder.Record.Vessel
import Transponder.Schema.Basic

/-!
# Parts of records as JSON
-/

namespace Transponder.Schema

/-- A field whose codes have names, by its name. -/
def coded {α : Type} [Coded α] : Schema α where
  readAs r j := (j.label? r).bind Coded.ofLabel?
  write a := .string (Coded.label a)

/-- Opaque bits: how many there are, and their bytes in base64. -/
def bits : Schema Bits where
  readAs r j := do
    let (length, data) ← (record (Prod.mk <$> field "bits" natural64 Prod.fst
      <*> field "data" string Prod.snd)).readAs r j
    let bytes ← Base64.decode? data.toList
    (Bits.ofBytes bytes length).toOption
  write b := .object [("bits", .integer b.length), ("data", .string b.base64)]

def header : Schema Header :=
  record (Header.mk
    <$> field "repeat_indicator" word8 (·.repeatIndicator)
    <*> field "mmsi" word32 (·.mmsi))

def dimensions : Schema Dimensions :=
  record (Dimensions.mk
    <$> field "to_bow" word16 (·.toBow)
    <*> field "to_stern" word16 (·.toStern)
    <*> field "to_port" word8 (·.toPort)
    <*> field "to_starboard" word8 (·.toStarboard))

end Transponder.Schema
