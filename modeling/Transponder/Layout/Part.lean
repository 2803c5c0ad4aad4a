import Transponder.Layout.Basic
import Transponder.Record.Vessel

/-!
# Parts of layouts

What several messages have in common.
-/

namespace Transponder.Layout

/-- The repeat indicator and the station, right after the type. -/
def header : Layout Header Header := do
  let repeatIndicator ← (word8 "repeat_indicator" 2).on (·.repeatIndicator)
  let mmsi ← (word32 "mmsi" 30).on (·.mmsi)
  return { repeatIndicator, mmsi }

/-- A field whose codes have names. -/
def coded {α : Type} [Coded α] [DecidableEq α] (field : String) (width : Nat) : Layout α α := do
  return Coded.ofCode (← (uint field width).on Coded.code)

def dimensions : Layout Dimensions Dimensions := do
  let toBow ← (word16 "to_bow" 9).on (·.toBow)
  let toStern ← (word16 "to_stern" 9).on (·.toStern)
  let toPort ← (word8 "to_port" 6).on (·.toPort)
  let toStarboard ← (word8 "to_starboard" 6).on (·.toStarboard)
  return { toBow, toStern, toPort, toStarboard }

end Transponder.Layout
