import Transponder.Binary64.Basic
import Transponder.Bits.Basic
import Transponder.Record.Header

/-!
# What a station sends to others

Application data, safety texts and their acknowledgements. Application data is kept as the bits that
were sent, whatever they mean.
-/

namespace Transponder

/-- The authority and the number of an application. -/
structure ApplicationId where
  dac : UInt16
  fid : UInt8
deriving DecidableEq, Inhabited

/-- Data for one station; type 6. -/
structure AddressedBinary where
  header : Header
  sequenceNumber : UInt8
  destination : Mmsi
  retransmit : Bool
  application : ApplicationId
  data : Bits
deriving DecidableEq, Inhabited

/-- The message of a station that is acknowledged. -/
structure Acknowledgement where
  mmsi : Mmsi
  sequenceNumber : UInt8
deriving DecidableEq

/-- Up to four acknowledgements; types 7 and 13. -/
structure Acknowledge where
  header : Header
  acknowledgements : List Acknowledgement
deriving DecidableEq, Inhabited

/-- Data for all; type 8. -/
structure BinaryBroadcast where
  header : Header
  application : ApplicationId
  data : Bits
deriving DecidableEq, Inhabited

/-- A safety text for one station; type 12. -/
structure AddressedSafety where
  header : Header
  sequenceNumber : UInt8
  destination : Mmsi
  retransmit : Bool
  text : String
deriving DecidableEq, Inhabited

/-- A safety text for all; type 14. -/
structure SafetyBroadcast where
  header : Header
  text : String
deriving DecidableEq, Inhabited

/-- Corrections for satellite navigation; type 17. -/
structure DgnssBroadcast where
  header : Header
  longitude : Binary64
  latitude : Binary64
  data : Bits
deriving DecidableEq, Inhabited

/-- Data that fits into one slot; type 25. -/
structure SingleSlotBinary where
  header : Header
  destination : Option Mmsi
  application : Option ApplicationId
  data : Bits
deriving DecidableEq, Inhabited

/-- Data in several slots; type 26. -/
structure MultipleSlotBinary where
  header : Header
  destination : Option Mmsi
  application : Option ApplicationId
  data : Bits
  radioStatus : UInt32
deriving DecidableEq, Inhabited

end Transponder
