import Transponder.Instant
import Transponder.Report.Fields

/-!
# Lines of reports

The report on a message is one line: its type, its header and the time of receipt, and then the
fields of its type. As comma-separated values it goes under a line with the names of the fields, of
which there is one for each type.
-/

namespace Transponder

/-- The line with the names of the fields of a type. -/
def Report.header (messageType : UInt8) : String :=
  String.intercalate "," (["type", "repeatIndicator", "mmsi", "timestamp"] ++
    (template messageType).fields.map fun (name, _) => name)

namespace Message

/-- The report as a JSON value. -/
def reportJson (m : Message) (time : Moment) : Json :=
  .object ([
      ("type", .integer m.messageType.toNat),
      ("repeatIndicator", .integer m.header.repeatIndicator.toNat),
      ("mmsi", .integer m.header.mmsi.toNat),
      ("timestamp", .string time.render)] ++
    m.fields.map fun (name, cell) => (name, cell.json))

/-- The report as a line of JSON. -/
def jsonLine (m : Message) (time : Moment) : String :=
  (m.reportJson time).render

/-- The report as a line of comma-separated values. -/
def csvLine (m : Message) (time : Moment) : String :=
  String.intercalate "," ([
      toString m.messageType.toNat,
      toString m.header.repeatIndicator.toNat,
      toString m.header.mmsi.toNat,
      time.render] ++
    m.fields.map fun (_, cell) => cell.csv)

end Message

end Transponder
