import Transponder.Main
import Transponder.Proofs.Bits.Cursor
import Transponder.Proofs.Bits.Edits
import Transponder.Proofs.Bits.Fields
import Transponder.Proofs.Command.Padding
import Transponder.Proofs.Command.Reporting
import Transponder.Proofs.Json.Numbers
import Transponder.Proofs.Json.Reading
import Transponder.Proofs.Layout.Resent
import Transponder.Proofs.Layout.Taken
import Transponder.Proofs.Layout.Takes
import Transponder.Proofs.Layout.Writes
import Transponder.Proofs.Message.Encoding
import Transponder.Proofs.Message.FullName
import Transponder.Proofs.Message.Payload
import Transponder.Proofs.Message.Resending
import Transponder.Proofs.Message.RoundTrip
import Transponder.Proofs.Message.Texts
import Transponder.Proofs.Quantity.Coordinate
import Transponder.Proofs.Quantity.Course
import Transponder.Proofs.Report.Alignment
import Transponder.Proofs.Report.Csv
import Transponder.Proofs.Report.Places
import Transponder.Proofs.Schema.Interchange
import Transponder.Proofs.Schema.Payload
import Transponder.Proofs.Sentence.Checksum
import Transponder.Proofs.Sentence.Framing
import Transponder.Proofs.Sentence.History
import Transponder.Proofs.Sentence.Unfinished
import Transponder.Proofs.Settings.Environment
import Transponder.Proofs.Station.Accounting
import Transponder.Proofs.Station.Calls
import Transponder.Proofs.Station.Corruption
import Transponder.Proofs.Station.Delivery
import Transponder.Proofs.Station.Feed
import Transponder.Proofs.Station.Joining
import Transponder.Proofs.Station.Splitting
import Transponder.Proofs.Station.Turns
import Transponder.Proofs.Text.Lines
