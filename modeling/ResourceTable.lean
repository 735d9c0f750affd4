import ResourceTable.Object.DocumentList
import ResourceTable.Object.ObjectList
import ResourceTable.Object.Typed
import ResourceTable.Proofs.Json.Distinct
import ResourceTable.Proofs.Object.CreatedCell
import ResourceTable.Proofs.Object.Decoded
import ResourceTable.Proofs.Object.DocumentHistory
import ResourceTable.Proofs.Object.DocumentTable
import ResourceTable.Proofs.Object.DocumentText
import ResourceTable.Proofs.Object.Readings
import ResourceTable.Proofs.Object.RemainingCount
import ResourceTable.Proofs.Object.Rendering
import ResourceTable.Proofs.Object.SortedCell
import ResourceTable.Proofs.Object.SpelledCell
import ResourceTable.Proofs.Object.TruncatedCell
import ResourceTable.Proofs.Object.Verbatim
import ResourceTable.Proofs.Request.Erased
import ResourceTable.Proofs.Request.GroupText
import ResourceTable.Proofs.Request.Lineage
import ResourceTable.Proofs.Table.Conversion
import ResourceTable.Proofs.Table.Encoding
import ResourceTable.Proofs.Table.Normal
import ResourceTable.Proofs.Table.Outcome
import ResourceTable.Proofs.Table.Provenance
import ResourceTable.Proofs.Table.RoundTrip
import ResourceTable.Proofs.Table.Wire
import ResourceTable.Proofs.Wire.Coherent
import ResourceTable.Proofs.Wire.Decoding
import ResourceTable.Proofs.Wire.Encoding
import ResourceTable.Proofs.Wire.Faithful
import ResourceTable.Proofs.Wire.Fields
import ResourceTable.Proofs.Wire.Records
import ResourceTable.Table.Convertor
