import SolidScene.Main
import SolidScene.Disk.Tree
import SolidScene.Workspace
import SolidScene.Proofs.Decimal.Numeral
import SolidScene.Proofs.Script.Lexeme
import SolidScene.Proofs.Script.Layout
import SolidScene.Proofs.Script.Grammar
import SolidScene.Proofs.Script.Denotation
import SolidScene.Proofs.Script.Rendering
import SolidScene.Proofs.Script.RoundTrip
import SolidScene.Proofs.Script.Comment
import SolidScene.Proofs.Script.Recovery
import SolidScene.Proofs.Script.Occurrences
import SolidScene.Proofs.Workspace.WellFormed
import SolidScene.Proofs.Mesh.Surface
import SolidScene.Proofs.Mesh.Rings
import SolidScene.Proofs.Mesh.Watertight
import SolidScene.Proofs.Script.Scan
import SolidScene.Proofs.Script.ScanWritten
import SolidScene.Proofs.Double.Canonical
import SolidScene.Proofs.Script.ScanAgreement
import SolidScene.Proofs.Double.Round
import SolidScene.Proofs.Double.Value
import SolidScene.Proofs.Double.Arithmetic
import SolidScene.Proofs.Double.Exact
import SolidScene.Proofs.Double.Decimal
import SolidScene.Proofs.Double.Error
import SolidScene.Proofs.Workspace.Arrangement
import SolidScene.Proofs.Workspace.Settling
import SolidScene.Proofs.Workspace.Losses
import SolidScene.Proofs.Decimal.Layout
import SolidScene.Proofs.Double.Shortest
import SolidScene.Proofs.Double.Sign
import SolidScene.Proofs.Disk.Tree
import SolidScene.Proofs.Json.Quoted
import SolidScene.Proofs.Json.Numeral
import SolidScene.Proofs.Json.RoundTrip
import SolidScene.Proofs.Json.Scaling
import SolidScene.Proofs.Json.Number
import SolidScene.Proofs.Document.Scene
import SolidScene.Proofs.CommandLine.Run
import SolidScene.Proofs.CommandLine.OwnFiles
import SolidScene.Proofs.Workspace.Subscriptions
import SolidScene.Proofs.Stl.Binary
import SolidScene.Proofs.Stl.BoxNormals
import SolidScene.Proofs.CommandLine.Arguments
import SolidScene.Proofs.CommandLine.Frame
import SolidScene.Proofs.Json.Accuracy
import SolidScene.Proofs.CommandLine.Regeneration
import SolidScene.Proofs.Script.Progress
import SolidScene.Proofs.Script.Brackets
import SolidScene.Proofs.Script.NestingLimit
import SolidScene.Proofs.Script.Resumption
import SolidScene.Proofs.Script.ScanPlaces
import SolidScene.Proofs.Script.Separation
import SolidScene.Proofs.Script.ArgumentOrder
import SolidScene.Proofs.Workspace.Accuracy
import SolidScene.Proofs.Workspace.Places
import SolidScene.Proofs.Mesh.Merging
import SolidScene.Proofs.Stl.Ascii
import SolidScene.Proofs.Double.Product
import SolidScene.Proofs.Script.Fragments
import SolidScene.Proofs.Workspace.Units
import SolidScene.Proofs.Script.Length
import SolidScene.Proofs.Double.Sum
import SolidScene.Proofs.Double.Extended
import SolidScene.Proofs.Geometry.Bounds
import SolidScene.Proofs.Report.Inspection
import SolidScene.Proofs.Mesh.Extents
import SolidScene.Proofs.Geometry.Growth
