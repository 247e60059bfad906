import ToolCatalog.Files.Edit
import ToolCatalog.Main
import ToolCatalog.Proofs.Declaration.PythonSource
import ToolCatalog.Proofs.Declaration.ScriptHeaders
import ToolCatalog.Proofs.Files.Containment
import ToolCatalog.Proofs.Declaration.Passages
import ToolCatalog.Proofs.Doc.Comments
import ToolCatalog.Proofs.Declaration.Concatenation
import ToolCatalog.Proofs.Declaration.ScriptParameters
import ToolCatalog.Proofs.Declaration.ScriptSource
import ToolCatalog.Proofs.Declaration.ParameterNames
import ToolCatalog.Proofs.Declaration.CommaJoins
import ToolCatalog.Proofs.Declaration.WellFormed
import ToolCatalog.Proofs.Files.Validity
import ToolCatalog.Proofs.Files.Walks
import ToolCatalog.Proofs.Text.Utf8
import ToolCatalog.Proofs.Tool.Assembly
import ToolCatalog.Proofs.Tool.Validation
import ToolCatalog.Proofs.Tool.Reading
import ToolCatalog.Proofs.Survey.Agreement
import ToolCatalog.Proofs.Survey.ReadBack
import ToolCatalog.Proofs.Text.LineEnds
import ToolCatalog.Proofs.Doc.LineEnds
import ToolCatalog.Proofs.Declaration.LineEnds
import ToolCatalog.Proofs.Files.NameOrder
import ToolCatalog.Proofs.Files.Visibility
import ToolCatalog.Proofs.Files.Listing
import ToolCatalog.Proofs.Files.Pages
import ToolCatalog.Proofs.Files.NormalForms
import ToolCatalog.Proofs.Files.Resolution
import ToolCatalog.Proofs.Json.Strings
import ToolCatalog.Proofs.Json.RoundTrip
import ToolCatalog.Proofs.Declaration.JsonForm
import ToolCatalog.Proofs.Declaration.JsonReading
import ToolCatalog.Proofs.Declaration.Signatures
import ToolCatalog.Proofs.CommandLine.Piping
import ToolCatalog.Proofs.Files.Writes
import ToolCatalog.Proofs.CommandLine.AllOrNothing
import ToolCatalog.Proofs.Declaration.Bytes
import ToolCatalog.Proofs.Text.JoinedLines
import ToolCatalog.Proofs.Doc.Canonical
import ToolCatalog.Proofs.Doc.Indentation
import ToolCatalog.Proofs.Doc.Forward
import ToolCatalog.Proofs.Doc.ClosingMarks
import ToolCatalog.Proofs.Declaration.Reindentation
import ToolCatalog.Proofs.Report.Listing
import ToolCatalog.Proofs.Toml.WellFormed
import ToolCatalog.Proofs.Settings.Overlay
import ToolCatalog.Proofs.Settings.Loading
