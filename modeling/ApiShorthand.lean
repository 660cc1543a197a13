import ApiShorthand.Json.Reader
import ApiShorthand.Main
import ApiShorthand.Proofs.Document.Faithful
import ApiShorthand.Proofs.Document.Options
import ApiShorthand.Proofs.Document.Validity
import ApiShorthand.Proofs.Document.Nullability
import ApiShorthand.Proofs.Document.WithoutNulls
import ApiShorthand.Proofs.Line.FirstLines
import ApiShorthand.Proofs.Line.Items
import ApiShorthand.Proofs.Grammar.FirstFault
import ApiShorthand.Proofs.Document.Grouping
import ApiShorthand.Proofs.Line.Shown
import ApiShorthand.Proofs.Grammar.Renumbering
import ApiShorthand.Proofs.Document.Layout
import ApiShorthand.Proofs.Line.Concatenation
import ApiShorthand.Proofs.Grammar.Concatenation
import ApiShorthand.Proofs.Document.Order
import ApiShorthand.Proofs.Document.Parameters
import ApiShorthand.Proofs.FileTree
import ApiShorthand.Proofs.FileSystem.Operations
import ApiShorthand.Proofs.Run.Html
import ApiShorthand.Proofs.Run.Output
import ApiShorthand.Proofs.Document.RoundTrip
import ApiShorthand.Proofs.Schema.Construction
import ApiShorthand.Proofs.Sources.Least
import ApiShorthand.Proofs.Document.Printed
