import SemanticQuery.Main
import SemanticQuery.Proofs.Interpretation.Degraded
import SemanticQuery.Proofs.Literal.Injection
import SemanticQuery.Proofs.Query.Wire
import SemanticQuery.Proofs.Question.Response
import SemanticQuery.Proofs.Report.Skips
import SemanticQuery.Proofs.Statement.Inert
import SemanticQuery.Proofs.Interpretation.Normal
import SemanticQuery.Proofs.Interpretation.Defects
import SemanticQuery.Proofs.Report.Order
import SemanticQuery.Proofs.Statement.Tables
import SemanticQuery.Proofs.Report.Coverage
import SemanticQuery.Proofs.Command.Exit
import SemanticQuery.Proofs.Plan.Reachability
import SemanticQuery.Proofs.Plan.Extension
import SemanticQuery.Proofs.Event.Compilation
import SemanticQuery.Proofs.Statement.Dialects
import SemanticQuery.Proofs.Command.Code
import SemanticQuery.Proofs.Statement.Trimmed
import SemanticQuery.Proofs.Statement.Wording
import SemanticQuery.Proofs.Statement.Integers
import SemanticQuery.Proofs.Document.Extraction
import SemanticQuery.Proofs.Statement.Undescribed
import SemanticQuery.Proofs.Statement.Limit
import SemanticQuery.Proofs.Report.Unlisted
import SemanticQuery.Proofs.Document.Edits
import SemanticQuery.Proofs.Literal.Quoting
import SemanticQuery.Proofs.Statement.Extracted
