import Maintainability.Analysis.Mean
import Maintainability.Analysis.Measure
import Maintainability.Analysis.Project
import Maintainability.Analysis.Result
import Maintainability.Analysis.Run
import Maintainability.Analysis.Source
import Maintainability.Archive
import Maintainability.Archive.Checksum
import Maintainability.Archive.Inflate
import Maintainability.Archive.Zip
import Maintainability.Command
import Maintainability.Command.Session
import Maintainability.Command.Words
import Maintainability.Config
import Maintainability.Config.Environment
import Maintainability.Config.Field
import Maintainability.Config.Load
import Maintainability.Config.Toml
import Maintainability.Config.Value
import Maintainability.Digest
import Maintainability.Duplicate.Index
import Maintainability.Error
import Maintainability.Grammar
import Maintainability.Intake
import Maintainability.Intake.Selection
import Maintainability.Java.Grammar
import Maintainability.Java.Token
import Maintainability.Json
import Maintainability.Log
import Maintainability.Log.Journal
import Maintainability.Main
import Maintainability.Metric.Complexity
import Maintainability.Metric.Score
import Maintainability.Metric.Volume
import Maintainability.Number.Binary64
import Maintainability.Number.Decimal
import Maintainability.Number.Literal
import Maintainability.Number.Quantity
import Maintainability.Number.Total
import Maintainability.Number.Written
import Maintainability.Path
import Maintainability.Path.Glob
import Maintainability.Proofs.Duplicates
import Maintainability.Proofs.Files
import Maintainability.Proofs.Links
import Maintainability.Proofs.Ordering
import Maintainability.Proofs.Pool
import Maintainability.Proofs.Recorded
import Maintainability.Proofs.Run
import Maintainability.Proofs.Schedule
import Maintainability.Python.Grammar
import Maintainability.Python.Layout
import Maintainability.Python.Token
import Maintainability.Report
import Maintainability.Report.Csv
import Maintainability.Report.Lines
import Maintainability.Report.Markup
import Maintainability.Report.Table
import Maintainability.Report.Terminal
import Maintainability.Service
import Maintainability.Service.Form
import Maintainability.Syntax.Concrete
import Maintainability.Syntax.Language
import Maintainability.Syntax.Method
import Maintainability.Syntax.Parser
import Maintainability.Syntax.Tree
import Maintainability.Text
import Maintainability.Text.Identifier
import Maintainability.Text.Lines
import Maintainability.Text.Printable
import Maintainability.Text.Quoted
import Maintainability.Text.Runs
import Maintainability.Text.Utf8
import Maintainability.Text.Width
import Maintainability.Workspace
import Maintainability.Proofs.Refinement
import Maintainability.Proofs.Returned
import Maintainability.Proofs.Accounting
import Maintainability.Proofs.FirstTexts
import Maintainability.Proofs.Isolation
import Maintainability.Proofs.Traversal
import Maintainability.Proofs.Methods
import Maintainability.Proofs.Decisions
import Maintainability.Proofs.Encoding
import Maintainability.Proofs.Hashing
import Maintainability.Proofs.Archives
import Maintainability.Proofs.Uploads
import Maintainability.Proofs.Gathering
import Maintainability.Proofs.Members
import Maintainability.Proofs.Paths
import Maintainability.Proofs.Straying
import Maintainability.Proofs.WellFormed
import Maintainability.Proofs.Directories
import Maintainability.Proofs.Origins
import Maintainability.Proofs.Records
import Maintainability.Proofs.Deadline
import Maintainability.Proofs.Tables
import Maintainability.Proofs.Rules
import Maintainability.Proofs.Loading
import Maintainability.Proofs.Precedence
import Maintainability.Proofs.Resolved
import Maintainability.Proofs.Atomicity
import Maintainability.Proofs.JsonText
import Maintainability.Proofs.Rendering
import Maintainability.Proofs.Markup
import Maintainability.Proofs.Console
import Maintainability.Proofs.Sites
import Maintainability.Proofs.Printing
import Maintainability.Proofs.Confinement
import Maintainability.Proofs.FirstLate
import Maintainability.Proofs.Normalization
import Maintainability.Proofs.Comments
import Maintainability.Proofs.LineBreaks
import Maintainability.Proofs.Words
import Maintainability.Proofs.Attribution
import Maintainability.Proofs.Excerpts
import Maintainability.Proofs.Rearrangement
