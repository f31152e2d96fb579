import Letterhead.Backup
import Letterhead.Batch
import Letterhead.Command
import Letterhead.Config
import Letterhead.Contract
import Letterhead.Datum
import Letterhead.Datum.Basic
import Letterhead.Datum.Identity
import Letterhead.Datum.Mark
import Letterhead.Datum.Members
import Letterhead.Decimal.Binary64
import Letterhead.Decimal.Shortest
import Letterhead.Digest.Mixture
import Letterhead.Digest.Sha256
import Letterhead.Discovery
import Letterhead.Encoding.Charset
import Letterhead.Encoding.Decode
import Letterhead.Encoding.Encode
import Letterhead.Encoding.Utf8
import Letterhead.Fault
import Letterhead.FileSystem.Basic
import Letterhead.FileSystem.Change
import Letterhead.FileSystem.Lookup
import Letterhead.FileSystem.Problem
import Letterhead.Json.Basic
import Letterhead.Json.Reader
import Letterhead.Json.Token
import Letterhead.Json.Writer
import Letterhead.Main
import Letterhead.Notice
import Letterhead.Options
import Letterhead.Outcome
import Letterhead.Path
import Letterhead.Proofs.Batch.Consistency
import Letterhead.Proofs.Batch.Plan
import Letterhead.Proofs.Encoding.ByteLines
import Letterhead.Proofs.Encoding.Decode
import Letterhead.Proofs.Encoding.Lines
import Letterhead.Proofs.Encoding.Utf8
import Letterhead.Proofs.FileSystem.Home
import Letterhead.Proofs.FileSystem.Leads
import Letterhead.Proofs.FileSystem.Shape
import Letterhead.Proofs.FileSystem.Stage
import Letterhead.Proofs.Notice
import Letterhead.Proofs.Scan.Line
import Letterhead.Proofs.Scan.Region
import Letterhead.Proofs.Scan.Rescan
import Letterhead.Proofs.Scan.Trail
import Letterhead.Proofs.Session
import Letterhead.Proofs.Text.Affix
import Letterhead.Proofs.Text.Lines
import Letterhead.Proofs.Update.Rerun
import Letterhead.Proofs.Update.Transaction
import Letterhead.Report
import Letterhead.Request
import Letterhead.Scan.Diagnostic
import Letterhead.Scan.Pattern
import Letterhead.Scan.Revision
import Letterhead.Scan.Rule
import Letterhead.Schema
import Letterhead.Session
import Letterhead.Stamp
import Letterhead.Text.Blank
import Letterhead.Text.CaseTable
import Letterhead.Text.CharSet
import Letterhead.Text.CodePoint
import Letterhead.Text.Digit
import Letterhead.Text.Lines
import Letterhead.Text.Lowercase
import Letterhead.Text.Printable
import Letterhead.Text.Quoted
import Letterhead.Update
import Letterhead.Usage
import Letterhead.Proofs.Scan.Survival
import Letterhead.Proofs.Update.Check
import Letterhead.Proofs.Batch.Rehearsal
import Letterhead.Proofs.Command.Gate
import Letterhead.Proofs.FileSystem.Tree
import Letterhead.Proofs.Update.Fault
import Letterhead.Proofs.Batch.Completion
import Letterhead.Proofs.Batch.Recording
import Letterhead.Proofs.Update.ReadBack
import Letterhead.Proofs.Update.KeptBytes
import Letterhead.Proofs.FileSystem.Spelling
import Letterhead.Proofs.FileSystem.Detour
import Letterhead.Proofs.Update.Respelling
import Letterhead.Proofs.Batch.Candidates
import Letterhead.Proofs.Batch.Visits
import Letterhead.Proofs.Batch.Order
import Letterhead.Proofs.Scan.ClosedForm
import Letterhead.Proofs.Scan.Remainder
import Letterhead.Proofs.FileSystem.Beside
import Letterhead.Proofs.Backup.Rollback
import Letterhead.Proofs.Backup.Remains
import Letterhead.Proofs.Update.OwnCharset
import Letterhead.Proofs.FileSystem.Below
import Letterhead.Proofs.Batch.Targets
import Letterhead.Proofs.Batch.Duplicates
import Letterhead.Proofs.Encoding.Proper
import Letterhead.Proofs.Json.Proper
import Letterhead.Proofs.Scan.Quotation
import Letterhead.Proofs.Command.Printable
import Letterhead.Proofs.Text.Trim
import Letterhead.Proofs.Scan.Expression
import Letterhead.Proofs.Scan.Classification
import Letterhead.Proofs.Scan.Location
import Letterhead.Proofs.Text.Cut
import Letterhead.Proofs.Update.FileLines
import Letterhead.Proofs.Notice.Margins
import Letterhead.Proofs.Scan.Verdict
import Letterhead.Proofs.Stamp
import Letterhead.Proofs.Report
import Letterhead.Proofs.Json.Sorted
import Letterhead.Proofs.Json.Tokens
import Letterhead.Proofs.Json.ReadBack
import Letterhead.Proofs.Datum
