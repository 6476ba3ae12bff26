import NoteLinks.Command.Arguments
import NoteLinks.Command.Basic
import NoteLinks.Command.Report
import NoteLinks.Command.Run
import NoteLinks.Data.File
import NoteLinks.Data.Note
import NoteLinks.Data.Snapshot
import NoteLinks.Data.Suggestion
import NoteLinks.Decimal.Binary
import NoteLinks.Decimal.Layout
import NoteLinks.Decimal.Numeral
import NoteLinks.Decimal.Shortest
import NoteLinks.Error
import NoteLinks.FrontMatter
import NoteLinks.FrontMatter.Location
import NoteLinks.Insertion.Existing
import NoteLinks.Insertion.Listing
import NoteLinks.Insertion.Mention
import NoteLinks.Insertion.Offset
import NoteLinks.Insertion.Plan
import NoteLinks.Json.Basic
import NoteLinks.Json.Decode
import NoteLinks.Json.Reader
import NoteLinks.Json.Writer
import NoteLinks.LinkFormat
import NoteLinks.Main
import NoteLinks.Name
import NoteLinks.Note.Basic
import NoteLinks.Note.Concept
import NoteLinks.Note.Heading
import NoteLinks.Note.Link
import NoteLinks.Note.Pattern
import NoteLinks.Note.Reading
import NoteLinks.Note.Tag
import NoteLinks.Ordered.Key
import NoteLinks.Ordered.KeyMap
import NoteLinks.Ordered.KeySet
import NoteLinks.Path
import NoteLinks.Proofs.Command.Effect
import NoteLinks.Proofs.Command.Failing
import NoteLinks.Proofs.Command.Handover
import NoteLinks.Proofs.Command.Stages
import NoteLinks.Proofs.Data.File
import NoteLinks.Proofs.Data.Snapshot
import NoteLinks.Proofs.Data.Suggestion
import NoteLinks.Proofs.Decimal.Binary
import NoteLinks.Proofs.Decimal.Numeral
import NoteLinks.Proofs.Decimal.Rounding
import NoteLinks.Proofs.Decimal.Scaled
import NoteLinks.Proofs.Decimal.Shortest
import NoteLinks.Proofs.FrontMatter.Block
import NoteLinks.Proofs.FrontMatter.Delimiter
import NoteLinks.Proofs.FrontMatter.Fields
import NoteLinks.Proofs.FrontMatter.Grammar
import NoteLinks.Proofs.FrontMatter.Location
import NoteLinks.Proofs.Insertion.Body
import NoteLinks.Proofs.Insertion.Change
import NoteLinks.Proofs.Insertion.Covering
import NoteLinks.Proofs.Insertion.Edit
import NoteLinks.Proofs.Insertion.FirstMention
import NoteLinks.Proofs.Insertion.FrontMatter
import NoteLinks.Proofs.Insertion.HeadingLines
import NoteLinks.Proofs.Insertion.Idempotence
import NoteLinks.Proofs.Insertion.Identity
import NoteLinks.Proofs.Insertion.Linked
import NoteLinks.Proofs.Insertion.Lossless
import NoteLinks.Proofs.Insertion.Mention
import NoteLinks.Proofs.Insertion.Offset
import NoteLinks.Proofs.Insertion.Pass
import NoteLinks.Proofs.Insertion.ReadBack
import NoteLinks.Proofs.Insertion.Recognition
import NoteLinks.Proofs.Insertion.Section
import NoteLinks.Proofs.Insertion.Severed
import NoteLinks.Proofs.Insertion.Spelling
import NoteLinks.Proofs.Insertion.Woven
import NoteLinks.Proofs.Json.Decode
import NoteLinks.Proofs.Json.Reading
import NoteLinks.Proofs.LinkFormat
import NoteLinks.Proofs.Note.Cleaning
import NoteLinks.Proofs.Note.Concept
import NoteLinks.Proofs.Note.Heading
import NoteLinks.Proofs.Note.Link
import NoteLinks.Proofs.Note.Normal
import NoteLinks.Proofs.Note.Parts
import NoteLinks.Proofs.Note.Scans
import NoteLinks.Proofs.Note.Tag
import NoteLinks.Proofs.Note.TagRuns
import NoteLinks.Proofs.Ordered.KeyMap
import NoteLinks.Proofs.Ordered.KeySet
import NoteLinks.Proofs.Path
import NoteLinks.Proofs.Settings.Overrides
import NoteLinks.Proofs.Snapshot
import NoteLinks.Proofs.Snapshot.Closure
import NoteLinks.Proofs.Suggestion.Candidate
import NoteLinks.Proofs.Suggestion.Directory
import NoteLinks.Proofs.Suggestion.EmptyNotes
import NoteLinks.Proofs.Suggestion.Gathering
import NoteLinks.Proofs.Suggestion.Linked
import NoteLinks.Proofs.Suggestion.Mutual
import NoteLinks.Proofs.Suggestion.Pairwise
import NoteLinks.Proofs.Suggestion.Ranking
import NoteLinks.Proofs.Suggestion.Review
import NoteLinks.Proofs.Suggestion.Score
import NoteLinks.Proofs.Suggestion.Top
import NoteLinks.Proofs.Text.ByteOrder
import NoteLinks.Proofs.Text.Case
import NoteLinks.Proofs.Text.Columns
import NoteLinks.Proofs.Text.Cutting
import NoteLinks.Proofs.Text.Lines
import NoteLinks.Proofs.Text.Lowering
import NoteLinks.Proofs.Text.Offset
import NoteLinks.Proofs.Text.Pattern
import NoteLinks.Proofs.Text.Rows
import NoteLinks.Proofs.Text.Scan
import NoteLinks.Proofs.Text.Seam
import NoteLinks.Proofs.Text.Splitting
import NoteLinks.Proofs.Text.Trimming
import NoteLinks.Proofs.Text.Words
import NoteLinks.Proofs.Tree.Following
import NoteLinks.Proofs.Tree.Sibling
import NoteLinks.Proofs.Tree.Target
import NoteLinks.Proofs.Tree.Writing
import NoteLinks.Proofs.Vault.Applied
import NoteLinks.Proofs.Vault.Copies
import NoteLinks.Proofs.Vault.Floor
import NoteLinks.Proofs.Vault.Footprint
import NoteLinks.Proofs.Vault.FreshRun
import NoteLinks.Proofs.Vault.Keys
import NoteLinks.Proofs.Vault.Naming
import NoteLinks.Proofs.Vault.NoteKeys
import NoteLinks.Proofs.Vault.Notes
import NoteLinks.Proofs.Vault.Outcome
import NoteLinks.Proofs.Vault.Regular
import NoteLinks.Proofs.Vault.Report
import NoteLinks.Proofs.Vault.Rescan
import NoteLinks.Proofs.Vault.ScannedKeys
import NoteLinks.Proofs.Vault.Undecodable
import NoteLinks.Proofs.Vault.Update
import NoteLinks.Proofs.Vault.Walk
import NoteLinks.Settings
import NoteLinks.Snapshot
import NoteLinks.Suggestion.Basic
import NoteLinks.Suggestion.Candidate
import NoteLinks.Suggestion.Ranking
import NoteLinks.Suggestion.Review
import NoteLinks.Suggestion.Thresholds
import NoteLinks.Text.Basic
import NoteLinks.Text.Bytes
import NoteLinks.Text.Case
import NoteLinks.Text.Offset
import NoteLinks.Text.Pattern
import NoteLinks.Text.Piece
import NoteLinks.Text.WordChar
import NoteLinks.Toml.Basic
import NoteLinks.Toml.Decode
import NoteLinks.Toml.Lexeme
import NoteLinks.Toml.Reader
import NoteLinks.Toml.Table
import NoteLinks.Tree.Basic
import NoteLinks.Tree.Paths
import NoteLinks.Vault.Apply
import NoteLinks.Vault.Notes
import NoteLinks.Yaml.Cursor
import NoteLinks.Yaml.Node
import NoteLinks.Yaml.Scalar
import NoteLinks.Yaml.Tag
import NoteLinks.Yaml.Token
import NoteLinks.Yaml.Value
