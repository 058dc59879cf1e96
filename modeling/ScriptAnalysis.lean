import ScriptAnalysis.Cache
import ScriptAnalysis.CodeLine
import ScriptAnalysis.CommandLine.Arguments
import ScriptAnalysis.CommandLine.Reads
import ScriptAnalysis.CommandLine.Run
import ScriptAnalysis.Diagnostic
import ScriptAnalysis.FileSystem.Basic
import ScriptAnalysis.FileSystem.Edit
import ScriptAnalysis.FileSystem.LookUp
import ScriptAnalysis.FileSystem.Reach
import ScriptAnalysis.FileSystem.VisitKey
import ScriptAnalysis.Include.Link
import ScriptAnalysis.Include.Resolve
import ScriptAnalysis.Include.Walk
import ScriptAnalysis.Main
import ScriptAnalysis.Outline
import ScriptAnalysis.Path.Basic
import ScriptAnalysis.Path.Normal
import ScriptAnalysis.Symbol.Index
import ScriptAnalysis.Symbol.Indexer
import ScriptAnalysis.Symbol.Name
import ScriptAnalysis.Symbol.Rename
import ScriptAnalysis.Text.Basic
import ScriptAnalysis.Text.Blank
import ScriptAnalysis.Text.CaseTable
import ScriptAnalysis.Text.Lines
import ScriptAnalysis.Text.Lowercase
import ScriptAnalysis.Text.Utf8
import ScriptAnalysis.Token.Basic
import ScriptAnalysis.Token.Lexer
import ScriptAnalysis.Token.Quote
import ScriptAnalysis.Toml.Document
import ScriptAnalysis.Toml.Reader
import ScriptAnalysis.Toml.Timestamp
import ScriptAnalysis.Validation.Blocks
import ScriptAnalysis.Validation.Instruction
import ScriptAnalysis.Validation.Validate
import ScriptAnalysis.Vocabulary.Basic
import ScriptAnalysis.Vocabulary.Load
import ScriptAnalysis.Proofs.Cache.Freshness
import ScriptAnalysis.Proofs.Cache.History
import ScriptAnalysis.Proofs.Cache.Run
import ScriptAnalysis.Proofs.CodeLine
import ScriptAnalysis.Proofs.Edit.Disk
import ScriptAnalysis.Proofs.Edit.Line
import ScriptAnalysis.Proofs.Edit.Text
import ScriptAnalysis.Proofs.FileSystem.Contents
import ScriptAnalysis.Proofs.FileSystem.LinkFree
import ScriptAnalysis.Proofs.FileSystem.SameFile
import ScriptAnalysis.Proofs.FileSystem.Spelling
import ScriptAnalysis.Proofs.Include.Closure
import ScriptAnalysis.Proofs.Include.DepthFirst
import ScriptAnalysis.Proofs.Include.Footprint
import ScriptAnalysis.Proofs.Include.Loop
import ScriptAnalysis.Proofs.Include.Reach
import ScriptAnalysis.Proofs.Include.RootText
import ScriptAnalysis.Proofs.Include.Visits
import ScriptAnalysis.Proofs.Outline.Ends
import ScriptAnalysis.Proofs.Outline.Items
import ScriptAnalysis.Proofs.Outline.Structure
import ScriptAnalysis.Proofs.Path.Cancellation
import ScriptAnalysis.Proofs.Path.Normal
import ScriptAnalysis.Proofs.Path.Parts
import ScriptAnalysis.Proofs.Symbol.Cursor
import ScriptAnalysis.Proofs.Symbol.Identifier
import ScriptAnalysis.Proofs.Symbol.Listing
import ScriptAnalysis.Proofs.Symbol.Name
import ScriptAnalysis.Proofs.Symbol.Occurrence
import ScriptAnalysis.Proofs.Symbol.Primary
import ScriptAnalysis.Proofs.Symbol.Rename
import ScriptAnalysis.Proofs.Symbol.Respelling
import ScriptAnalysis.Proofs.Symbol.Root
import ScriptAnalysis.Proofs.Symbol.Sites
import ScriptAnalysis.Proofs.Symbol.Visible
import ScriptAnalysis.Proofs.Text.LetterCase
import ScriptAnalysis.Proofs.Text.Utf8
import ScriptAnalysis.Proofs.Token.Columns
import ScriptAnalysis.Proofs.Token.Cut
import ScriptAnalysis.Proofs.Token.Layout
import ScriptAnalysis.Proofs.Token.LetterCase
import ScriptAnalysis.Proofs.Token.Scan
import ScriptAnalysis.Proofs.Token.Words
import ScriptAnalysis.Proofs.Validation.Comments
import ScriptAnalysis.Proofs.Validation.Document
import ScriptAnalysis.Proofs.Validation.Includes
import ScriptAnalysis.Proofs.Validation.Inert
import ScriptAnalysis.Proofs.Validation.LetterCase
import ScriptAnalysis.Proofs.Validation.Matching
import ScriptAnalysis.Proofs.Validation.Nesting
import ScriptAnalysis.Proofs.Validation.Order
import ScriptAnalysis.Proofs.Validation.Placement
import ScriptAnalysis.Proofs.Validation.Places
import ScriptAnalysis.Proofs.Validation.Reading
import ScriptAnalysis.Proofs.Validation.Run
import ScriptAnalysis.Proofs.Validation.Visibility
