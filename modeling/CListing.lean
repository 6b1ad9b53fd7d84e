import CListing.Unicode.Span
import CListing.Unicode.Blank
import CListing.Unicode.Letter
import CListing.Unicode.Number
import CListing.Unicode.Upper
import CListing.Unicode.Printable
import CListing.Text.Pieces
import CListing.Text.Trim
import CListing.Text.Quoted
import CListing.Text.Numeral
import CListing.Token.Category
import CListing.Token.Spacing
import CListing.Token.Basic
import CListing.Token.Vocabulary
import CListing.Scan.Cut
import CListing.Scan.Number
import CListing.Scan.Literal
import CListing.Scan.Directive
import CListing.Scan.Basic
import CListing.Source.Utf8
import CListing.Source.Basic
import CListing.Note
import CListing.Layout
import CListing.Listing.Heading
import CListing.Listing.Command
import CListing.Listing.Basic
import CListing.Reader.Basic
import CListing.Reader.Feed
import CListing.Reader.Cursor
import CListing.Formatter.Basic
import CListing.Formatter.Expression
import CListing.Formatter.Declaration
import CListing.Formatter.Statement
import CListing.Formatter.File
import CListing.Formatter.Remaining
import CListing.Formatter.Nesting
import CListing.Reformat
import CListing.Statistics
import CListing.CommandLine.Flag
import CListing.CommandLine.Options
import CListing.CommandLine.Arguments
import CListing.CommandLine.Usage
import CListing.CommandLine.FilePath
import CListing.CommandLine.FileTree
import CListing.CommandLine.Session
import CListing.Main
import CListing.Proofs.Unicode.Classes
import CListing.Proofs.Scan.Operator
import CListing.Proofs.Scan.Literal
import CListing.Proofs.Scan.Number
import CListing.Proofs.Scan.Branch
import CListing.Proofs.Scan.Spelling
import CListing.Proofs.Scan.Piece
import CListing.Proofs.Reader.Items
import CListing.Proofs.Reader.ItemFeed
import CListing.Proofs.Formatter.Progress
import CListing.Proofs.Formatter.Simulation
import CListing.Proofs.Formatter.Bare
import CListing.Proofs.Reformat.Determinacy
import CListing.Proofs.Formatter.Invariant
import CListing.Proofs.Formatter.Guard
import CListing.Proofs.Formatter.Script
import CListing.Proofs.Listing.Ink
import CListing.Proofs.Reformat.Conservation
import CListing.Proofs.Reader.Woven
import CListing.Proofs.Source.ReadBack
import CListing.Proofs.Formatter.Notes
import CListing.Proofs.Reader.Shape
import CListing.Proofs.Listing.Row
import CListing.Proofs.Listing.Copy
import CListing.Proofs.Listing.Written
import CListing.Proofs.Listing.Filling
import CListing.Proofs.Listing.Carried
import CListing.Proofs.Reformat.Silence
import CListing.Proofs.Reformat.Preservation
import CListing.Proofs.Formatter.Retold
import CListing.Proofs.Listing.Bulk
import CListing.Proofs.Reformat.Idempotence
import CListing.Proofs.Formatter.Calls
import CListing.Proofs.Formatter.Termination
import CListing.Proofs.Listing.Kept
import CListing.Proofs.Listing.Pages
import CListing.Proofs.Formatter.Paging
import CListing.Proofs.Reformat.Pagination
import CListing.Proofs.Listing.RoundTrip
import CListing.Proofs.Listing.Draft
import CListing.Proofs.Formatter.Drafts
import CListing.Proofs.Formatter.Phrases
import CListing.Proofs.Formatter.Dispatch
import CListing.Proofs.Formatter.StatementLayout
import CListing.Proofs.Listing.Width
import CListing.Proofs.Formatter.Shifts
import CListing.Proofs.Formatter.Braces
import CListing.Proofs.Reformat.Width
import CListing.Proofs.Formatter.BraceLoss
import CListing.Proofs.Formatter.Visits
import CListing.Proofs.Formatter.Blocks
import CListing.Proofs.Formatter.AnySource
import CListing.Proofs.Formatter.PutBack
import CListing.Proofs.Formatter.ReadErrors
import CListing.Proofs.Reformat.ReadError
import CListing.Proofs.Reader.Barrier
import CListing.Proofs.Reader.SpacedOut
import CListing.Proofs.Listing.Depth
import CListing.Proofs.Formatter.Levels
import CListing.Proofs.Formatter.Balance
import CListing.Proofs.Formatter.FileBalance
import CListing.Proofs.Reader.FeedNotes
import CListing.Proofs.Reformat.Balance
import CListing.Proofs.Formatter.Declarators
import CListing.Proofs.Formatter.FileLevel
import CListing.Proofs.Formatter.StackScan
import CListing.Proofs.Formatter.Headers
import CListing.Proofs.Reformat.FreshPages
import CListing.Proofs.Listing.Block
import CListing.Proofs.Reformat.Directives
import CListing.Proofs.Reader.Segments
import CListing.Proofs.Source.Places
import CListing.Proofs.Reader.LineNumbers
import CListing.Proofs.CommandLine.Files
import CListing.Proofs.CommandLine.Failure
import CListing.Proofs.Source.Encoding
import CListing.Proofs.Reformat.Nothing
import CListing.Proofs.CommandLine.Delivery
import CListing.Proofs.Reader.Extents
import CListing.Proofs.Formatter.LookAhead
import CListing.Proofs.Listing.Lacking
import CListing.Proofs.Listing.HeadingLines
