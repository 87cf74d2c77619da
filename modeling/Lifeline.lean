import Lifeline.Encoding.Document
import Lifeline.Encoding.Sync
import Lifeline.Main
import Lifeline.Proofs.Token.Extent
import Lifeline.Proofs.Token.Lexing
import Lifeline.Proofs.Text.Words
import Lifeline.Proofs.Token.Placed
import Lifeline.Proofs.Token.Tiling
import Lifeline.Proofs.Token.Plain
import Lifeline.Proofs.Token.Lexed
import Lifeline.Proofs.Diagram.Stream
import Lifeline.Proofs.Diagram.Leaf
import Lifeline.Proofs.Diagram.Note
import Lifeline.Proofs.Diagram.Reading
import Lifeline.Proofs.Diagram.Blocks
import Lifeline.Proofs.Storyboard.Inert
import Lifeline.Proofs.Text.Trim
import Lifeline.Proofs.Storyboard.Alias
import Lifeline.Proofs.Storyboard.Rewording
import Lifeline.Proofs.Storyboard.Placement
import Lifeline.Proofs.Storyboard.Lines
import Lifeline.Proofs.Storyboard.Reading
import Lifeline.Proofs.Diagram.Source
import Lifeline.Proofs.Storyboard.Board
import Lifeline.Proofs.Storyboard.RoundTrip
import Lifeline.Proofs.Storyboard.Shape
import Lifeline.Proofs.Token.Clear
import Lifeline.Proofs.Diagram.Settled
import Lifeline.Proofs.Diagram.Invariant
import Lifeline.Proofs.Storyboard.Reread
import Lifeline.Proofs.Diagram.Cursor
import Lifeline.Proofs.Source.Extract
import Lifeline.Proofs.Sync.Task
import Lifeline.Proofs.Sync.Parts
import Lifeline.Proofs.Sync.Run
import Lifeline.Proofs.Sync.Paused
import Lifeline.Proofs.Sync.Sound
import Lifeline.Proofs.Sync.Storing
import Lifeline.Proofs.Sync.Notepad
import Lifeline.Proofs.Sync.Shown
import Lifeline.Proofs.Sync.Remembered
import Lifeline.Proofs.Diagram.Bare
import Lifeline.Proofs.Diagram.Alike
import Lifeline.Proofs.Diagram.AlikeLeaf
import Lifeline.Proofs.Diagram.AlikeReading
import Lifeline.Proofs.Diagram.Clean
import Lifeline.Proofs.Sync.Slots
import Lifeline.Proofs.Sync.Writing
import Lifeline.Proofs.Sync.Echo
import Lifeline.Proofs.Sync.Attended
import Lifeline.Proofs.Sync.Retained
import Lifeline.Proofs.Source.Lexemes
import Lifeline.Proofs.Source.Trimmed
import Lifeline.Proofs.Source.Smooth
import Lifeline.Proofs.Source.Directives
import Lifeline.Proofs.Source.Repair
import Lifeline.Proofs.Storyboard.Unaffected
import Lifeline.Proofs.Sync.Rendered
import Lifeline.Proofs.Sync.Notices
import Lifeline.Proofs.Sync.Breaker
import Lifeline.Proofs.Storyboard.Ends
import Lifeline.Proofs.Storyboard.Renaming
import Lifeline.Proofs.Storyboard.Rewritten
import Lifeline.Proofs.Storyboard.Regenerated
import Lifeline.Proofs.Diagram.Outline
import Lifeline.Proofs.Diagram.InOrder
import Lifeline.Proofs.Diagram.Spans
import Lifeline.Proofs.Diagram.Line
import Lifeline.Proofs.Diagram.Beneath
import Lifeline.Proofs.Diagram.Recovery
import Lifeline.Proofs.Storyboard.Conversion
import Lifeline.Proofs.Storyboard.Faithful
import Lifeline.Proofs.Storyboard.Legible
import Lifeline.Proofs.Source.Searching
import Lifeline.Proofs.Storyboard.Flat
import Lifeline.Proofs.Source.Layout
import Lifeline.Proofs.Json.Marks
import Lifeline.Proofs.Json.RoundTrip
import Lifeline.Proofs.Encoding.Storyboard
import Lifeline.Proofs.Encoding.Document
import Lifeline.Proofs.Encoding.RoundTrip
import Lifeline.Proofs.Sync.Debounce
import Lifeline.Proofs.Sync.Budget
import Lifeline.Proofs.Sync.Spending
import Lifeline.Proofs.Token.Position
import Lifeline.Proofs.Source.Joined
import Lifeline.Proofs.Diagram.Reports
import Lifeline.Proofs.Diagram.WellFormed
import Lifeline.Proofs.Token.Cuts
import Lifeline.Proofs.Token.Arrows
import Lifeline.Proofs.Storyboard.Contained
import Lifeline.Proofs.Diagram.Respaced
import Lifeline.Proofs.Diagram.Verbatim
import Lifeline.Proofs.Sync.Resumed
import Lifeline.Proofs.Source.CommonEnds
import Lifeline.Proofs.Source.Following
import Lifeline.Proofs.Source.Subsequence
import Lifeline.Proofs.Source.Tidy
import Lifeline.Proofs.Source.Framing
import Lifeline.Proofs.Source.Repeated
import Lifeline.Proofs.Sync.Tickets
import Lifeline.Proofs.Sync.Window
import Lifeline.Proofs.Storyboard.Naming
