import Redline.Block.Basic
import Redline.Block.Text
import Redline.Chat.Client
import Redline.Chat.Endpoint
import Redline.Cli.Choice
import Redline.Cli.Completion
import Redline.Cli.Execution
import Redline.Cli.Flag
import Redline.Cli.Help
import Redline.Cli.Invocation
import Redline.Cli.Manual
import Redline.Cli.Misuse
import Redline.Decimal.Shortest
import Redline.Decimal.Text
import Redline.Engine.Basic
import Redline.Engine.External
import Redline.Engine.Programs
import Redline.Error
import Redline.Event
import Redline.Files.Path
import Redline.Files.Tree
import Redline.Json.Container
import Redline.Json.Fault
import Redline.Json.Number
import Redline.Json.Print
import Redline.Json.Scan
import Redline.Json.Typed
import Redline.Json.Value
import Redline.LineDiff.Affix
import Redline.LineDiff.Compare
import Redline.LineDiff.Edit
import Redline.LineDiff.Frontier
import Redline.LineDiff.Header
import Redline.LineDiff.Hunk
import Redline.LineDiff.Region
import Redline.LineDiff.Script
import Redline.LineDiff.Settle
import Redline.LineDiff.Shared
import Redline.LineDiff.Spelling
import Redline.LineDiff.Standing
import Redline.LineDiff.Unified
import Redline.Main
import Redline.Message
import Redline.Proofs.Block.Append
import Redline.Proofs.Block.Fixed
import Redline.Proofs.Block.Mirror
import Redline.Proofs.Block.OnePass
import Redline.Proofs.Block.Partition
import Redline.Proofs.Block.Selection
import Redline.Proofs.Block.Twice
import Redline.Proofs.Chat.Body
import Redline.Proofs.Engine.Temporary
import Redline.Proofs.Engine.Verdict
import Redline.Proofs.Json.Containers
import Redline.Proofs.Json.Integers
import Redline.Proofs.Json.Nulls
import Redline.Proofs.Json.Numbers
import Redline.Proofs.Json.Places
import Redline.Proofs.Json.Printed
import Redline.Proofs.Json.Quoting
import Redline.Proofs.Json.Rearranged
import Redline.Proofs.Json.Records
import Redline.Proofs.Json.Spelled
import Redline.Proofs.Json.Strings
import Redline.Proofs.Json.Typed
import Redline.Proofs.Json.Values
import Redline.Proofs.LineDiff.Alternation
import Redline.Proofs.LineDiff.CommonSublist
import Redline.Proofs.LineDiff.Corners
import Redline.Proofs.LineDiff.Distance
import Redline.Proofs.LineDiff.Division
import Redline.Proofs.LineDiff.Grouping
import Redline.Proofs.LineDiff.Headers
import Redline.Proofs.LineDiff.Hunk
import Redline.Proofs.LineDiff.Layers
import Redline.Proofs.LineDiff.Meeting
import Redline.Proofs.LineDiff.Minimal
import Redline.Proofs.LineDiff.Progress
import Redline.Proofs.LineDiff.Reading
import Redline.Proofs.LineDiff.Rendering
import Redline.Proofs.LineDiff.Shortest
import Redline.Proofs.LineDiff.Sinking
import Redline.Proofs.LineDiff.Steady
import Redline.Proofs.Message.Parts
import Redline.Proofs.Message.Prompt
import Redline.Proofs.Reply.Content
import Redline.Proofs.Reply.Counters
import Redline.Proofs.Reply.Meaning
import Redline.Proofs.Reply.Nulls
import Redline.Proofs.Reply.Places
import Redline.Proofs.Reply.Rearranged
import Redline.Proofs.Reply.Whole
import Redline.Proofs.Settings.Sources
import Redline.Proofs.Text.Blank
import Redline.Proofs.Text.Encoding
import Redline.Proofs.Text.Faults
import Redline.Proofs.Text.Lines
import Redline.Proofs.Text.Utf8
import Redline.Proofs.Tool.Contact
import Redline.Reply.Basic
import Redline.Reply.Read
import Redline.Settings
import Redline.Text.Blank
import Redline.Text.Hidden
import Redline.Text.Lines
import Redline.Text.Printable
import Redline.Text.Quoted
import Redline.Text.Utf8
import Redline.Tool
