import CssTokens.Abort
import CssTokens.ByteClass
import CssTokens.CharClass
import CssTokens.Command
import CssTokens.Event
import CssTokens.Failure
import CssTokens.Fault
import CssTokens.Grammar
import CssTokens.Input
import CssTokens.Input.Directory
import CssTokens.LineColumn
import CssTokens.Listing
import CssTokens.Main
import CssTokens.Output.Sink
import CssTokens.Plain
import CssTokens.Proofs.CharClass
import CssTokens.Proofs.CharGroup
import CssTokens.Proofs.Command.Arguments
import CssTokens.Proofs.Command.Delivery
import CssTokens.Proofs.Command.ExitStatus
import CssTokens.Proofs.Command.Routes
import CssTokens.Proofs.Command.Statuses
import CssTokens.Proofs.Drivers
import CssTokens.Proofs.Drivers.Agreement
import CssTokens.Proofs.Grammar.Forms
import CssTokens.Proofs.Grammar.Lookahead
import CssTokens.Proofs.Grammar.Streams
import CssTokens.Proofs.Grammar.Strings
import CssTokens.Proofs.Input
import CssTokens.Proofs.LineColumn.Cuts
import CssTokens.Proofs.LineColumn.Order
import CssTokens.Proofs.LineColumn.Walking
import CssTokens.Proofs.Listing.Lines
import CssTokens.Proofs.Listing.ReadBack
import CssTokens.Proofs.Output.Prefix
import CssTokens.Proofs.Output.Sinks
import CssTokens.Proofs.Plain.Rules
import CssTokens.Proofs.Reader.Bytes
import CssTokens.Proofs.Reader.Delimiters
import CssTokens.Proofs.Reader.Movement
import CssTokens.Proofs.Reader.Placed
import CssTokens.Proofs.Reader.Runs
import CssTokens.Proofs.Report.Findings
import CssTokens.Proofs.Report.Lines
import CssTokens.Proofs.Report.Nulls
import CssTokens.Proofs.Source.Issues
import CssTokens.Proofs.Source.Layout
import CssTokens.Proofs.Source.Padding
import CssTokens.Proofs.Text.Delimiting
import CssTokens.Proofs.Text.Encoding
import CssTokens.Proofs.Text.Quoting
import CssTokens.Proofs.Text.WellFormed
import CssTokens.Proofs.Token.Reading
import CssTokens.Proofs.TokenStream.Alone
import CssTokens.Proofs.TokenStream.Bodies
import CssTokens.Proofs.TokenStream.Calls
import CssTokens.Proofs.TokenStream.Characterization
import CssTokens.Proofs.TokenStream.Faults
import CssTokens.Proofs.TokenStream.Functions
import CssTokens.Proofs.TokenStream.Loops
import CssTokens.Proofs.TokenStream.Lossless
import CssTokens.Proofs.TokenStream.Refinement
import CssTokens.Proofs.TokenStream.Requests
import CssTokens.Proofs.TokenStream.Restart
import CssTokens.Proofs.TokenStream.Spans
import CssTokens.Proofs.TokenStream.Stability
import CssTokens.Proofs.TokenStream.Substitution
import CssTokens.Reader
import CssTokens.Reader.Progress
import CssTokens.Reader.Session
import CssTokens.Report
import CssTokens.Session
import CssTokens.Source
import CssTokens.Source.Issue
import CssTokens.Text.Bytes
import CssTokens.Text.Columns
import CssTokens.Text.Quoted
import CssTokens.Text.Unseen
import CssTokens.Token
import CssTokens.Token.Kind
import CssTokens.Token.Progress
import CssTokens.Token.Read
import CssTokens.TokenStream
import CssTokens.TokenStream.Session
