import CommandGrammar.Binary64.Reading
import CommandGrammar.Command.Registry
import CommandGrammar.Fault.Banner
import CommandGrammar.Journal
import CommandGrammar.Proofs.Command.Lookup
import CommandGrammar.Proofs.Command.Outcomes
import CommandGrammar.Proofs.Command.Routing
import CommandGrammar.Proofs.Conversion.Integers
import CommandGrammar.Proofs.Fault.Excerpts
import CommandGrammar.Proofs.Parse.Breakdown
import CommandGrammar.Proofs.Parse.Choice
import CommandGrammar.Proofs.Parse.Consumption
import CommandGrammar.Proofs.Parse.Equality
import CommandGrammar.Proofs.Parse.Extension
import CommandGrammar.Proofs.Parse.Grammar
import CommandGrammar.Proofs.Parse.Handing
import CommandGrammar.Proofs.Parse.Inactive
import CommandGrammar.Proofs.Parse.Interleaving
import CommandGrammar.Proofs.Parse.Order
import CommandGrammar.Proofs.Parse.Overlay
import CommandGrammar.Proofs.Parse.Pointing
import CommandGrammar.Proofs.Parse.Positions
import CommandGrammar.Proofs.Parse.Presence
import CommandGrammar.Proofs.Parse.Progress
import CommandGrammar.Proofs.Parse.Provenance
import CommandGrammar.Proofs.Parse.Refinement
import CommandGrammar.Proofs.Parse.Registered
import CommandGrammar.Proofs.Parse.Rejection
import CommandGrammar.Proofs.Parse.Spans
import CommandGrammar.Proofs.Parse.Supply
import CommandGrammar.Proofs.Token.Composition
import CommandGrammar.Proofs.Token.Encoding
import CommandGrammar.Proofs.Token.Letters
import CommandGrammar.Record
import CommandGrammar.Renaming
import CommandGrammar.Schema.Call
import CommandGrammar.Schema.Spec
import CommandGrammar.Value.Plain
import CommandGrammar.Value.Union
import CommandGrammar.Proofs.Schema.Raising
import CommandGrammar.Proofs.Schema.Replaced
import CommandGrammar.Proofs.Schema.Styles
