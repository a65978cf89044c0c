import FlowEvents.Bus.Script
import FlowEvents.Bus.Session
import FlowEvents.Identity.Grouping
import FlowEvents.Wire.Forms
import FlowEvents.Proofs.Bus.Story
import FlowEvents.Proofs.Bus.Chronology
import FlowEvents.Proofs.Bus.Execution
import FlowEvents.Proofs.Bus.Coherence
import FlowEvents.Proofs.Bus.Numbering
import FlowEvents.Proofs.Bus.Seating
import FlowEvents.Proofs.Bus.FanOut
import FlowEvents.Proofs.Bus.Ledger
import FlowEvents.Proofs.Bus.Settling
import FlowEvents.Proofs.Bus.Serial
import FlowEvents.Proofs.Bus.Refinement
import FlowEvents.Proofs.Bus.Accounting
import FlowEvents.Proofs.Bus.Diagnostics
import FlowEvents.Proofs.Bus.Isolation
import FlowEvents.Proofs.Bus.Authors
import FlowEvents.Proofs.Bus.Places
import FlowEvents.Proofs.Bus.Routing
import FlowEvents.Proofs.Bus.Twins
import FlowEvents.Proofs.Bus.Executor
import FlowEvents.Proofs.Decimal.Literals
import FlowEvents.Proofs.Decimal.ReadBack
import FlowEvents.Proofs.Decimal.Range
import FlowEvents.Proofs.Decimal.Value
import FlowEvents.Proofs.Event.Equality
import FlowEvents.Proofs.Event.Writes
import FlowEvents.Proofs.Event.Routing
import FlowEvents.Proofs.Event.Executor
import FlowEvents.Proofs.Identity.Grammar
import FlowEvents.Proofs.Identity.Canonical
import FlowEvents.Proofs.Identity.Lifecycle
import FlowEvents.Proofs.Identity.Adoption
import FlowEvents.Proofs.Identity.Messages
import FlowEvents.Proofs.Identity.Names
import FlowEvents.Proofs.Identity.Keys
import FlowEvents.Proofs.Json.Strings
import FlowEvents.Proofs.Json.RoundTrip
import FlowEvents.Proofs.Payload.Settled
import FlowEvents.Proofs.Payload.Equality
import FlowEvents.Proofs.Text.Quoted
import FlowEvents.Proofs.Wire.Trees
import FlowEvents.Proofs.Wire.RoundTrip
import FlowEvents.Proofs.Wire.Members
import FlowEvents.Proofs.Wire.Arrays
import FlowEvents.Proofs.Wire.Kinds
import FlowEvents.Proofs.Wire.Words
import FlowEvents.Proofs.Wire.Canonical
