import ThreadSlots.Main
import ThreadSlots.Session
import ThreadSlots.Table.Steps
import ThreadSlots.Proofs.Accounting
import ThreadSlots.Proofs.Interruption
import ThreadSlots.Proofs.Maps.Sessions
import ThreadSlots.Proofs.Vigil
import ThreadSlots.Proofs.Callbacks
import ThreadSlots.Proofs.Coupling
import ThreadSlots.Proofs.LocalCommands
import ThreadSlots.Proofs.Bookkeeping
import ThreadSlots.Proofs.TrackedCommands
import ThreadSlots.Proofs.Tracking
import ThreadSlots.Proofs.Isolation
import ThreadSlots.Proofs.Paths.Commands
import ThreadSlots.Proofs.Paths.Sessions
import ThreadSlots.Proofs.Json.Values
import ThreadSlots.Proofs.Json.RoundTrip
import ThreadSlots.Proofs.Json.Reading
import ThreadSlots.Proofs.Log.Contract
import ThreadSlots.Proofs.Log.TraceParts
import ThreadSlots.Proofs.Log.Lines
import ThreadSlots.Proofs.Scenarios.Holding
import ThreadSlots.Proofs.Scenarios.Trials
import ThreadSlots.Proofs.Scenarios.Crowd
import ThreadSlots.Proofs.Scenarios.Verdicts
import ThreadSlots.Proofs.Log.Numbering
import ThreadSlots.Proofs.Scenarios.Suites
import ThreadSlots.Proofs.Cleared
import ThreadSlots.Proofs.Typing
import ThreadSlots.Proofs.Registration
import ThreadSlots.Proofs.Histories
import ThreadSlots.Proofs.Calendar.Days
import ThreadSlots.Proofs.Calendar.Timestamps
import ThreadSlots.Proofs.Untracked
import ThreadSlots.Proofs.Initialization
import ThreadSlots.Proofs.Tables.Growth
import ThreadSlots.Proofs.Tables.Contents
import ThreadSlots.Proofs.Log.Framing
import ThreadSlots.Proofs.Refusals.Sessions
import ThreadSlots.Proofs.Log.Grammar
import ThreadSlots.Proofs.Log.Rows
import ThreadSlots.Proofs.Storing
import ThreadSlots.Proofs.Context.Sessions
import ThreadSlots.Proofs.Bare.Sessions
import ThreadSlots.Proofs.Erasure
