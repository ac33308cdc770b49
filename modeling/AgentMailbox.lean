import AgentMailbox.Library.Dict
import AgentMailbox.Library.Sorting
import AgentMailbox.Library.Program
import AgentMailbox.Library.Specification
import AgentMailbox.Library.Log
import AgentMailbox.Library.Interleaving
import AgentMailbox.Library.ParentPointers
import AgentMailbox.Library.Utf8Order
import AgentMailbox.Library.JsonLexemes
import AgentMailbox.Library.Crashes
import AgentMailbox.Library.Spool
import AgentMailbox.Library.Table
import AgentMailbox.Library.Grouping
import AgentMailbox.Library.Redirects
import AgentMailbox.Json
import AgentMailbox.Clock
import AgentMailbox.Addressing
import AgentMailbox.Naming
import AgentMailbox.Rules
import AgentMailbox.Store
import AgentMailbox.Mailbox
import AgentMailbox.Operations
import AgentMailbox.Semantics
import AgentMailbox.Membership
import AgentMailbox.Changes
import AgentMailbox.Invariants
import AgentMailbox.Availability
import AgentMailbox.Delivery
import AgentMailbox.Expiry
import AgentMailbox.ExpiryRaces
import AgentMailbox.Indistinguishable
import AgentMailbox.Joining
import AgentMailbox.Reading
import AgentMailbox.Sending
import AgentMailbox.Api
import AgentMailbox.Rendering
import AgentMailbox.Silence
import AgentMailbox.Mediation
import AgentMailbox.Transparency
import AgentMailbox.Observation
import AgentMailbox.Foreign
import AgentMailbox.JsonText
import AgentMailbox.Sqlite
import AgentMailbox.SqliteRaces
import AgentMailbox.SqliteRows
import AgentMailbox.Spelling
import AgentMailbox.Backends
import AgentMailbox.ContextOrder
import AgentMailbox.Interchange
import AgentMailbox.Indifference
import AgentMailbox.SqliteHouse
import AgentMailbox.Ownership
import AgentMailbox.Deployments
import AgentMailbox.Conversations
import AgentMailbox.HubNames
import AgentMailbox.GrantedNames
import AgentMailbox.NormalForms
import AgentMailbox.Registration
import AgentMailbox.AskingAgain
import AgentMailbox.ForeignUris
import AgentMailbox.Groups
import AgentMailbox.Residents
import AgentMailbox.Aliases
import AgentMailbox.Hops
import AgentMailbox.Instants
import AgentMailbox.Replies
import AgentMailbox.Audience
import AgentMailbox.Wrapping
import AgentMailbox.Routing
import AgentMailbox.Capacity
import AgentMailbox.DamagedRows
import AgentMailbox.BareMessages
import AgentMailbox.Observers
import AgentMailbox.AuditTrail
import AgentMailbox.Probes
import AgentMailbox.Sizes
import AgentMailbox.CrashSafety
import AgentMailbox.Lives
import AgentMailbox.Inboxes
import AgentMailbox.Old.Failures
import AgentMailbox.Old.Addresses
import AgentMailbox.Old.AddressLaws
import AgentMailbox.Old.Tables
import AgentMailbox.Old.Verbs
import AgentMailbox.Old.Steps
import AgentMailbox.Old.Forwarding
import AgentMailbox.Old.Consumption
import AgentMailbox.Old.Delivery
import AgentMailbox.Old.Moving
import AgentMailbox.Old.Views
import AgentMailbox.Old.ViewLaws
import AgentMailbox.Old.Privacy
import AgentMailbox.Old.Intruders
import AgentMailbox.Old.Housekeeping
import AgentMailbox.Old.Directory
import AgentMailbox.Old.Files
import AgentMailbox.Old.Upgrades
import AgentMailbox.Old.Openings
import AgentMailbox.Old.UpgradedMail
