import LiveState.Act
import LiveState.Arguments
import LiveState.Command
import LiveState.Config
import LiveState.Decimal.Shortest
import LiveState.Decimal.Text
import LiveState.Json.Basic
import LiveState.Json.Description
import LiveState.Json.Number
import LiveState.Json.Parser
import LiveState.Json.Printer
import LiveState.LogFilter
import LiveState.Main
import LiveState.Notice
import LiveState.Observable.Action
import LiveState.Observable.Basic
import LiveState.Observable.Listener
import LiveState.Observable.Place
import LiveState.Observable.Revision
import LiveState.Observable.Scenario
import LiveState.OrderedMap
import LiveState.Panel
import LiveState.Program
import LiveState.Proofs.Course
import LiveState.Proofs.Observable.Course
import LiveState.Proofs.Observable.History
import LiveState.Registry.Basic
import LiveState.Registry.Catalog
import LiveState.Registry.Scenario
import LiveState.Scenario
import LiveState.Session.Language
import LiveState.Session.Medium
import LiveState.Session.Site
import LiveState.Session.Step
import LiveState.Session.World
import LiveState.Settings.Basic
import LiveState.Settings.Error
import LiveState.Settings.Record
import LiveState.Settings.Samples
import LiveState.Settings.User
import LiveState.Storage.Database
import LiveState.Storage.Error
import LiveState.Storage.FileTree
import LiveState.Storage.Image
import LiveState.Storage.Location
import LiveState.Storage.Media
import LiveState.Subscription
import LiveState.Text.Alphanumeric
import LiveState.Text.Bytes
import LiveState.Text.Description
import LiveState.Text.Quoted
import LiveState.Text.Shapeless
import LiveState.View
import LiveState.Proofs.Observable.Chronicle
import LiveState.Proofs.Observable.Scenario
import LiveState.Proofs.Budget
import LiveState.Proofs.Observable.Budget
import LiveState.Proofs.Observable.Ending
import LiveState.Proofs.Observable.Voices
import LiveState.Proofs.Observable.Passes
import LiveState.Proofs.Observable.Delivery
import LiveState.Proofs.Observable.Chain
import LiveState.Proofs.Observable.Changes
import LiveState.Proofs.Observable.Silence
import LiveState.Proofs.Observable.Unsubscription
import LiveState.Proofs.Command
import LiveState.Proofs.Session.Output
import LiveState.Proofs.Registry.Layouts
import LiveState.Proofs.Registry.Undisturbed
import LiveState.Proofs.Session.Panels
import LiveState.Proofs.Settings.Course
import LiveState.Proofs.Registry.Course
import LiveState.Proofs.Registry.Budget
import LiveState.Proofs.Registry.Ending
import LiveState.Proofs.Session.Course
import LiveState.Proofs.Session.Ranged
import LiveState.Proofs.Session.Attempts
import LiveState.Proofs.Session.Keeping
import LiveState.Proofs.Session.Writeback
import LiveState.Proofs.Json.Fields
import LiveState.Proofs.Json.Number
import LiveState.Proofs.Json.Literal
import LiveState.Proofs.Json.Form
import LiveState.Proofs.Json.RoundTrip
import LiveState.Proofs.Settings.RoundTrip
import LiveState.Proofs.Storage.Directories
import LiveState.Proofs.Storage.Reopening
import LiveState.Proofs.Yields
import LiveState.Proofs.Observable.Alone
import LiveState.Proofs.Session.Contexts
import LiveState.Proofs.Session.Commands
import LiveState.Proofs.Program.Restarts
import LiveState.Proofs.Json.Members
import LiveState.Proofs.Settings.Loading
import LiveState.Proofs.Settings.Layout
import LiveState.Proofs.Settings.Healing
import LiveState.Proofs.Session.Loading
import LiveState.Proofs.Session.Reloading
import LiveState.Proofs.Session.Healing
import LiveState.Proofs.Session.Carrying
import LiveState.Proofs.Session.UnknownFields
import LiveState.Proofs.Registry.Operations
import LiveState.Proofs.Registry.Ledger
import LiveState.Proofs.Registry.Mounting
import LiveState.Proofs.Registry.Linear
import LiveState.Proofs.Observable.Accord
import LiveState.Proofs.Settings.Accord
import LiveState.Proofs.Registry.Accord
import LiveState.Proofs.Accord
import LiveState.Proofs.Session.Memory
import LiveState.Proofs.Session.Accord
import LiveState.Proofs.Session.Weather
import LiveState.Proofs.Registry.Stays
import LiveState.Proofs.Registry.Membership
import LiveState.Proofs.Registry.Panels
import LiveState.Proofs.Observable.Calls
import LiveState.Proofs.Observable.Deliveries
import LiveState.Proofs.Observable.Following
import LiveState.Proofs.Observable.Latest
import LiveState.Proofs.Observable.Held
import LiveState.Proofs.Observable.Panics
import LiveState.Proofs.Storage.Places
import LiveState.Proofs.Storage.Sharing
import LiveState.Proofs.Session.Stores
import LiveState.Proofs.LogFilter
import LiveState.Proofs.Arguments
import LiveState.Proofs.Json.Squeeze
import LiveState.Proofs.Numerals
import LiveState.Proofs.Session.Attended
import LiveState.Proofs.Session.Attendance
import LiveState.Proofs.Session.Budget
import LiveState.Proofs.Session.Ending
import LiveState.Proofs.Session.Printing
import LiveState.Proofs.Session.Limits
import LiveState.Proofs.Loss
import LiveState.Proofs.Observable.Loss
import LiveState.Proofs.Observable.Settling
import LiveState.Proofs.Observable.Listing
