import ScreenFlow.Bits
import ScreenFlow.Text.Chars
import ScreenFlow.Text.Base64
import ScreenFlow.Text.Percent
import ScreenFlow.Json.Printer
import ScreenFlow.Json.Source
import ScreenFlow.Json.Reader
import ScreenFlow.Json.Record
import ScreenFlow.Template
import ScreenFlow.AppState
import ScreenFlow.Fault
import ScreenFlow.Retry
import ScreenFlow.Screen
import ScreenFlow.Http.Request
import ScreenFlow.Http.Response
import ScreenFlow.Offline.Event
import ScreenFlow.Auth.Record
import ScreenFlow.FileName
import ScreenFlow.Disk
import ScreenFlow.Download
import ScreenFlow.Host
import ScreenFlow.Resolve.Basic
import ScreenFlow.Offline.Snapshot
import ScreenFlow.Http.Decoding
import ScreenFlow.Export
import ScreenFlow.Screen.Check
import ScreenFlow.Auth.Jwt
import ScreenFlow.Process.Script
import ScreenFlow.Process.Turnstile
import ScreenFlow.Process.Broadcast
import ScreenFlow.Store.File
import ScreenFlow.Retry.Timeline
import ScreenFlow.Store.Access
import ScreenFlow.Execute.Basic
import ScreenFlow.Offline.Queue
import ScreenFlow.Auth.Session
import ScreenFlow.Subscription.Session
import ScreenFlow.Dispatch.Action
import ScreenFlow.Dispatch.Run
import ScreenFlow.Dispatch.Active
import ScreenFlow.Dispatch.Replay
import ScreenFlow.Process.Signal
import ScreenFlow.Simulation.World
import ScreenFlow.Simulation.Stores
import ScreenFlow.Simulation.Executing
import ScreenFlow.Simulation.Machine
import ScreenFlow.Toml.Document
import ScreenFlow.Config
import ScreenFlow.Store.Conformance
import ScreenFlow.Simulation.Wiring
import ScreenFlow.Simulation.Observing
import ScreenFlow.Json.Fields
import ScreenFlow.Scenario.Run
import ScreenFlow.Console.Files
import ScreenFlow.Console.Arguments
import ScreenFlow.Console.Output
import ScreenFlow.Console.Commands
import ScreenFlow.Main
import ScreenFlow.Proofs.Process.Interleaving
import ScreenFlow.Proofs.Auth.Ownership
import ScreenFlow.Proofs.Offline.Keeping
import ScreenFlow.Proofs.Offline.Surviving
import ScreenFlow.Proofs.Execute.Calls
import ScreenFlow.Proofs.Execute.Effects
import ScreenFlow.Proofs.Offline.Alone
import ScreenFlow.Proofs.Execute.Outside
import ScreenFlow.Proofs.Execute.Routing
import ScreenFlow.Proofs.Execute.KeptReads
import ScreenFlow.Proofs.Execute.SessionToken
import ScreenFlow.Proofs.Resolve.Placeholders
import ScreenFlow.Proofs.Resolve.QueryPairs
import ScreenFlow.Proofs.Resolve.Verbatim
import ScreenFlow.Proofs.Dispatch.Substitution
import ScreenFlow.Proofs.Dispatch.Traversal
import ScreenFlow.Proofs.Dispatch.OpenStreams
import ScreenFlow.Proofs.Offline.Reappearing
import ScreenFlow.Proofs.Offline.Undisturbed
import ScreenFlow.Proofs.Offline.SingleFlight
import ScreenFlow.Proofs.Auth.Sharing
import ScreenFlow.Proofs.Auth.Echoes
import ScreenFlow.Proofs.Auth.SharedRefresh
import ScreenFlow.Proofs.Auth.Agreement
import ScreenFlow.Proofs.Store.Reloading
import ScreenFlow.Proofs.Store.Refinement
import ScreenFlow.Proofs.Store.Failing
import ScreenFlow.Proofs.Store.ChangeLog
import ScreenFlow.Proofs.Subscription.Deadlocks
import ScreenFlow.Proofs.Path.Updating
import ScreenFlow.Proofs.Path.Writing
import ScreenFlow.Proofs.Path.Renderings
import ScreenFlow.Proofs.Screen.Agreement
import ScreenFlow.Proofs.Screen.Encoding
import ScreenFlow.Proofs.Retry.Schedule
import ScreenFlow.Proofs.Retry.Backoff
import ScreenFlow.Proofs.Dispatch.Respelling
import ScreenFlow.Proofs.Dispatch.LoginReplies
import ScreenFlow.Proofs.Dispatch.Phases
import ScreenFlow.Proofs.Subscription.Reconnecting
import ScreenFlow.Proofs.Resolve.HeaderFields
import ScreenFlow.Proofs.Http.Attachments
import ScreenFlow.Proofs.Export.ReadBack
