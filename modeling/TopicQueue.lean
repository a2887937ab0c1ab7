import TopicQueue.Base64
import TopicQueue.Broker
import TopicQueue.Broker.Consumer
import TopicQueue.Bytes
import TopicQueue.Cli.Arguments
import TopicQueue.Cli.EnvironmentFile
import TopicQueue.Cli.Run
import TopicQueue.Command
import TopicQueue.Command.Inlet
import TopicQueue.Command.Reader
import TopicQueue.Config.Convert
import TopicQueue.Config.Document
import TopicQueue.Config.Environment
import TopicQueue.Config.Load
import TopicQueue.Config.Toml
import TopicQueue.Config.Toml.Scalar
import TopicQueue.Config.Value
import TopicQueue.Config.Yaml
import TopicQueue.Config.Yaml.Scalar
import TopicQueue.Decimal.Digits
import TopicQueue.Decimal.Double
import TopicQueue.Decimal.Shortest
import TopicQueue.Frame
import TopicQueue.Http.Address
import TopicQueue.Http.Response
import TopicQueue.Http.Route
import TopicQueue.Http.Server
import TopicQueue.Http.Server.Step
import TopicQueue.Http.Target
import TopicQueue.Journal
import TopicQueue.Json.Flaw
import TopicQueue.Json.Literal
import TopicQueue.Json.Number
import TopicQueue.Json.Quote
import TopicQueue.Json.Record
import TopicQueue.Json.Skip
import TopicQueue.Logging.Filter
import TopicQueue.Logging.Level
import TopicQueue.Main
import TopicQueue.Place
import TopicQueue.Proofs.Accounts
import TopicQueue.Proofs.Acknowledged
import TopicQueue.Proofs.Actions
import TopicQueue.Proofs.AlikeSessions
import TopicQueue.Proofs.Base64Form
import TopicQueue.Proofs.Bystanders
import TopicQueue.Proofs.ByteSessions
import TopicQueue.Proofs.Calls
import TopicQueue.Proofs.Cancellations
import TopicQueue.Proofs.ClaimQueue
import TopicQueue.Proofs.CommandStream
import TopicQueue.Proofs.Congruences
import TopicQueue.Proofs.CongruentScenes
import TopicQueue.Proofs.Conservation
import TopicQueue.Proofs.ConsumerCalls
import TopicQueue.Proofs.Conversations
import TopicQueue.Proofs.Conversions
import TopicQueue.Proofs.Deeds
import TopicQueue.Proofs.Departures
import TopicQueue.Proofs.Dispatch
import TopicQueue.Proofs.Doubles
import TopicQueue.Proofs.Drains
import TopicQueue.Proofs.EntryForm
import TopicQueue.Proofs.EntryTexts
import TopicQueue.Proofs.EnvironmentTexts
import TopicQueue.Proofs.Errands
import TopicQueue.Proofs.Excerpts
import TopicQueue.Proofs.Exchanges
import TopicQueue.Proofs.Feeds
import TopicQueue.Proofs.FrameLines
import TopicQueue.Proofs.Handoffs
import TopicQueue.Proofs.Interleavings
import TopicQueue.Proofs.Isolation
import TopicQueue.Proofs.KeptWakes
import TopicQueue.Proofs.Layers
import TopicQueue.Proofs.Ledger
import TopicQueue.Proofs.LiteralForm
import TopicQueue.Proofs.LoneConsumer
import TopicQueue.Proofs.LoneSession
import TopicQueue.Proofs.NextCommand
import TopicQueue.Proofs.Numerals
import TopicQueue.Proofs.Offers
import TopicQueue.Proofs.OtherTopics
import TopicQueue.Proofs.Overlays
import TopicQueue.Proofs.Ownership
import TopicQueue.Proofs.Publications
import TopicQueue.Proofs.Quiescence
import TopicQueue.Proofs.Registered
import TopicQueue.Proofs.Registry
import TopicQueue.Proofs.Releases
import TopicQueue.Proofs.Removals
import TopicQueue.Proofs.Replies
import TopicQueue.Proofs.Requeues
import TopicQueue.Proofs.Retries
import TopicQueue.Proofs.Rounding
import TopicQueue.Proofs.Runs
import TopicQueue.Proofs.Sayings
import TopicQueue.Proofs.ServerDrains
import TopicQueue.Proofs.ServerMoves
import TopicQueue.Proofs.SessionActs
import TopicQueue.Proofs.SessionCalls
import TopicQueue.Proofs.ShortestTexts
import TopicQueue.Proofs.Sleepers
import TopicQueue.Proofs.StaleWakes
import TopicQueue.Proofs.Tandem
import TopicQueue.Proofs.TopicSessions
import TopicQueue.Proofs.TwinServices
import TopicQueue.Proofs.Twins
import TopicQueue.Proofs.VariableNames
import TopicQueue.Proofs.Waits
import TopicQueue.Proofs.Wakes
import TopicQueue.Proofs.WrittenNumbers
import TopicQueue.Roster
import TopicQueue.Scene
import TopicQueue.Scene.Report
import TopicQueue.Service
import TopicQueue.Session
import TopicQueue.Settings
import TopicQueue.Settings.Reader
import TopicQueue.Store
import TopicQueue.Store.Entry
import TopicQueue.Store.Fault
import TopicQueue.Store.Place
import TopicQueue.Table
import TopicQueue.Text.Hidden
import TopicQueue.Text.Lossy
import TopicQueue.Text.Quoted
