import EventBroker.Api.Probe
import EventBroker.Client.Call
import EventBroker.Config.Load
import EventBroker.Json.Identifier
import EventBroker.Session.Run
import EventBroker.Trace.Context
import EventBroker.Proofs.Agenda
import EventBroker.Proofs.Registry
import EventBroker.Proofs.Deeds
import EventBroker.Proofs.Firing
import EventBroker.Proofs.Links
import EventBroker.Proofs.ChannelHistory
import EventBroker.Proofs.ApiDeeds
import EventBroker.Proofs.SessionDeeds
import EventBroker.Proofs.SessionRuns
import EventBroker.Proofs.Facade
import EventBroker.Proofs.Incarnations
import EventBroker.Proofs.Rules
import EventBroker.Proofs.Delivery
import EventBroker.Proofs.Books
import EventBroker.Proofs.Accounts
import EventBroker.Proofs.Fates
import EventBroker.Proofs.Buffers
import EventBroker.Proofs.Arming
import EventBroker.Proofs.SessionFrames
import EventBroker.Proofs.Identifiers
import EventBroker.Proofs.DriverLoop
import EventBroker.Proofs.Beats
import EventBroker.Proofs.Timeliness
import EventBroker.Proofs.Refusals
import EventBroker.Proofs.InFlight
import EventBroker.Proofs.Interleaving
import EventBroker.Proofs.Slots
import EventBroker.Proofs.Subscribers
import EventBroker.Proofs.Publishing
import EventBroker.Proofs.Streams
import EventBroker.Proofs.FiringOrder
import EventBroker.Proofs.SessionStreams
import EventBroker.Proofs.Listening
import EventBroker.Proofs.Utf8
import EventBroker.Proofs.JsonText
import EventBroker.Proofs.PercentCoding
import EventBroker.Proofs.Names
import EventBroker.Proofs.Segments
import EventBroker.Proofs.Targets
import EventBroker.Proofs.Addressing
import EventBroker.Proofs.Endpoints
import EventBroker.Proofs.Records
import EventBroker.Proofs.Wire
import EventBroker.Proofs.EventRequests
import EventBroker.Proofs.Conservation
import EventBroker.Proofs.Alike
import EventBroker.Proofs.AlikeChannels
import EventBroker.Proofs.AlikeRequests
import EventBroker.Proofs.Views
import EventBroker.Proofs.Turns
import EventBroker.Proofs.Rest
import EventBroker.Proofs.AlikeSessions
import EventBroker.Proofs.AlikeTasks
import EventBroker.Proofs.Observers
import EventBroker.Proofs.Submission
import EventBroker.Proofs.BoundedLines
import EventBroker.Proofs.Listings
import EventBroker.Proofs.Decoding
import EventBroker.Proofs.Members
import EventBroker.Proofs.StandIns
import EventBroker.Proofs.Accompaniment
import EventBroker.Proofs.Attendance
import EventBroker.Proofs.Crashes
import EventBroker.Proofs.SocketStreams
import EventBroker.Proofs.AcceptedSockets
import EventBroker.Proofs.AgendaHistory
import EventBroker.Proofs.RuleHeap
import EventBroker.Proofs.SubmissionOrder
import EventBroker.Proofs.Ticks
import EventBroker.Proofs.Clocks
import EventBroker.Proofs.Lifetimes
import EventBroker.Proofs.WatcherLinks
import EventBroker.Proofs.Readiness
import EventBroker.Proofs.Idleness
import EventBroker.Proofs.ReaperTurns
import EventBroker.Proofs.IdleReaping
import EventBroker.Proofs.TaskOrder
import EventBroker.Proofs.Spellings
import EventBroker.Proofs.ChannelNames
import EventBroker.Proofs.LossyText
import EventBroker.Proofs.Provenance
import EventBroker.Proofs.Payloads
import EventBroker.Proofs.ConfigLayers
