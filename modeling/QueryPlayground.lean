import QueryPlayground.Main
import QueryPlayground.Session
import QueryPlayground.Wire
import QueryPlayground.Worker
import QueryPlayground.Proofs.Command
import QueryPlayground.Proofs.CommandLine.Apply
import QueryPlayground.Proofs.CommandLine.Export
import QueryPlayground.Proofs.CommandLine.Printer
import QueryPlayground.Proofs.CommandLine.Settings
import QueryPlayground.Proofs.CommandLine.Tour
import QueryPlayground.Proofs.CommandLine.Watch
import QueryPlayground.Proofs.Coordinator.AutoApply
import QueryPlayground.Proofs.Coordinator.Deadline
import QueryPlayground.Proofs.Coordinator.Outcomes
import QueryPlayground.Proofs.Coordinator.SingleFlight
import QueryPlayground.Proofs.Debounce.Timeline
import QueryPlayground.Proofs.History.Availability
import QueryPlayground.Proofs.History.Broadcast
import QueryPlayground.Proofs.History.Mirror
import QueryPlayground.Proofs.History.Paging
import QueryPlayground.Proofs.History.Relay
import QueryPlayground.Proofs.History.Search
import QueryPlayground.Proofs.History.Separation
import QueryPlayground.Proofs.History.Transaction
import QueryPlayground.Proofs.Json.Record
import QueryPlayground.Proofs.Json.Rendering
import QueryPlayground.Proofs.Path.Composition
import QueryPlayground.Proofs.Path.Grammar
import QueryPlayground.Proofs.Path.Location
import QueryPlayground.Proofs.Path.Refusal
import QueryPlayground.Proofs.Session.Keeping
import QueryPlayground.Proofs.Share.Address
import QueryPlayground.Proofs.Share.Agreement
import QueryPlayground.Proofs.Share.RoundTrip
import QueryPlayground.Proofs.Worker.Progress
import QueryPlayground.Proofs.Worker.Protocol
import QueryPlayground.Proofs.Yaml.Rendering
import QueryPlayground.Proofs.Json.Prefix
import QueryPlayground.Proofs.Json.Stream
import QueryPlayground.Proofs.Text.Utf8
