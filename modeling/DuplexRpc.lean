import DuplexRpc.Address.Flags
import DuplexRpc.Address.Grammar
import DuplexRpc.Address.Listener
import DuplexRpc.Backoff
import DuplexRpc.Cancellation
import DuplexRpc.Client.Run
import DuplexRpc.CommandLine.Report
import DuplexRpc.Config
import DuplexRpc.Envelope.Classify
import DuplexRpc.Envelope.Strict
import DuplexRpc.Json.Document
import DuplexRpc.Json.Printer
import DuplexRpc.Main
import DuplexRpc.Pending
import DuplexRpc.Registry
import DuplexRpc.Session.Script
import DuplexRpc.Url.Basic
import DuplexRpc.Proofs.Address.Distinct
import DuplexRpc.Proofs.Address.Flags
import DuplexRpc.Proofs.Address.Grammar
import DuplexRpc.Proofs.Backoff.Extremes
import DuplexRpc.Proofs.Cancellation.Groups
import DuplexRpc.Proofs.Client.AfterClose
import DuplexRpc.Proofs.Client.Attempts
import DuplexRpc.Proofs.Client.Bookkeeping
import DuplexRpc.Proofs.Client.CallIds
import DuplexRpc.Proofs.Client.Correlation
import DuplexRpc.Proofs.Client.ErrorResponses
import DuplexRpc.Proofs.Client.FailedConnect
import DuplexRpc.Proofs.Client.Generations
import DuplexRpc.Proofs.Client.Junk
import DuplexRpc.Proofs.Client.Loops
import DuplexRpc.Proofs.Client.Numbering
import DuplexRpc.Proofs.Client.Polls
import DuplexRpc.Proofs.Client.Registrations
import DuplexRpc.Proofs.Client.Replies
import DuplexRpc.Proofs.Client.Retirement
import DuplexRpc.Proofs.Client.Statuses
import DuplexRpc.Proofs.Client.Superseded
import DuplexRpc.Proofs.Envelope.Decoding
import DuplexRpc.Proofs.Envelope.RoundTrip
import DuplexRpc.Proofs.Pending.Completions
import DuplexRpc.Proofs.Pending.Guards
