import Switchboard.Json.Printer
import Switchboard.Mux.Session
import Switchboard.Settings.Load
import Switchboard.Proofs.Mux.Channels
import Switchboard.Proofs.Mux.Attempts
import Switchboard.Proofs.Mux.Requests
import Switchboard.Proofs.Mux.Sound
import Switchboard.Proofs.Mux.Endings
import Switchboard.Proofs.Mux.Turns
import Switchboard.Proofs.Mux.Starts
import Switchboard.Proofs.Mux.Ledger
import Switchboard.Proofs.Mux.Moves
import Switchboard.Proofs.Mux.SoundStarts
import Switchboard.Proofs.Mux.SoundMoves
import Switchboard.Proofs.Mux.Runs
import Switchboard.Proofs.Mux.Accounts
import Switchboard.Proofs.Mux.Permanence
import Switchboard.Proofs.Mux.Answers
import Switchboard.Proofs.Mux.Conclusions
import Switchboard.Proofs.Mux.Publication
import Switchboard.Proofs.Mux.SingleHandshake
import Switchboard.Proofs.Mux.Line
import Switchboard.Proofs.Mux.Failures
import Switchboard.Proofs.Mux.Lone
import Switchboard.Proofs.Mux.Undone
import Switchboard.Proofs.Mux.Forwarding
import Switchboard.Proofs.Mux.Rounds
import Switchboard.Proofs.Mux.MergedStreams
import Switchboard.Proofs.Mux.Deliveries
import Switchboard.Proofs.Mux.Traffic
import Switchboard.Proofs.Mux.Gating
import Switchboard.Proofs.Mux.Broadcasts
import Switchboard.Proofs.Mux.Awaited
import Switchboard.Proofs.Mux.Replies
import Switchboard.Proofs.Mux.Completions
import Switchboard.Proofs.Mux.Rest
import Switchboard.Proofs.Mux.Independence
import Switchboard.Proofs.Mux.Happenings
import Switchboard.Proofs.Mux.Announcements
import Switchboard.Proofs.Mux.Reports
import Switchboard.Proofs.Mux.Observed
import Switchboard.Proofs.Mux.Observers
import Switchboard.Proofs.Mux.Teardown
import Switchboard.Proofs.Mux.Lanes
import Switchboard.Proofs.Mux.LaneRounds
import Switchboard.Proofs.Mux.StreamEnds
import Switchboard.Proofs.Mux.DroppedStreams
import Switchboard.Proofs.Mux.Decisions
import Switchboard.Proofs.Mux.Entrants
import Switchboard.Proofs.Mux.Verdicts
import Switchboard.Proofs.Mux.FirstDecision
import Switchboard.Proofs.Mux.LogRecords
import Switchboard.Proofs.Mux.LogLines
import Switchboard.Proofs.Mux.Journal
import Switchboard.Proofs.Mux.JournalRuns
import Switchboard.Proofs.Mux.LostRequests
import Switchboard.Proofs.Mux.ForwarderRecords
import Switchboard.Proofs.Mux.FaithfulLog
import Switchboard.Proofs.Json.Documents
import Switchboard.Proofs.Record.Fields
import Switchboard.Proofs.Record.Layouts
import Switchboard.Proofs.Record.RoundTrip
import Switchboard.Proofs.Record.Texts
import Switchboard.Proofs.Capabilities.Rereading
import Switchboard.Proofs.Toml.Tables
import Switchboard.Proofs.Toml.Ordered
import Switchboard.Proofs.Toml.Writing
import Switchboard.Proofs.Settings.Overlay
import Switchboard.Proofs.Settings.UserFile
