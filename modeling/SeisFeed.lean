import SeisFeed.Channel.Directory
import SeisFeed.Channel.Key
import SeisFeed.Channel.Pattern
import SeisFeed.Channel.Precis
import SeisFeed.Checksum
import SeisFeed.Delivery.Collector
import SeisFeed.Delivery.Continuity
import SeisFeed.Delivery.Pipeline
import SeisFeed.Delivery.Reorder
import SeisFeed.Message.Fault
import SeisFeed.Message.Frame
import SeisFeed.Message.Kind
import SeisFeed.Proofs.Channel.Announcing
import SeisFeed.Proofs.Channel.Deriving
import SeisFeed.Proofs.Channel.Listing
import SeisFeed.Proofs.Channel.Lookup
import SeisFeed.Proofs.Channel.Matching
import SeisFeed.Proofs.Channel.Selecting
import SeisFeed.Proofs.Channel.Spelling
import SeisFeed.Proofs.Delivery.Arrivals
import SeisFeed.Proofs.Delivery.Following
import SeisFeed.Proofs.Delivery.GapPolicy
import SeisFeed.Proofs.Delivery.History
import SeisFeed.Proofs.Delivery.Independence
import SeisFeed.Proofs.Delivery.Keeping
import SeisFeed.Proofs.Delivery.Places
import SeisFeed.Proofs.Delivery.Rebuilding
import SeisFeed.Proofs.Delivery.ReorderRun
import SeisFeed.Proofs.Delivery.Shuffle
import SeisFeed.Proofs.Delivery.Wraparound
import SeisFeed.Proofs.Message.Requests
import SeisFeed.Proofs.Session.Abandonment
import SeisFeed.Proofs.Session.Calls
import SeisFeed.Proofs.Session.Capping
import SeisFeed.Proofs.Session.Checking
import SeisFeed.Proofs.Session.Conversation
import SeisFeed.Proofs.Session.Cutoff
import SeisFeed.Proofs.Session.Discipline
import SeisFeed.Proofs.Session.Exchange
import SeisFeed.Proofs.Session.Framing
import SeisFeed.Proofs.Session.Hearing
import SeisFeed.Proofs.Session.Identity
import SeisFeed.Proofs.Session.Journey
import SeisFeed.Proofs.Session.Login
import SeisFeed.Proofs.Session.Pass
import SeisFeed.Proofs.Session.Progress
import SeisFeed.Proofs.Session.Reconnecting
import SeisFeed.Proofs.Session.Retrieval
import SeisFeed.Proofs.Session.Retrying
import SeisFeed.Proofs.Session.Shutdown
import SeisFeed.Proofs.Session.Sliding
import SeisFeed.Proofs.Session.Stopping
import SeisFeed.Proofs.Session.Streaming
import SeisFeed.Proofs.Session.Subscribing
import SeisFeed.Proofs.Session.Survival
import SeisFeed.Proofs.Session.Timetable
import SeisFeed.Proofs.Session.Traffic
import SeisFeed.Proofs.Session.Transcript
import SeisFeed.Proofs.Session.Windows
import SeisFeed.Proofs.Text.Caseless
import SeisFeed.Proofs.Text.Parts
import SeisFeed.Proofs.Text.Utf8
import SeisFeed.Proofs.Waveform.CompressedForm
import SeisFeed.Proofs.Waveform.CompressedWriting
import SeisFeed.Proofs.Waveform.DecompressedForm
import SeisFeed.Proofs.Waveform.Differences
import SeisFeed.Proofs.Waveform.Seams
import SeisFeed.Proofs.Waveform.Trimming
import SeisFeed.Proofs.Waveform.Unpacking
import SeisFeed.Proofs.Wire.Chunks
import SeisFeed.Proofs.Wire.Counted
import SeisFeed.Proofs.Wire.Layout
import SeisFeed.Proofs.Wire.Passage
import SeisFeed.Proofs.Wire.Reading
import SeisFeed.Proofs.Wire.Undoing
import SeisFeed.Request
import SeisFeed.Session.Archive
import SeisFeed.Session.Fault
import SeisFeed.Session.Feed
import SeisFeed.Session.Link
import SeisFeed.Session.Network
import SeisFeed.Session.Progress
import SeisFeed.Session.Resuming
import SeisFeed.Session.Retry
import SeisFeed.Session.Selection
import SeisFeed.Session.Settings
import SeisFeed.Session.Subscription
import SeisFeed.Text.Blank
import SeisFeed.Text.Caseless
import SeisFeed.Text.Extender
import SeisFeed.Text.Hex
import SeisFeed.Text.Quoted
import SeisFeed.Text.Unprintable
import SeisFeed.Text.Utf8
import SeisFeed.Time.Backoff
import SeisFeed.Time.Duration
import SeisFeed.Time.Nearest
import SeisFeed.Time.Stop
import SeisFeed.Time.Window
import SeisFeed.Waveform.Bundle
import SeisFeed.Waveform.Packet
import SeisFeed.Waveform.PacketHeader
import SeisFeed.Waveform.Rate
import SeisFeed.Waveform.Record
import SeisFeed.Wire.Cursor
import SeisFeed.Wire.Field
import SeisFeed.Wire.Word
