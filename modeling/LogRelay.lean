import LogRelay.Frame.Supply
import LogRelay.Main
import LogRelay.Metrics.Reporter
import LogRelay.Proofs.Reading.Log
import LogRelay.Proofs.Reading.Verdict
import LogRelay.Proofs.Reading.Transition
import LogRelay.Proofs.Reading.Scene
import LogRelay.Proofs.Reading.Tracking
import LogRelay.Proofs.Reading.Soundness
import LogRelay.Proofs.Reading.Extent
import LogRelay.Proofs.Reading.Progress
import LogRelay.Proofs.Reading.Ending
import LogRelay.Proofs.Reading.Delivery
import LogRelay.Proofs.Entry.Payload
import LogRelay.Proofs.Reading.Consumption
import LogRelay.Proofs.Stream.Segmentation
import LogRelay.Proofs.Calendar.Date
import LogRelay.Proofs.Calendar.Timestamp
import LogRelay.Proofs.Frame.Entries
import LogRelay.Proofs.Frame.Truncation
import LogRelay.Proofs.Stream.Publication
import LogRelay.Proofs.Json.Strings
import LogRelay.Proofs.Json.Objects
import LogRelay.Proofs.Record.Document
import LogRelay.Proofs.Reading.Storage
import LogRelay.Proofs.Reading.Roundtrip
import LogRelay.Proofs.Reading.Prefix
import LogRelay.Proofs.Reading.Overrun
import LogRelay.Proofs.Stream.Intake
import LogRelay.Proofs.Stream.Session
import LogRelay.Proofs.Stream.Flush
import LogRelay.Proofs.Stream.Drain
import LogRelay.Proofs.Stream.Likeness
import LogRelay.Proofs.Reading.Follow
import LogRelay.Proofs.Reading.Announcement
import LogRelay.Proofs.Reading.Shutdown
import LogRelay.Proofs.Reading.Closing
import LogRelay.Proofs.Reading.Release
import LogRelay.Proofs.Reading.Consumers
import LogRelay.Proofs.Reading.Opening
import LogRelay.Proofs.Service.Start
import LogRelay.Proofs.Service.Fleet
import LogRelay.Proofs.Service.Schedule
import LogRelay.Proofs.Stream.Refusal
import LogRelay.Proofs.Stream.Disposal
import LogRelay.Proofs.Service.Halt
import LogRelay.Proofs.Publishing.Accounts
import LogRelay.Proofs.Service.Description
import LogRelay.Proofs.Service.Answers
import LogRelay.Proofs.Text.Decoding
import LogRelay.Proofs.Entry.Size
import LogRelay.Proofs.Frame.Chunks
import LogRelay.Proofs.Record.Return
import LogRelay.Proofs.Reading.Tap
import LogRelay.Proofs.Reading.Bytes
import LogRelay.Proofs.Reading.Reception
import LogRelay.Proofs.Frame.Residue
import LogRelay.Proofs.Stream.Grouping
import LogRelay.Proofs.Entry.Precedence
import LogRelay.Proofs.Calendar.Acceptance
import LogRelay.Proofs.Record.Passage
import LogRelay.Proofs.Reading.Tail
import LogRelay.Proofs.Settings.Precedence
import LogRelay.Proofs.Service.Topic
import LogRelay.Proofs.Metrics.Reporting
