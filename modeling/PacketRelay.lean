import PacketRelay.Buffer
import PacketRelay.Cancellation
import PacketRelay.Counters
import PacketRelay.Decoder
import PacketRelay.Decoder.Scripted
import PacketRelay.Decoder.Slice
import PacketRelay.Fault
import PacketRelay.Feed
import PacketRelay.Feed.Scripted
import PacketRelay.Feed.Synthetic
import PacketRelay.Flags
import PacketRelay.FrameRate
import PacketRelay.Handler
import PacketRelay.Nal
import PacketRelay.Packet
import PacketRelay.Proofs.Decoder
import PacketRelay.Proofs.Feed
import PacketRelay.Proofs.Feed.Synthetic
import PacketRelay.Proofs.FrameRate
import PacketRelay.Proofs.Nal.Bits
import PacketRelay.Proofs.Nal.Framing
import PacketRelay.Proofs.Packet.Assembly
import PacketRelay.Proofs.Packet.Capacity
import PacketRelay.Proofs.Packet.Description
import PacketRelay.Proofs.Packet.Edit
import PacketRelay.Proofs.Packet.Unit
import PacketRelay.Proofs.Queue.Fifo
import PacketRelay.Proofs.Queue.Lone
import PacketRelay.Proofs.Queue.Quiet
import PacketRelay.Proofs.Queue.Renaming
import PacketRelay.Proofs.Queue.Wakeup
import PacketRelay.Proofs.Record
import PacketRelay.Proofs.Relay.Access
import PacketRelay.Proofs.Relay.Accounts
import PacketRelay.Proofs.Relay.Aftermath
import PacketRelay.Proofs.Relay.Backpressure
import PacketRelay.Proofs.Relay.Conservation
import PacketRelay.Proofs.Relay.Control
import PacketRelay.Proofs.Relay.Delivery
import PacketRelay.Proofs.Relay.Desk
import PacketRelay.Proofs.Relay.Enrolment
import PacketRelay.Proofs.Relay.Erasure
import PacketRelay.Proofs.Relay.Frame
import PacketRelay.Proofs.Relay.Halt
import PacketRelay.Proofs.Relay.Handling
import PacketRelay.Proofs.Relay.Handout
import PacketRelay.Proofs.Relay.Holder
import PacketRelay.Proofs.Relay.Intake
import PacketRelay.Proofs.Relay.Invisible
import PacketRelay.Proofs.Relay.Keeper
import PacketRelay.Proofs.Relay.Lineup
import PacketRelay.Proofs.Relay.Lockstep
import PacketRelay.Proofs.Relay.Membership
import PacketRelay.Proofs.Relay.Notes
import PacketRelay.Proofs.Relay.Numbering
import PacketRelay.Proofs.Relay.Observation
import PacketRelay.Proofs.Relay.Origin
import PacketRelay.Proofs.Relay.Publishing
import PacketRelay.Proofs.Relay.Reduction
import PacketRelay.Proofs.Relay.Refusal
import PacketRelay.Proofs.Relay.Regular
import PacketRelay.Proofs.Relay.Report
import PacketRelay.Proofs.Relay.Restart
import PacketRelay.Proofs.Relay.Roster
import PacketRelay.Proofs.Relay.Round
import PacketRelay.Proofs.Relay.Signals
import PacketRelay.Proofs.Relay.Stream
import PacketRelay.Proofs.Relay.Sweep
import PacketRelay.Proofs.Relay.Vain
import PacketRelay.Proofs.Task.Access
import PacketRelay.Proofs.Task.Beside
import PacketRelay.Proofs.Task.Cancel
import PacketRelay.Proofs.Task.Coherent
import PacketRelay.Proofs.Task.Exit
import PacketRelay.Proofs.Task.Handle
import PacketRelay.Proofs.Task.Life
import PacketRelay.Proofs.Task.Release
import PacketRelay.Proofs.Task.Rest
import PacketRelay.Proofs.Task.Sole
import PacketRelay.Proofs.Task.Threads
import PacketRelay.Proofs.Task.Tokens
import PacketRelay.Proofs.TimeBase
import PacketRelay.Proofs.Worker.Custody
import PacketRelay.Proofs.Worker.Finish
import PacketRelay.Proofs.Worker.Ledger
import PacketRelay.Proofs.Worker.Owner
import PacketRelay.Proofs.Worker.Retire
import PacketRelay.Queue
import PacketRelay.Queue.Session
import PacketRelay.Relay
import PacketRelay.Relay.Calls
import PacketRelay.Relay.Fanout
import PacketRelay.Relay.Machine
import PacketRelay.Relay.Reading
import PacketRelay.Schedule
import PacketRelay.Settings
import PacketRelay.Station
import PacketRelay.Station.Session
import PacketRelay.Stream
import PacketRelay.Subscriber
import PacketRelay.Task
import PacketRelay.Task.Script
import PacketRelay.Task.Session
import PacketRelay.Text.Fixed
import PacketRelay.Text.Invisible
import PacketRelay.Text.Quoted
import PacketRelay.Text.Record
import PacketRelay.TimeBase
import PacketRelay.Worker
import PacketRelay.Worker.Scripted
