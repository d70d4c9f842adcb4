import LogRelay.Main
import LogRelay.Proofs.List.Traverse
import LogRelay.Proofs.MessagePack.Grammar
import LogRelay.Proofs.Value.Structure
import LogRelay.Sink.Memory
import LogRelay.Proofs.MessagePack.Heads
import LogRelay.Proofs.MessagePack.Acceptance
import LogRelay.Proofs.Envelope.Meaning
import LogRelay.Proofs.Envelope.Spelling
import LogRelay.Proofs.MessagePack.Packing
import LogRelay.Proofs.Record.RoundTrip
import LogRelay.Relay.Pipeline
import LogRelay.Proofs.Wire.Frame
import LogRelay.Proofs.Wire.Connection
import LogRelay.Proofs.Worker.Running
import LogRelay.Proofs.Relay.Delivery
import LogRelay.Proofs.Record.Stability
import LogRelay.Proofs.Worker.Forwarding
import LogRelay.Proofs.Wire.Segmentation
import LogRelay.Wire.Puller
import LogRelay.Proofs.Wire.FanIn
import LogRelay.Proofs.Config.Bounds
import LogRelay.Proofs.Worker.Draining
import LogRelay.Proofs.Relay.Stopping
import LogRelay.Proofs.Relay.Life
import LogRelay.Proofs.Relay.Lifecycle
import LogRelay.Proofs.Relay.Handshake
import LogRelay.Proofs.Envelope.Verdict
import LogRelay.Proofs.Binary64.Rounding
import LogRelay.Proofs.Binary64.Places
import LogRelay.Proofs.Binary64.Shortest
import LogRelay.Proofs.Binary64.Notation
import LogRelay.Proofs.Template.Grammar
import LogRelay.Proofs.Template.Reading
import LogRelay.Proofs.Template.Rendering
import LogRelay.Proofs.Template.Composition
import LogRelay.Proofs.Record.Message
import LogRelay.Proofs.Wire.Closing
import LogRelay.Proofs.Envelope.Delimiting
import LogRelay.Proofs.Envelope.Lifting
import LogRelay.Proofs.Record.Deciding
import LogRelay.Proofs.Record.Extending
import LogRelay.Proofs.Worker.Termination
import LogRelay.Proofs.Template.Integers
import LogRelay.Proofs.Relay.Startup
import LogRelay.Proofs.Address.Forms
import LogRelay.Proofs.MessagePack.Effort
import LogRelay.Proofs.Config.Environment
