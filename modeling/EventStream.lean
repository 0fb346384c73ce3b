import EventStream.Cancellation.Step
import EventStream.Proofs.Client.Memory
import EventStream.Proofs.Delivery.Chunking
import EventStream.Proofs.Delivery.RoundTrip
import EventStream.Proofs.Delivery.Interruption
import EventStream.Proofs.Delivery.Bounded
import EventStream.Proofs.Delivery.Resumption
import EventStream.Proofs.Delivery.Failure
import EventStream.Proofs.Client.Refusal
import EventStream.Proofs.Cancellation.Latch
import EventStream.Proofs.Client.Sending
import EventStream.Proofs.Line.Edges
import EventStream.Proofs.Line.Sequence
import EventStream.Proofs.Event.History
import EventStream.Proofs.Event.Padding
import EventStream.Proofs.Event.ReconnectionTime
import EventStream.Proofs.Delivery.KeepAlive
import EventStream.Proofs.Client.Requested
import EventStream.Proofs.Client.Unchecked
import EventStream.Proofs.Line.Conservation
