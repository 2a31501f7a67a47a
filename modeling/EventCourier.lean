import EventCourier.Json.Values
import EventCourier.Limits.Settings
import EventCourier.Outbox.Staging
import EventCourier.User.Document
import EventCourier.User.Inbound
import EventCourier.Proofs.Layout
import EventCourier.Proofs.Payload.Canonical
import EventCourier.Proofs.Envelope.RoundTrip
import EventCourier.Proofs.Outbox.RoundTrip
import EventCourier.Proofs.Payload.Narrowing
import EventCourier.Proofs.Codec.Wrapping
import EventCourier.Proofs.Outbox.Identity
import EventCourier.Proofs.Outbox.Session
import EventCourier.Proofs.Limits.Raising
import EventCourier.Proofs.Payload.Cutting
import EventCourier.Proofs.User.Encoding
import EventCourier.Proofs.Payload.Versions
import EventCourier.Proofs.Envelope.Canonical
import EventCourier.Proofs.Outbox.Headers
import EventCourier.Proofs.Record.Respelling
import EventCourier.Proofs.User.Rebuilding
import EventCourier.Proofs.User.Refusal
import EventCourier.Proofs.Schema.Canonical
import EventCourier.Proofs.Registry.Filling
import EventCourier.Proofs.Wire.Places
import EventCourier.Proofs.Outbox.Stamping
import EventCourier.Proofs.Limits.Settings
import EventCourier.Proofs.Outbox.Config
import EventCourier.Proofs.Zigzag.Length
import EventCourier.Proofs.Envelope.Length
import EventCourier.Proofs.Varint.Outcomes
import EventCourier.Proofs.Envelope.Instants
import EventCourier.Proofs.Instant.Correspondence
