import EventCourier.Outbox.Message

/-!
# Staging events in the outbox

The events of one request are staged together: all their messages are made before any is appended,
and they are appended as one batch.  An event that cannot be encoded, or a store that cannot be
reached, leaves the outbox as it was.
-/

namespace EventCourier
namespace Outbox

inductive StagingError where
  | codec (cause : CodecError)
  | infrastructure (reason : String)
  deriving DecidableEq, Repr

def StagingError.message : StagingError → String
  | .codec cause => cause.message
  | .infrastructure reason => "infrastructure error: " ++ reason

/-- The batches that were appended, in order. -/
structure Store where
  batches : List (List Message) := []

/-- Every message that was appended, in order. -/
def Store.messages (store : Store) : List Message := store.batches.flatten

inductive Connection where
  | working
  | refused
  deriving DecidableEq, Repr

/-- Appends a batch, over a connection that works. -/
def Store.append (store : Store) (connection : Connection) (batch : List Message) :
    Except StagingError Store :=
  match connection with
  | .working => .ok { batches := store.batches ++ [batch] }
  | .refused => .error (.infrastructure "connection refused")

/-- The message that an event makes when the clock of the factory shows a time. -/
def Factory.createMessageAt (factory : Factory) (now : Instant) (event : User.Event)
    (correlationId : Uuid) : Except CodecError Message :=
  { factory with now }.createMessage event correlationId

/-- Stages events that belong to one request, each with the time at which its message is made: the
messages and the store after them.  No events make no batch. -/
def Factory.stageAt (factory : Factory) (connection : Connection) (store : Store)
    (events : List (User.Event × Instant)) (correlationId : Uuid) :
    Except StagingError (List Message) × Store :=
  match events.mapM fun entry => factory.createMessageAt entry.2 entry.1 correlationId with
  | .error cause => (.error (.codec cause), store)
  | .ok [] => (.ok [], store)
  | .ok batch =>
    match store.append connection batch with
    | .ok appended => (.ok batch, appended)
    | .error cause => (.error cause, store)

/-- Stages events while the clock of the factory stands still. -/
def Factory.stage (factory : Factory) (connection : Connection) (store : Store)
    (events : List User.Event) (correlationId : Uuid) :
    Except StagingError (List Message) × Store :=
  factory.stageAt connection store (events.map fun event => (event, factory.now)) correlationId

end Outbox
end EventCourier
