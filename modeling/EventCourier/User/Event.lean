import EventCourier.Envelope
import EventCourier.Metadata

/-!
# Events of user accounts

Ten things can happen to an account.  Each has a fact: the user, what happened with its details,
and when.  An event is a fact with its metadata, and travels in an envelope of the aggregate type
`User`.
-/

namespace EventCourier
namespace User

def aggregateType : String := "User"

inductive UserType where
  | customer
  | admin
  deriving DecidableEq, Repr

namespace UserType

def spelling : UserType → String
  | .customer => "CUSTOMER"
  | .admin => "ADMIN"

def ofSpelling? (s : String) : Option UserType :=
  if s = "CUSTOMER" then some .customer
  else if s = "ADMIN" then some .admin
  else none

theorem ofSpelling?_spelling (kind : UserType) : ofSpelling? kind.spelling = some kind := by
  cases kind <;> rfl

theorem spelling_of_ofSpelling? {s : String} {kind : UserType} (h : ofSpelling? s = some kind) :
    s = kind.spelling := by
  unfold ofSpelling? at h
  split at h
  · simp_all [spelling, ← Option.some.inj h]
  · split at h
    · simp_all [spelling, ← Option.some.inj h]
    · cases h

end UserType

inductive EventType where
  | created
  | deleted
  | passwordChanged
  | profileUpdated
  | addressAdded
  | addressUpdated
  | addressDeleted
  | withdrawn
  | deactivated
  | activated
  deriving DecidableEq, Repr

namespace EventType

/-- Every event type, in the order of the schemas. -/
def all : List EventType :=
  [.created, .deleted, .passwordChanged, .profileUpdated, .addressAdded, .addressUpdated,
    .addressDeleted, .withdrawn, .deactivated, .activated]

/-- What happened, as documents say it. -/
def variant : EventType → String
  | .created => "Created"
  | .deleted => "Deleted"
  | .passwordChanged => "PasswordChanged"
  | .profileUpdated => "ProfileUpdated"
  | .addressAdded => "AddressAdded"
  | .addressUpdated => "AddressUpdated"
  | .addressDeleted => "AddressDeleted"
  | .withdrawn => "Withdrawn"
  | .deactivated => "Deactivated"
  | .activated => "Activated"

/-- The name of an event type, as envelopes and schemas say it. -/
def name : EventType → String
  | .created => "UserCreated"
  | .deleted => "UserDeleted"
  | .passwordChanged => "UserPasswordChanged"
  | .profileUpdated => "UserProfileUpdated"
  | .addressAdded => "UserAddressAdded"
  | .addressUpdated => "UserAddressUpdated"
  | .addressDeleted => "UserAddressDeleted"
  | .withdrawn => "UserWithdrawn"
  | .deactivated => "UserDeactivated"
  | .activated => "UserActivated"

def ofName? (s : String) : Option EventType :=
  all.find? fun eventType => eventType.name == s

def ofVariant? (s : String) : Option EventType :=
  all.find? fun eventType => eventType.variant == s

theorem ofName?_name (eventType : EventType) : ofName? eventType.name = some eventType := by
  cases eventType <;> rfl

theorem name_of_ofName? {s : String} {eventType : EventType} (h : ofName? s = some eventType) :
    eventType.name = s := by
  simpa using List.find?_some h

end EventType

/-- A postal address; the parts without which it is complete may be absent. -/
structure Address where
  addressId : Uuid
  streetAddress : String
  /-- Apartment, floor and the like. -/
  detailAddress : Option String
  zipCode : String
  isDefault : Bool
  name : Option String
  city : Option String
  state : Option String
  country : Option String
  deriving DecidableEq

structure Registration where
  username : String
  email : String
  name : String
  phoneNumber : Option String
  userType : UserType
  deriving DecidableEq

/-- What happened to an account, with its details. -/
inductive Change where
  | created (registration : Registration)
  | deleted
  | passwordChanged
  | profileUpdated (name : String) (phoneNumber : Option String)
  | addressAdded (address : Address)
  | addressUpdated (address : Address)
  | addressDeleted (addressId : Uuid)
  | withdrawn
  | deactivated
  | activated
  deriving DecidableEq

def Change.eventType : Change → EventType
  | .created _ => .created
  | .deleted => .deleted
  | .passwordChanged => .passwordChanged
  | .profileUpdated .. => .profileUpdated
  | .addressAdded _ => .addressAdded
  | .addressUpdated _ => .addressUpdated
  | .addressDeleted _ => .addressDeleted
  | .withdrawn => .withdrawn
  | .deactivated => .deactivated
  | .activated => .activated

/-- What an event says: to whom what happened when. -/
structure Fact where
  userId : Uuid
  change : Change
  time : Instant
  deriving DecidableEq

def Fact.eventType (fact : Fact) : String := fact.change.eventType.name

structure Event where
  metadata : Metadata
  fact : Fact
  deriving DecidableEq

namespace Event

/-- The event of a fact, with the metadata that follow from it. -/
def ofFact (eventId : Uuid) (occurredAt : Instant) (fact : Fact) : Event where
  metadata := { eventId, eventType := fact.eventType, aggregateId := fact.userId, occurredAt }
  fact := fact

/-- The name of an event's type, by its fact. -/
def eventType (event : Event) : String := event.fact.eventType

def envelope (event : Event) (source : String) (payload : Bytes) : Envelope where
  eventId := event.metadata.eventId.toText
  timestamp := event.metadata.occurredAt
  source := source
  aggregateType := aggregateType
  aggregateId := event.metadata.aggregateId.toText
  eventType := event.eventType
  payload := payload

end Event
end User
end EventCourier
