import EventCourier.Outbox.Staging
import EventCourier.Proofs.Result

/-!
# Sessions of staging

In a session, calls stage the events of one request after another over the same store.  Each call
comes to what its own events and its own connection say, whatever went before it.  The store gets
one batch for every call that staged something, in the order of the calls, and nothing else.
-/

namespace EventCourier
namespace Outbox

/-- The events of one request, each with the time at which its message is made. -/
structure Call where
  connection : Connection
  events : List (User.Event × Instant)
  correlationId : Uuid

namespace Call

/-- The outcome of the call and the store after it. -/
def stage (call : Call) (factory : Factory) (store : Store) :
    Except StagingError (List Message) × Store :=
  factory.stageAt call.connection store call.events call.correlationId

/-- The message of an event of the call. -/
def make (call : Call) (factory : Factory) (entry : User.Event × Instant) :
    Except CodecError Message :=
  factory.createMessageAt entry.2 entry.1 call.correlationId

/-- Why the first event that cannot be made into a message cannot be. -/
def refusal? (call : Call) (factory : Factory) : Option CodecError :=
  call.events.findSome? fun entry => error? (call.make factory entry)

/-- The batch of a call with an outcome, if it has one. -/
def batch? (call : Call) (outcome : Except StagingError (List Message)) : Option (List Message) :=
  match call.connection, outcome with
  | .working, .ok (first :: others) => some (first :: others)
  | _, _ => none

/-- What a call comes to. -/
structure ComesTo (call : Call) (factory : Factory)
    (outcome : Except StagingError (List Message)) : Prop where
  refused : ∀ cause, call.refusal? factory = some cause → outcome = .error (.codec cause)
  empty : call.events = [] → outcome = .ok []
  unreachable : call.refusal? factory = none → call.events ≠ [] → call.connection = .refused →
    ∃ reason, outcome = .error (.infrastructure reason)
  staged : call.refusal? factory = none → call.events ≠ [] → call.connection = .working →
    ∃ messages, outcome = .ok messages ∧
      List.Forall₂ (fun entry message => call.make factory entry = .ok message)
        call.events messages

section Step

variable {factory : Factory} {store : Store} {call : Call}

/-- All that a call can do: an event is refused, there are none, the connection is refused, or the
messages of all events become a batch. -/
theorem stage_cases :
    (∃ cause, call.refusal? factory = some cause ∧
      call.stage factory store = (.error (.codec cause), store)) ∨
    (call.events = [] ∧ call.refusal? factory = none ∧
      call.stage factory store = (.ok [], store)) ∨
    (call.events ≠ [] ∧ call.refusal? factory = none ∧ call.connection = .refused ∧
      ∃ reason, call.stage factory store = (.error (.infrastructure reason), store)) ∨
    (call.events ≠ [] ∧ call.refusal? factory = none ∧ call.connection = .working ∧
      ∃ first others,
        List.Forall₂ (fun entry message => call.make factory entry = .ok message)
          call.events (first :: others) ∧
        call.stage factory store =
          (.ok (first :: others), { batches := store.batches ++ [first :: others] })) := by
  have hrefusal : call.refusal? factory = error? (call.events.mapM (call.make factory)) :=
    error?_mapM.symm
  have hmake : (call.events.mapM fun entry =>
      factory.createMessageAt entry.2 entry.1 call.correlationId) =
        call.events.mapM (call.make factory) := rfl
  cases hmade : call.events.mapM (call.make factory) with
  | error cause =>
      rw [hmade] at hrefusal hmake
      exact .inl ⟨cause, hrefusal, by simp [stage, Factory.stageAt, hmake]⟩
  | ok batch =>
      rw [hmade] at hrefusal hmake
      have hmessages := mapM_eq_ok_iff.mp hmade
      cases batch with
      | nil =>
          have hempty := List.forall₂_nil_right_iff.mp hmessages
          exact .inr (.inl ⟨hempty, hrefusal, by simp [stage, Factory.stageAt, hmake]⟩)
      | cons first others =>
          have hnonempty : call.events ≠ [] := by
            intro hempty
            rw [hempty] at hmessages
            cases hmessages
          cases hconnection : call.connection with
          | refused =>
              obtain ⟨reason, happend⟩ : ∃ reason, store.append .refused (first :: others) =
                  .error (.infrastructure reason) := ⟨_, rfl⟩
              refine .inr (.inr (.inl ⟨hnonempty, hrefusal, rfl, reason, ?_⟩))
              simp only [stage, Factory.stageAt, hmake, hconnection, happend]
          | working =>
              refine .inr (.inr (.inr ⟨hnonempty, hrefusal, rfl, first, others, hmessages, ?_⟩))
              simp only [stage, Factory.stageAt, hmake, hconnection, Store.append]

theorem comesTo_stage (call : Call) (factory : Factory) (store : Store) :
    call.ComesTo factory (call.stage factory store).1 := by
  obtain ⟨cause, hrefusal, hstage⟩ | ⟨hempty, hrefusal, hstage⟩ |
    ⟨hnonempty, hrefusal, hconnection, reason, hstage⟩ |
    ⟨hnonempty, hrefusal, hconnection, first, others, hmessages, hstage⟩ :=
    @stage_cases factory store call
  · have hnonempty : call.events ≠ [] := by
      intro hempty
      simp [refusal?, hempty] at hrefusal
    constructor <;> simp [hstage, hrefusal, hnonempty]
  · constructor <;> simp [hstage, hrefusal, hempty]
  · constructor <;> simp [hstage, hrefusal, hnonempty, hconnection]
  · constructor <;> simp [hstage, hrefusal, hnonempty, hconnection, hmessages]

/-- A call appends its batch as a whole, or leaves the store as it was. -/
theorem batches_stage (call : Call) (factory : Factory) (store : Store) :
    (call.stage factory store).2.batches =
      store.batches ++ (call.batch? (call.stage factory store).1).toList := by
  obtain ⟨cause, _, hstage⟩ | ⟨_, _, hstage⟩ | ⟨_, _, _, reason, hstage⟩ |
    ⟨_, _, hconnection, first, others, _, hstage⟩ := @stage_cases factory store call
  · simp [hstage, batch?]
  · simp [hstage, batch?]
  · simp [hstage, batch?]
  · simp [hstage, hconnection, batch?]

end Step

end Call

namespace Factory

/-- The outcomes of calls made one after another, and the store after the last. -/
def session (factory : Factory) (store : Store) :
    List Call → List (Except StagingError (List Message)) × Store
  | [] => ([], store)
  | call :: rest =>
    let (outcome, after) := call.stage factory store
    let (outcomes, last) := factory.session after rest
    (outcome :: outcomes, last)

/-- Every call of a session comes to what its own events and connection say, and the batches that
are in the store after it are those that were there before and, in the order of the calls, one for
each call that staged events over a connection that works. -/
theorem session_allOrNothing (factory : Factory) (store : Store) (calls : List Call) :
    List.Forall₂ (fun call outcome => call.ComesTo factory outcome)
        calls (factory.session store calls).1 ∧
      (factory.session store calls).2.batches = store.batches ++
        (calls.zip (factory.session store calls).1).filterMap
          fun (call, outcome) => call.batch? outcome := by
  -- For every store: the calls that are left go on from what the first one leaves.
  induction calls generalizing store with
  | nil => simp [session]
  | cons call rest ih =>
      obtain ⟨houtcomes, hbatches⟩ := ih (call.stage factory store).2
      refine ⟨.cons (call.comesTo_stage factory store) houtcomes, ?_⟩
      simp only [session, List.zip_cons_cons]
      rw [hbatches, call.batches_stage]
      cases hbatch : call.batch? (call.stage factory store).1 with
      | none => simp [hbatch]
      | some batch => simp [hbatch]

end Factory
end Outbox
end EventCourier
