import ChatScale.MessageStoreProgress
import ChatScale.MessageStoreReplay

/-!
# Every frame gets one answer

A handler puts exactly one frame on `Send` and returns without an error. The
frame is earned: a rejection says that the handler has written nothing, an
acknowledgement is that of a committed row. For the second, a stored row has to
pass the check of the acknowledgement, also after its time went through the
column; a clock that reads times after 1970 is far enough from the zero time.
-/

namespace ChatScale.IngestReplies

open ChatScale.ByteText ChatScale.CivilTime ChatScale.TransitionSystem
open ChatScale.MessageContract ChatScale.MessageId
open ChatScale.MessageStoreModel (Columns Input MessageRow Call Outcome Path newCall readRow)
open ChatScale.MessageStoreStatements ChatScale.MessageStoreInvariants
open ChatScale.MessageStoreIdempotency ChatScale.MessageStoreContents
open ChatScale.MessageStoreProgress ChatScale.MessageStoreReplay ChatScale.IngestModel

set_option autoImplicit false

/-- The instant of 1 January 1970, 00:00 UTC. -/
def unixEpoch : Int := 62135596800 * 1000000000

def AfterEpoch (time : Stamp) : Prop := unixEpoch < time.instant

instance (time : Stamp) : Decidable (AfterEpoch time) := by
  unfold AfterEpoch
  infer_instance

/-- The context is not cancelled, a failed commit has not committed, and the
clock reads times after 1970. -/
def Undisturbed {Caller : Type} (_ : System Caller) (action : Action Caller) : Prop :=
  match action.move with
  | .cancel => False
  | .accept .loseCommit => False
  | .accept (.run _ clock) => AfterEpoch clock.time
  | _ => True

instance {Caller : Type} (system : System Caller) (action : Action Caller) :
    Decidable (Undisturbed system action) := by
  unfold Undisturbed
  split <;> infer_instance

section Frames

theorem enqueue_encodes {frame : Frame} (encodes : frame.encodes = true) :
    enqueue frame = .enqueuing frame := if_pos encodes

theorem enqueue_eq {frame reply : Frame} (same : enqueue frame = .enqueuing reply) :
    frame = reply := by
  unfold enqueue at same
  split at same
  · exact Stage.enqueuing.inj same
  · cases same

theorem enqueue_rejected {errorCode : Bytes} (named : isBlank errorCode = false)
    (clientMessageID : Bytes) : enqueueRejected clientMessageID errorCode =
      .enqueuing (.rejected (rejectedAck clientMessageID errorCode)) := by
  have valid : (rejectedAck clientMessageID errorCode).validate = .ok () := by
    simp only [RejectedAck.validate, rejectedAck, require_then, require_ok, beq_self_eq_true,
      named, Bool.not_false, and_self]
  rw [enqueueRejected, valid]
  rfl

theorem enqueue_invalid (clientMessageID : Bytes) :
    enqueueRejected clientMessageID invalidRequestErrorCode =
      .enqueuing (.rejected (rejectedAck clientMessageID invalidRequestErrorCode)) :=
  enqueue_rejected (by decide +kernel) clientMessageID

theorem enqueue_not_accepted (clientMessageID : Bytes) :
    enqueueRejected clientMessageID notAcceptedErrorCode =
      .enqueuing (.rejected (rejectedAck clientMessageID notAcceptedErrorCode)) :=
  enqueue_rejected (by decide +kernel) clientMessageID

/-- The frame has no request, or one that fails its check. -/
def Invalid (frame : Received) : Prop :=
  unmarshalSendRequest frame.data = none ∨
    ∃ request message, unmarshalSendRequest frame.data = some request ∧
      request.validate = .error message

theorem handle_invalid {frame : Received} (invalid : Invalid frame) :
    handleMessage frame = .enqueuing (.rejected
      (rejectedAck (requestOf frame).clientMessageID invalidRequestErrorCode)) := by
  rcases invalid with unread | ⟨request, message, read, failed⟩
  · simp only [handleMessage, requestOf, unread, enqueue_invalid, Option.getD_none]
  · simp only [handleMessage, requestOf, read, failed, enqueue_invalid, Option.getD_some]

/-- Before it calls the store, a handler can only reject. -/
theorem handle_message_cases (frame : Received) :
    handleMessage frame = .accepting ∨ ∃ ack, handleMessage frame = .enqueuing (.rejected ack) := by
  unfold handleMessage
  split
  · exact .inr ⟨_, enqueue_invalid _⟩
  · split
    · exact .inr ⟨_, enqueue_invalid _⟩
    · split
      · exact .inr ⟨_, enqueue_not_accepted _⟩
      · exact .inl rfl

/-- An answer is an acknowledgement that passed its check, or a rejection. -/
theorem answer_cases (request : SendRequest) (outcome : Outcome) :
    (∃ path event, outcome = .accepted path event ∧ (acceptedAck event).validate = .ok () ∧
      answer request outcome = enqueue (.accepted (acceptedAck event))) ∨
    ((∀ path event, outcome = .accepted path event → (acceptedAck event).validate ≠ .ok ()) ∧
      ∃ ack, answer request outcome = .enqueuing (.rejected ack)) := by
  cases outcome with
  | failed failure =>
      rw [answer, enqueue_not_accepted]
      refine .inr ⟨?_, _, rfl⟩
      intro _ _ same
      cases same
  | accepted path event =>
      simp only [answer]
      split
      · rename_i message failed
        rw [enqueue_not_accepted]
        refine .inr ⟨?_, _, rfl⟩
        intro _ _ same valid
        cases same
        rw [failed] at valid
        cases valid
      · rename_i valid
        exact .inl ⟨path, event, rfl, valid, rfl⟩

theorem answer_enqueues (request : SendRequest) {outcome : Outcome}
    (spelled : ∀ path event, outcome = .accepted path event → event.createdAt.encodes = true) :
    ∃ reply, answer request outcome = .enqueuing reply := by
  rcases answer_cases request outcome with ⟨path, event, same, _, answered⟩ | ⟨_, _, answered⟩
  · exact ⟨_, answered.trans (enqueue_encodes (spelled path event same))⟩
  · exact ⟨_, answered⟩

end Frames

section Rows

variable {Caller : Type} {clocks : Stamp → Prop} {columns : Columns} {inputs : Caller → Input}
  {state : MessageStoreModel.State Caller}

theorem accepted_validate_ok {ack : AcceptedAck} : ack.validate = .ok () ↔
    ack.type = acceptedFrameType ∧ ack.version = version ∧ isBlank ack.messageID = false ∧
      isBlank ack.clientMessageID = false ∧ isBlank ack.roomID = false ∧ 1 ≤ ack.roomSeq ∧
      ack.createdAt.isZero = false := by
  simp only [AcceptedAck.validate, require_then, require_ok, beq_iff_eq, Bool.not_eq_true',
    decide_eq_true_eq]

theorem accepted_ack_of_valid {event : Event} (valid : event.validate = .ok ()) :
    (acceptedAck event).validate = .ok () := by
  obtain ⟨_, message, client, room, seq, time, _⟩ := event_validate_ok.mp valid
  exact accepted_validate_ok.mpr ⟨rfl, rfl, message, client, room, seq, time⟩

/-- Every row of `messages` was written for an event of some call, with an
outbox row next to it. -/
theorem row_written (known : OriginsKnown clocks columns inputs state) {row : MessageRow}
    (listed : row ∈ state.db.messages) :
    ∃ caller event, ∃ stored ∈ state.db.outbox,
      Writes columns (inputs caller) row (OutboxRelayModel.entryOf stored) event := by
  have keyed : messageKey row ∈ state.db.outbox.map outboxKey := by
    rw [known.store.database.outboxKeys]
    exact List.mem_map_of_mem listed
  obtain ⟨stored, storedListed, sameKey⟩ := List.mem_map.mp keyed
  obtain ⟨caller, event, message, messageListed, writes⟩ :=
    known.contents.rows stored storedListed
  -- the row the event was written to has the id of the outbox row, so it is this row
  have sameID : message.messageID = row.messageID := by
    obtain ⟨id, payload, drafted, _, rfl⟩ := writes.message
    obtain ⟨_, _, _, _, entry⟩ := writes.entry
    have named : stored.messageID.text = event.messageID :=
      congrArg OutboxRelayModel.Entry.messageID entry
    have text : id.text = stored.messageID.text := drafted.named.symm.trans named.symm
    exact (text_injective text).trans (congrArg Prod.fst sameKey)
  obtain rfl : message = row :=
    List.inj_on_of_nodup_map known.store.database.ids messageListed listed sameID
  exact ⟨caller, event, stored, storedListed, writes⟩

theorem kept_not_zero (micros : KeepsMicroseconds columns) {time : Stamp}
    (after : AfterEpoch time) : (columns.timestamptz time.toTime).isZero = false := by
  have near := abs_lt.mp (micros.near time)
  have positive : 1000 < time.instant := by
    unfold AfterEpoch unixEpoch at after
    omega
  rw [Time.isZero, beq_eq_false_iff_ne]
  omega

/-- A row passes the check of the acknowledgement when it is read back. -/
theorem read_row_valid (micros : KeepsMicroseconds columns)
    (known : OriginsKnown AfterEpoch columns inputs state) {row : MessageRow}
    (listed : row ∈ state.db.messages) : (acceptedAck (readRow row)).validate = .ok () := by
  obtain ⟨time, after, stamped⟩ := known.rows row listed
  obtain ⟨caller, event, _, _, writes⟩ := row_written known listed
  obtain ⟨id, payload, drafted, _, rfl⟩ := writes.message
  obtain ⟨_, _, client, room, seq, _, _⟩ := event_validate_ok.mp drafted.valid
  refine accepted_validate_ok.mpr ⟨rfl, rfl, text_not_blank id, client, room, seq, ?_⟩
  have kept := kept_not_zero micros after
  rw [← stamped] at kept
  exact kept

/-- Whatever the store accepts passes the check of the acknowledgement. -/
theorem accepted_event_acknowledged (micros : KeepsMicroseconds columns)
    (known : OriginsKnown AfterEpoch columns inputs state) {caller : Caller} {path : Path}
    {event : Event} (done : (state.calls caller).stage = .done (.accepted path event)) :
    (acceptedAck event).validate = .ok () := by
  have origin := (known.calls caller).stage
  rw [done] at origin
  by_cases inserted : path = .inserted
  · have content := known.contents.calls caller
    unfold ContentSound at content
    rw [done, inserted] at content
    obtain ⟨_, _, _, _, writes⟩ := content
    obtain ⟨_, _, drafted, _⟩ := writes.message
    exact accepted_ack_of_valid drafted.valid
  · obtain ⟨row, listed, _, rfl⟩ := origin inserted
    exact read_row_valid micros known listed

end Rows

section Calls

variable {Caller : Type} {columns : Columns} {frames : Caller → Received}
  {system after : System Caller}

def inputsOf (frames : Caller → Received) (caller : Caller) : Input := inputOf (frames caller)

/-- The step of the store, if a step is one. -/
def storeAction (action : Action Caller) : Option (MessageStoreModel.Action Caller) :=
  match action.move with
  | .accept move => some ⟨action.caller, move⟩
  | _ => none

variable [DecidableEq Caller] [Fintype Caller]

theorem other_step_store {action : Action Caller} (other : storeAction action = none)
    (stepped : step columns frames system action = some after) :
    after.store = system.store := by
  cases step_cases stepped with
  | accept => cases other
  | _ => rfl

theorem accept_step_store {action : Action Caller} {store : MessageStoreModel.Action Caller}
    (shown : storeAction action = some store)
    (stepped : step columns frames system action = some after) :
    MessageStoreModel.step columns (inputsOf frames) system.store store = some after.store := by
  cases step_cases stepped with
  | accept stage storeStepped =>
      cases shown
      exact storeStepped
  | _ => cases shown

/-- The handlers drive the store as any callers do. -/
theorem store_reachable {allowed : System Caller → Action Caller → Prop}
    (reached : Reachable (step columns frames) allowed initial system) :
    Reachable (MessageStoreModel.step columns (inputsOf frames)) anyStep
      MessageStoreModel.initial system.store := by
  obtain ⟨trace, run⟩ := reached
  exact ⟨_, run_projection System.store storeAction
    (fun _ _ _ other stepped => other_step_store other stepped)
    (fun _ _ _ _ shown _ stepped => ⟨trivial, accept_step_store shown stepped⟩) run⟩

/-- What the store answers to a handler can be put into a frame. -/
theorem outcome_spelled {allowed : System Caller → Action Caller → Prop}
    (reached : Reachable (step columns frames) allowed initial system) {caller : Caller}
    {outcome : Outcome} (done : (system.store.calls caller).stage = .done outcome) (path : Path)
    (event : Event) (accepted : outcome = .accepted path event) :
    event.createdAt.encodes = true := by
  subst accepted
  exact exact_encodes (accepted_spelled (store_reachable reached) done)

end Calls

section Handlers

variable {Caller : Type} {columns : Columns} {frames : Caller → Received}
  {system after : System Caller} {caller : Caller}

/-- Why a handler puts a frame on `Send`: it has rejected before it called the
store, or it repeats the answer of the store. -/
def Chosen (frame : Received) (call : Call) (reply : Frame) : Prop :=
  (handleMessage frame = .enqueuing reply ∧ call = newCall) ∨
    (handleMessage frame = .accepting ∧ ∃ outcome, call.stage = .done outcome ∧
      answer (requestOf frame) outcome = .enqueuing reply)

/-- Where a handler is, together with its call of the store and what it has
sent. -/
def HandlerSound (frame : Received) (call : Call) (sent : List (Frame × Bytes)) : Stage → Prop
  | .received => call = newCall ∧ sent = []
  | .accepting => handleMessage frame = .accepting ∧ sent = []
  | .enqueuing reply => Chosen frame call reply ∧ sent = []
  | .returned none => ∃ reply, Chosen frame call reply ∧ sent = [(reply, reply.marshal)]
  | .returned (some error) => error = .cancelled ∧ (∃ reply, Chosen frame call reply) ∧ sent = []

def HandlersSound (frames : Caller → Received) (system : System Caller) : Prop :=
  ∀ caller, HandlerSound (frames caller) (system.store.calls caller) (system.sent caller)
    (system.handlers caller)

/-- What is known of a handler at a stage. -/
theorem handler_at (sound : HandlersSound frames system) {stage : Stage}
    (reached : system.handlers caller = stage) :
    HandlerSound (frames caller) (system.store.calls caller) (system.sent caller) stage :=
  reached ▸ sound caller

/-- A handler that has sent a frame has chosen it and returned. -/
theorem sent_chosen (sound : HandlersSound frames system) {reply : Frame} {text : Bytes}
    (listed : (reply, text) ∈ system.sent caller) :
    Chosen (frames caller) (system.store.calls caller) reply := by
  cases stage : system.handlers caller with
  | received | accepting | enqueuing =>
      rw [(handler_at sound stage).2] at listed
      cases listed
  | returned error =>
      cases error with
      | none =>
          obtain ⟨other, chosen, sent⟩ := handler_at sound stage
          rw [sent, List.mem_singleton] at listed
          cases listed
          exact chosen
      | some error =>
          rw [(handler_at sound stage).2.2] at listed
          cases listed

variable [DecidableEq Caller]

theorem handlers_goto (sound : HandlersSound frames system) {stage : Stage}
    (own : HandlerSound (frames caller) (system.store.calls caller) (system.sent caller) stage) :
    HandlersSound frames (system.goto caller stage) := by
  intro other
  by_cases same : other = caller
  · subst same
    simpa only [System.goto, Function.update_self] using own
  · simpa only [System.goto, Function.update_of_ne same] using sound other

theorem handlers_send (sound : HandlersSound frames system) {reply : Frame}
    (chosen : Chosen (frames caller) (system.store.calls caller) reply)
    (fresh : system.sent caller = []) : HandlersSound frames (system.send caller reply) := by
  intro other
  by_cases same : other = caller
  · subst same
    simp only [System.send, Function.update_self, fresh, List.nil_append]
    exact ⟨reply, chosen, rfl⟩
  · simpa only [System.send, Function.update_of_ne same] using sound other

variable [Fintype Caller]

/-- A call of the store moves only while its handler waits for it. -/
theorem handlers_accept {move : MessageStoreModel.Move} {store : MessageStoreModel.State Caller}
    (sound : HandlersSound frames system) (stage : system.handlers caller = .accepting)
    (stepped : MessageStoreModel.step columns (fun caller => inputOf (frames caller))
      system.store ⟨caller, move⟩ = some store) :
    HandlersSound frames { system with store := store } := by
  obtain ⟨effect, _, rfl⟩ := Option.map_eq_some_iff.mp stepped
  intro other
  by_cases same : other = caller
  · subst same
    have own := handler_at sound stage
    dsimp only
    rw [stage]
    exact own
  · simpa only [Function.update_of_ne same] using sound other

theorem step_handlers {allowed : System Caller → Action Caller → Prop} {action : Action Caller}
    (reached : Reachable (step columns frames) allowed initial system)
    (sound : HandlersSound frames system)
    (stepped : step columns frames system action = some after) : HandlersSound frames after := by
  cases step_cases stepped with
  | @receive caller stage =>
      obtain ⟨fresh, silent⟩ := handler_at sound stage
      apply handlers_goto sound
      rcases handle_message_cases (frames caller) with accepting | ⟨ack, rejecting⟩
      · rw [accepting]
        exact ⟨accepting, silent⟩
      · rw [rejecting]
        exact ⟨.inl ⟨rejecting, fresh⟩, silent⟩
  | accept stage storeStepped => exact handlers_accept sound stage storeStepped
  | @answer caller outcome stage done =>
      obtain ⟨called, silent⟩ := handler_at sound stage
      obtain ⟨reply, answered⟩ :=
        answer_enqueues (requestOf (frames caller)) (outcome_spelled reached done)
      apply handlers_goto sound
      rw [answered]
      exact ⟨.inr ⟨called, outcome, done, answered⟩, silent⟩
  | enqueue stage =>
      obtain ⟨chosen, silent⟩ := handler_at sound stage
      exact handlers_send sound chosen silent
  | cancel stage =>
      obtain ⟨chosen, silent⟩ := handler_at sound stage
      exact handlers_goto sound ⟨rfl, ⟨_, chosen⟩, silent⟩

theorem reachable_handlers {allowed : System Caller → Action Caller → Prop}
    (reached : Reachable (step columns frames) allowed initial system) :
    HandlersSound frames system := by
  have fresh : HandlersSound frames (initial : System Caller) := fun _ => ⟨rfl, rfl⟩
  exact reachable_induction (HandlersSound frames) fresh
    (fun _ _ _ prior sound _ stepped => step_handlers prior sound stepped) reached

/-- A handler whose context is not cancelled returns no error. -/
theorem reachable_uncancelled
    (reached : Reachable (step columns frames) Undisturbed initial system) (caller : Caller) :
    system.handlers caller ≠ .returned (some .cancelled) := by
  have goes {before : System Caller} {mover : Caller} {stage : Stage}
      (prior : ∀ caller, before.handlers caller ≠ .returned (some .cancelled))
      (next : stage ≠ .returned (some .cancelled)) :
      ∀ caller, Function.update before.handlers mover stage caller ≠
        .returned (some .cancelled) := by
    intro other
    by_cases same : other = mover
    · subst same
      rwa [Function.update_self]
    · rw [Function.update_of_ne same]
      exact prior other
  revert caller
  refine reachable_invariant
    (fun system : System Caller => ∀ caller, system.handlers caller ≠ .returned (some .cancelled))
    (fun _ => Stage.noConfusion) ?_ reached
  intro before action after prior permitted stepped
  cases step_cases stepped with
  | @receive caller stage =>
      apply goes prior
      rcases handle_message_cases (frames caller) with handled | ⟨_, handled⟩
      · rw [handled]
        exact Stage.noConfusion
      · rw [handled]
        exact Stage.noConfusion
  | accept => exact prior
  | @answer caller outcome =>
      apply goes prior
      rcases answer_cases (requestOf (frames caller)) outcome with
        ⟨_, _, _, _, answered⟩ | ⟨_, _, answered⟩
      · rw [answered, enqueue]
        split
        · exact Stage.noConfusion
        · intro same
          cases same
      · rw [answered]
        exact Stage.noConfusion
  | enqueue =>
      apply goes prior
      intro same
      cases same
  | cancel => cases permitted

end Handlers

section Store

variable {Caller : Type} {columns : Columns} {frames : Caller → Received}
  {system after : System Caller} {caller : Caller}
  {trace : List (Transition (System Caller) (Action Caller))}

def StoreUndisturbed (_ : MessageStoreModel.State Caller)
    (action : MessageStoreModel.Action Caller) : Prop :=
  ReadsFrom AfterEpoch action.move ∧ action.move ≠ .loseCommit

theorem accept_undisturbed {action : Action Caller} {store : MessageStoreModel.Action Caller}
    (shown : storeAction action = some store) (permitted : Undisturbed system action) :
    StoreUndisturbed system.store store := by
  obtain ⟨caller, move⟩ := action
  cases move with
  | accept move =>
      cases shown
      cases move with
      | run random clock => exact ⟨permitted, MessageStoreModel.Move.noConfusion⟩
      | fail => exact ⟨trivial, MessageStoreModel.Move.noConfusion⟩
      | abort => exact ⟨trivial, MessageStoreModel.Move.noConfusion⟩
      | loseCommit => cases permitted
  | _ => cases shown

variable [DecidableEq Caller] [Fintype Caller]

theorem store_run (run : Run (step columns frames) Undisturbed initial trace system) :
    Run (MessageStoreModel.step columns (inputsOf frames)) StoreUndisturbed
      MessageStoreModel.initial
      (trace.filterMap fun taken => (storeAction taken.action).map fun action =>
        ⟨taken.before.store, action, taken.after.store⟩) system.store :=
  run_projection System.store storeAction
    (fun _ _ _ other stepped => other_step_store other stepped)
    (fun _ _ _ _ shown permitted stepped =>
      ⟨accept_undisturbed shown permitted, accept_step_store shown stepped⟩) run

theorem run_origins (run : Run (step columns frames) Undisturbed initial trace system) :
    OriginsKnown AfterEpoch columns (inputsOf frames) system.store :=
  reachable_origins (fun _ _ permitted => permitted.1) ⟨_, store_run run⟩

/-- A handler whose call has not inserted a message has left the tables alone. -/
theorem handler_quiet (run : Run (step columns frames) Undisturbed initial trace system)
    (pending : ¬Inserted (system.store.calls caller)) :
    ∀ transition ∈ trace, transition.action.caller = caller →
      transition.after.store.db = transition.before.store.db := by
  have quiet := run_quiet_until (fun stage => ∃ event, stage = .done (.accepted .inserted event))
    ?_ ?_ (store_run run) caller
  · intro transition listed own
    obtain ⟨_, _, stepped⟩ := run_transition run listed
    cases shown : storeAction transition.action with
    | none => rw [other_step_store shown stepped]
    | some action =>
        have calls : action.caller = caller := by
          unfold storeAction at shown
          split at shown
          · cases shown
            exact own
          · cases shown
        refine quiet.resolve_left pending ⟨transition.before.store, action,
          transition.after.store⟩ (List.mem_filterMap.mpr ⟨transition, listed, ?_⟩) calls
        rw [shown]
        rfl
  · -- only a commit that is answered changes the tables
    intro state action effect sound permitted moved
    obtain ⟨caller, move⟩ := action
    cases move_cases moved with
    | run ran =>
        cases ran with
        | committedRead stage opened => exact .inl (commit_read_unchanged sound stage opened)
        | committed => exact .inr ⟨_, rfl⟩
        | _ => exact .inl rfl
    | lostCommit => exact absurd rfl permitted.2
    | _ => exact .inl rfl
  · -- a call that is done stays so
    intro state action effect past moved
    obtain ⟨caller, move⟩ := action
    obtain ⟨event, done⟩ := past
    cases move_cases moved with
    | run ran =>
        obtain ⟨_, closing, _⟩ := ran_ending ran (by rw [done]; rfl)
        cases done.symm.trans closing
    | failed running =>
        rw [done] at running
        cases running
    | ignored stage => cases done.symm.trans stage
    | aborted => exact ⟨event, done⟩
    | lostCommit stage => cases done.symm.trans stage

/-- A handler that does not call the store leaves it alone. -/
theorem handler_silent (run : Run (step columns frames) Undisturbed initial trace system)
    (unaccepting : handleMessage (frames caller) ≠ .accepting) :
    ∀ transition ∈ trace, transition.action.caller = caller →
      transition.after.store = transition.before.store := by
  intro transition listed own
  obtain ⟨before, ⟨taker, move⟩, next⟩ := transition
  obtain rfl : taker = caller := own
  obtain ⟨reached, _, stepped⟩ := run_transition run listed
  dsimp only at reached stepped ⊢
  cases step_cases stepped with
  | accept stage _ => exact absurd (handler_at (reachable_handlers reached) stage).1 unaccepting
  | _ => rfl

end Store

section Progress

variable {Caller : Type} {columns : Columns} {frames : Caller → Received}
  {system after : System Caller} {caller : Caller}

/-- A call can lose its transaction between two of its statements. -/
def callWeight (call : Call) : Nat :=
  2 * Stage.remaining call.stage + if call.tx.isSome then 1 else 0

def handlerWeight : Stage → Nat
  | .received => 3
  | .accepting => 2
  | .enqueuing _ => 1
  | .returned _ => 0

theorem answer_lighter (request : SendRequest) (outcome : Outcome) :
    handlerWeight (answer request outcome) < 2 := by
  rcases answer_cases request outcome with ⟨_, _, _, _, answered⟩ | ⟨_, _, answered⟩
  · rw [answered, enqueue]
    split
    · exact Nat.lt_succ_self 1
    · exact Nat.zero_lt_two
  · rw [answered]
    exact Nat.lt_succ_self 1

theorem open_weight (tx : Option MessageStoreModel.Transaction) :
    (if tx.isSome then 1 else 0) ≤ 1 := by
  split_ifs
  · exact le_rfl
  · exact Nat.zero_le 1

theorem call_goto_lighter {call : Call} {stage : MessageStoreModel.Stage}
    (advances : Stage.remaining stage < Stage.remaining call.stage) :
    callWeight (call.goto stage) < callWeight call := by
  have twice : 2 * Stage.remaining stage < 2 * Stage.remaining call.stage := by omega
  exact Nat.add_lt_add_right twice _

/-- Every move brings a call closer to its end, also one that goes wrong. -/
theorem move_lighter {input : Input} {db : MessageStoreModel.Database}
    {held : (MessageStoreModel.Transaction → Bool) → Bool} {call : Call}
    {move : MessageStoreModel.Move} {effect : MessageStoreModel.Database × Call}
    (moved : MessageStoreModel.moveEffect columns input db held call move = some effect) :
    callWeight effect.2 < callWeight call := by
  cases move_cases moved with
  | run ran =>
      have advances := ran_advances ran
      have bound := open_weight effect.2.tx
      unfold callWeight
      omega
  | failed running => exact call_goto_lighter (running_remaining running)
  | ignored stage =>
      apply call_goto_lighter
      rw [stage]
      decide
  | aborted opened => simp [callWeight, opened]
  | lostCommit stage opened => simp [callWeight, stage, opened, Stage.remaining]

/-- What is left to do for one frame. -/
def frameWeight (system : System Caller) (caller : Caller) : Nat :=
  handlerWeight (system.handlers caller) + callWeight (system.store.calls caller)

/-- A step that nothing holds up: a statement fails only if its transaction is
gone. -/
def Due (system : System Caller) (action : Action Caller) : Prop :=
  match action.move with
  | .receive => True
  | .accept (.run _ _) => True
  | .accept .fail => Dropped (system.store.calls action.caller)
  | .answer => True
  | .enqueue => True
  | _ => False

/-- A handler with an open transaction waits for the store. -/
theorem open_accepting (sound : HandlersSound frames system)
    (store : StoreSound (inputsOf frames) system.store)
    (opened : (system.store.calls caller).tx.isSome = true) :
    system.handlers caller = .accepting := by
  have closed {reply : Frame}
      (chosen : Chosen (frames caller) (system.store.calls caller) reply) : False := by
    rcases chosen with ⟨_, fresh⟩ | ⟨_, outcome, done, _⟩
    · rw [fresh] at opened
      cases opened
    · have shape := store.shape caller
      unfold StageShape at shape
      rw [done] at shape
      rw [shape] at opened
      cases opened
  cases stage : system.handlers caller with
  | accepting => rfl
  | received =>
      rw [(handler_at sound stage).1] at opened
      cases opened
  | enqueuing reply => exact (closed (handler_at sound stage).1).elim
  | returned error =>
      cases error with
      | none =>
          obtain ⟨reply, chosen, _⟩ := handler_at sound stage
          exact (closed chosen).elim
      | some error =>
          obtain ⟨_, ⟨reply, chosen⟩, _⟩ := handler_at sound stage
          exact (closed chosen).elim

variable [Fintype Caller]

def weight (system : System Caller) : Nat := ∑ caller, frameWeight system caller

theorem weight_initial : weight (initial : System Caller) = 27 * Fintype.card Caller := by
  simp [weight, frameWeight, initial, handlerWeight, MessageStoreModel.initial, newCall,
    callWeight, Stage.remaining, mul_comm]

theorem weight_lt (caller : Caller) (own : frameWeight after caller < frameWeight system caller)
    (others : ∀ other, other ≠ caller → frameWeight after other = frameWeight system other) :
    weight after < weight system := by
  apply Finset.sum_lt_sum
  · intro other _
    by_cases same : other = caller
    · exact same ▸ own.le
    · exact (others other same).le
  · exact ⟨caller, Finset.mem_univ caller, own⟩

variable [DecidableEq Caller]

theorem goto_lighter {stage : Stage}
    (lighter : handlerWeight stage < handlerWeight (system.handlers caller)) :
    weight (system.goto caller stage) < weight system := by
  apply weight_lt caller
  · simpa [frameWeight, System.goto] using lighter
  · intro other different
    simp [frameWeight, System.goto, Function.update_of_ne different]

theorem step_lighter {action : Action Caller}
    (stepped : step columns frames system action = some after) : weight after < weight system := by
  cases step_cases stepped with
  | @receive caller stage =>
      apply goto_lighter
      rw [stage]
      rcases handle_message_cases (frames caller) with accepting | ⟨ack, rejecting⟩
      · rw [accepting]
        exact Nat.lt_succ_self 2
      · rw [rejecting]
        exact (by decide : 1 < 3)
  | @accept caller move store stage storeStepped =>
      obtain ⟨effect, moved, rfl⟩ := Option.map_eq_some_iff.mp storeStepped
      apply weight_lt caller
      · simpa [frameWeight] using move_lighter moved
      · intro other different
        simp [frameWeight, Function.update_of_ne different]
  | @answer caller outcome stage done =>
      apply goto_lighter
      rw [stage]
      exact answer_lighter (requestOf (frames caller)) outcome
  | @enqueue caller reply stage =>
      apply weight_lt caller
      · simp [frameWeight, System.send, stage, handlerWeight]
      · intro other different
        simp [frameWeight, System.send, Function.update_of_ne different]
  | cancel stage =>
      apply goto_lighter
      rw [stage]
      exact Nat.lt_succ_self 0

theorem run_length {allowed : System Caller → Action Caller → Prop}
    {trace : List (Transition (System Caller) (Action Caller))}
    (run : Run (step columns frames) allowed initial trace system) :
    trace.length + weight system ≤ 27 * Fintype.card Caller := by
  induction run with
  | nil => simp [weight_initial]
  | snoc prior permitted stepped induction =>
      have lighter := step_lighter stepped
      simp only [List.length_append, List.length_singleton]
      omega

theorem dropped_fails {state : MessageStoreModel.State Caller}
    (dropped : Dropped (state.calls caller)) (inputs : Caller → Input) :
    ∃ next, MessageStoreModel.step columns inputs state ⟨caller, .fail⟩ = some next := by
  have fails : ∃ next, MessageStoreModel.failStatement (state.calls caller) = some next := by
    generalize state.calls caller = call at dropped
    obtain ⟨stage, tx⟩ := call
    cases stage with
    | start | closing | done => cases dropped.1
    | _ => exact ⟨_, rfl⟩
  obtain ⟨next, failed⟩ := fails
  exact ⟨_, by rw [MessageStoreModel.step, MessageStoreModel.moveEffect, failed]; rfl⟩

/-- While a handler has not returned, some handler has a step that is due. -/
theorem someone_is_due (sound : HandlersSound frames system)
    (store : StoreSound (inputsOf frames) system.store)
    (pending : ∀ error, system.handlers caller ≠ .returned error) :
    ∃ action after, Due system action ∧ Undisturbed system action ∧
      step columns frames system action = some after := by
  cases stage : system.handlers caller with
  | returned error => exact absurd stage (pending error)
  | received => exact ⟨⟨caller, .receive⟩, _, trivial, trivial, by rw [step, stage]⟩
  | enqueuing reply => exact ⟨⟨caller, .enqueue⟩, _, trivial, trivial, by rw [step, stage]⟩
  | accepting =>
      by_cases returned : Returned (system.store.calls caller)
      · obtain ⟨outcome, done⟩ := returned
        exact ⟨⟨caller, .answer⟩, _, trivial, trivial, by rw [step, stage]; dsimp only; rw [done]⟩
      · obtain ⟨other, waits, moves⟩ := someone_can_move columns store returned
        have accepting : system.handlers other = .accepting := by
          rcases waits with rfl | opened
          · exact stage
          · exact open_accepting sound store opened
        have accepts {move : MessageStoreModel.Move} {next : MessageStoreModel.State Caller}
            (stepped : MessageStoreModel.step columns (inputsOf frames) system.store
              ⟨other, move⟩ = some next) :
            step columns frames system ⟨other, .accept move⟩ =
              some { system with store := next } := by
          rw [step, accepting]
          exact congrArg (Option.map _) stepped
        rcases moves with runs | dropped
        · obtain ⟨next, stepped⟩ := runs (randomBytes 1) noon
          refine ⟨⟨other, .accept (.run (randomBytes 1) noon)⟩, _, trivial, ?_, accepts stepped⟩
          exact (by decide +kernel : AfterEpoch noon.time)
        · obtain ⟨next, stepped⟩ := dropped_fails dropped (inputsOf frames)
          exact ⟨⟨other, .accept .fail⟩, _, dropped, trivial, accepts stepped⟩

end Progress

section Results

variable {Caller : Type} [DecidableEq Caller] [Fintype Caller]

/-- The frame a handler has put on `Send` says what happened to its message. -/
structure Earned (frames : Caller → Received)
    (trace : List (Transition (System Caller) (Action Caller))) (system : System Caller)
    (caller : Caller) (reply : Frame) : Prop where
  invalid : Invalid (frames caller) →
    reply = .rejected
      (rejectedAck (requestOf (frames caller)).clientMessageID invalidRequestErrorCode) ∧
    ∀ transition ∈ trace, transition.action.caller = caller →
      transition.after.store = transition.before.store
  accepted : ∀ ack, reply = .accepted ack → ∃ row ∈ system.store.db.messages,
    clientKey row =
      ((frames caller).clientID, (requestOf (frames caller)).clientMessageID) ∧
    ack.messageID = row.messageID.text ∧ ack.clientMessageID = row.clientMessageID ∧
    ack.roomID = row.roomID ∧ ack.roomSeq = row.roomSeq
  rejected : ∀ ack, reply = .rejected ack → ∀ transition ∈ trace,
    transition.action.caller = caller → transition.after.store.db = transition.before.store.db

theorem chosen_earned {columns : Columns} {frames : Caller → Received}
    {trace : List (Transition (System Caller) (Action Caller))} {system : System Caller}
    (micros : KeepsMicroseconds columns)
    (run : Run (step columns frames) Undisturbed initial trace system) {caller : Caller}
    {reply : Frame} (chosen : Chosen (frames caller) (system.store.calls caller) reply) :
    Earned frames trace system caller reply := by
  refine ⟨?_, ?_, ?_⟩
  · intro invalid
    have handled := handle_invalid invalid
    refine ⟨?_, handler_silent run (by rw [handled]; exact Stage.noConfusion)⟩
    rcases chosen with ⟨rejecting, _⟩ | ⟨accepting, _⟩
    · rw [handled] at rejecting
      exact (Stage.enqueuing.inj rejecting).symm
    · rw [handled] at accepting
      cases accepting
  · rintro ack rfl
    rcases chosen with ⟨rejecting, _⟩ | ⟨_, outcome, done, answered⟩
    · rcases handle_message_cases (frames caller) with accepting | ⟨_, handled⟩
      · rw [accepting] at rejecting
        cases rejecting
      · rw [handled] at rejecting
        cases rejecting
    · rcases answer_cases (requestOf (frames caller)) outcome with
        ⟨path, event, rfl, _, told⟩ | ⟨_, _, told⟩
      · rw [told] at answered
        cases enqueue_eq answered
        have result := (reachable_results ⟨_, store_run run⟩).results caller
        unfold ResultSound at result
        rw [done] at result
        obtain ⟨row, listed, key, describes⟩ := result
        exact ⟨row, listed, key, describes.messageID, describes.clientMessageID,
          describes.roomID, describes.roomSeq⟩
      · rw [told] at answered
        cases answered
  · rintro ack rfl
    apply handler_quiet run
    rintro ⟨event, inserted⟩
    rcases chosen with ⟨_, fresh⟩ | ⟨_, outcome, done, answered⟩
    · rw [fresh] at inserted
      cases inserted
    · have same : outcome = .accepted .inserted event := by
        rw [done] at inserted
        exact MessageStoreModel.Stage.done.inj inserted
      subst same
      have valid := accepted_event_acknowledged micros (run_origins run) done
      rcases answer_cases (requestOf (frames caller)) (.accepted .inserted event) with
        ⟨_, _, _, _, told⟩ | ⟨refused, _⟩
      · rw [told] at answered
        cases enqueue_eq answered
      · exact refused _ _ rfl valid

/-- Every handler puts one frame on `Send`, an earned one, and returns without
an error; the checks of what it sends never fail. No handler is left behind:
while one has not returned, some step is due, and no run goes on for ever. -/
theorem every_frame_answered_once (columns : Columns) (micros : KeepsMicroseconds columns)
    (frames : Caller → Received) (trace : List (Transition (System Caller) (Action Caller)))
    (system : System Caller) (run : Run (step columns frames) Undisturbed initial trace system) :
    (∀ caller, (∀ error, system.handlers caller ≠ .returned error) →
      system.sent caller = []) ∧
    (∀ caller error, system.handlers caller = .returned error → error = none ∧
      ∃ reply, system.sent caller = [(reply, reply.marshal)] ∧
        Earned frames trace system caller reply) ∧
    (∀ caller path event, (system.store.calls caller).stage = .done (.accepted path event) →
      (acceptedAck event).validate = .ok ()) ∧
    (∀ caller, (∀ error, system.handlers caller ≠ .returned error) →
      ∃ action after, Due system action ∧ Undisturbed system action ∧
        step columns frames system action = some after) ∧
    trace.length ≤ 27 * Fintype.card Caller := by
  have sound := reachable_handlers ⟨trace, run⟩
  have known := run_origins run
  refine ⟨?_, ?_, ?_, ?_, ?_⟩
  · intro caller pending
    cases stage : system.handlers caller with
    | returned error => exact absurd stage (pending error)
    | received => exact (handler_at sound stage).2
    | accepting => exact (handler_at sound stage).2
    | enqueuing reply => exact (handler_at sound stage).2
  · intro caller error returned
    cases error with
    | none =>
        obtain ⟨reply, chosen, sent⟩ := handler_at sound returned
        exact ⟨rfl, reply, sent, chosen_earned micros run chosen⟩
    | some error =>
        obtain ⟨rfl, _⟩ := handler_at sound returned
        exact absurd returned (reachable_uncancelled ⟨trace, run⟩ caller)
  · intro caller path event done
    exact accepted_event_acknowledged micros known done
  · intro caller pending
    exact someone_is_due sound known.store pending
  · exact (Nat.le_add_right _ _).trans (run_length run)

/-- A request, and a text that is no JSON. -/
def requestAndNoise (caller : Fin 2) : Received :=
  if caller = firstOfTwo then
    ⟨ascii "ann", ascii ("\x7b\"type\":\"send\",\"version\":1,\"client_message_id\":\"m-1\"," ++
      "\"room_id\":\"lobby\",\"payload\":\"hi\"\x7d")⟩
  else ⟨ascii "bob", ascii "hello"⟩

def acceptAndReject : List (Action (Fin 2)) :=
  [⟨firstOfTwo, .receive⟩, ⟨secondOfTwo, .receive⟩] ++
    List.replicate 9 ⟨firstOfTwo, .accept (.run (randomBytes 1) noon)⟩ ++
    [⟨firstOfTwo, .answer⟩, ⟨secondOfTwo, .enqueue⟩, ⟨firstOfTwo, .enqueue⟩]

theorem request_and_noise_answered :
    ∃ trace system, Run (step microColumns requestAndNoise) Undisturbed initial trace system ∧
      system.store.db.messages.length = 1 ∧
      ∃ first second, system.sent firstOfTwo = [(first, first.marshal)] ∧
        Earned requestAndNoise trace system firstOfTwo first ∧
        system.sent secondOfTwo = [(second, second.marshal)] ∧
        Earned requestAndNoise trace system secondOfTwo second := by
  have ran : (runActions (step microColumns requestAndNoise) Undisturbed initial
      acceptAndReject).map (fun system => (system.store.db.messages.length,
        system.handlers firstOfTwo, system.handlers secondOfTwo)) =
      some (1, .returned none, .returned none) := by decide +kernel
  obtain ⟨system, reached, stages⟩ := Option.map_eq_some_iff.mp ran
  obtain ⟨trace, run⟩ := reachable_run_actions reachable_start reached
  simp only [Prod.mk.injEq] at stages
  have answered := (every_frame_answered_once microColumns micro_columns_keep requestAndNoise
    trace system run).2.1
  obtain ⟨_, first, firstSent, firstEarned⟩ := answered firstOfTwo none stages.2.1
  obtain ⟨_, second, secondSent, secondEarned⟩ := answered secondOfTwo none stages.2.2
  exact ⟨trace, system, run, stages.1, first, second, firstSent, firstEarned, secondSent,
    secondEarned⟩

end Results

end ChatScale.IngestReplies
