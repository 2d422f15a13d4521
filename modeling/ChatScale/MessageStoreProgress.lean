import ChatScale.MessageStoreIdempotency

/-!
# Calls whose statements do not fail

In a run in which no statement fails for a reason of its own, the only error
the database gives is the violation of the client key. Such a run cannot get
stuck: a caller that waits for a counter waits for a transaction that moves on,
and a transaction that has inserted its message waits for nobody.
-/

namespace ChatScale.MessageStoreProgress

open ChatScale.ByteText ChatScale.ByteEncodings ChatScale.CivilTime ChatScale.JsonText
open ChatScale.JsonFields
open ChatScale.MessageContract ChatScale.MessageId ChatScale.MessageStoreModel
open ChatScale.MessageStoreStatements ChatScale.MessageStoreInvariants
open ChatScale.MessageStoreIdempotency ChatScale.TransitionSystem

set_option autoImplicit false

/-- The checks `Accept` makes before its first statement. -/
def ValidInput (input : Input) : Prop :=
  isBlank input.clientID = false ∧ input.request.validate = .ok ()

/-- Whether the database refuses the next statement for a reason other than the
client key: a text or a JSON value its columns do not take, a counter out of
range, another unique key. -/
def refused (columns : Columns) (input : Input) (db : Database) (call : Call) : Bool :=
  match call.stage with
  | .findPool => !(isText input.clientID && isText input.request.clientMessageID)
  | .allocate => !isText input.request.roomID ||
      maxInt64 < lastSeq db input.request.roomID + 1
  | .insertMessage event id =>
      match columns.jsonb event.payload with
      | none => true
      | some payload => db.messages.any (sameMessageKey (messageRow columns input event id payload))
  | .insertOutbox event id =>
      match event.marshal with
      | none => false
      | some serialized =>
          match columns.jsonb serialized with
          | none => true
          | some stored => db.outbox.any (sameOutboxKey (outboxRow columns event id stored))
  | _ => false

/-- The steps of a run in which no statement fails on its own. -/
def Healthy {Caller : Type} (columns : Columns) (inputs : Caller → Input) (state : State Caller)
    (action : Action Caller) : Prop :=
  action.move.isRun = true ∧
    refused columns (inputs action.caller) state.db (state.calls action.caller) = false

instance {Caller : Type} (columns : Columns) (inputs : Caller → Input) (state : State Caller)
    (action : Action Caller) : Decidable (Healthy columns inputs state action) := by
  unfold Healthy
  infer_instance

theorem is_run_cases {move : Move} (isRun : move.isRun = true) :
    ∃ random clock, move = .run random clock := by
  cases move with
  | run random clock => exact ⟨random, clock, rfl⟩
  | _ => cases isRun

def Succeeds (outcome : Outcome) : Prop := ∃ path event, outcome = .accepted path event

/-- What the calls of a healthy run look like at each stage. -/
def HealthyCall (input : Input) (call : Call) : Prop :=
  match call.stage with
  | .start => True
  | .findPool => ValidInput input
  | .begin => ValidInput input
  | .findTransaction => ValidInput input ∧ call.tx.isSome
  | .commitRead _ => ValidInput input ∧ call.tx.isSome
  | .allocate => ValidInput input ∧ call.tx.isSome
  | .generate _ => ValidInput input ∧ call.tx.isSome
  | .insertMessage event _ => ValidInput input ∧ call.tx.isSome ∧ event.marshal.isSome
  | .insertOutbox event _ => ValidInput input ∧ call.tx.isSome ∧ event.marshal.isSome
  | .commit _ => ValidInput input ∧ call.tx.isSome
  | .rollback => ValidInput input ∧ ∀ tx, call.tx = some tx → tx.message = none
  | .reread => ValidInput input ∧ call.tx = none
  | .closing outcome => call.tx = none ∧ (ValidInput input → Succeeds outcome)
  | .done outcome => ValidInput input → Succeeds outcome

/-- The event of a valid request and a positive number passes its check. -/
theorem accepted_event_valid {input : Input} (valid : ValidInput input) {roomSeq : Int}
    (positive : 1 ≤ roomSeq) (random : Uuid) (clock : ClockReading) :
    (acceptedEvent input roomSeq random clock).validate = .ok () := by
  obtain ⟨_, _, clientMessageID, roomID, payload⟩ := request_validate_ok.mp valid.2
  exact event_validate_ok.mpr ⟨rfl, text_not_blank _, clientMessageID, roomID, positive,
    clock.started, payload⟩

/-- Its time is that of a clock, so it has a JSON text. -/
theorem accepted_event_marshals {input : Input} (valid : ValidInput input) (roomSeq : Int)
    (random : Uuid) (clock : ClockReading) :
    (acceptedEvent input roomSeq random clock).marshal.isSome := by
  have payload : isValid (acceptedEvent input roomSeq random clock).payload = true :=
    (request_validate_ok.mp valid.2).2.2.2.2
  obtain ⟨serialized, marshalled⟩ := marshal_of_valid payload (exact_encodes clock.time.spelled)
  rw [marshalled]
  rfl

section Steps

variable {Caller : Type} {columns : Columns} {inputs : Caller → Input}
  {state after : State Caller} {caller : Caller}

structure HealthySound (inputs : Caller → Input) (state : State Caller) : Prop where
  results : ResultsSound inputs state
  calls : ∀ caller, HealthyCall (inputs caller) (state.calls caller)

/-- The number a call has drawn is positive. -/
theorem drawn_positive (sound : StoreSound inputs state) {roomSeq : Int}
    (stage : (state.calls caller).stage = .generate roomSeq)
    (opened : (state.calls caller).tx.isSome) : 1 ≤ roomSeq := by
  obtain ⟨tx, live⟩ := Option.isSome_iff_exists.mp opened
  have shape := sound.shape caller
  unfold StageShape at shape
  rw [stage] at shape
  have next := (sound.transactions caller tx live).counter (inputs caller).request.roomID roomSeq
    (by rw [shape tx live])
  obtain ⟨count, last, _⟩ := sound.database.rooms (inputs caller).request.roomID
  omega

/-- In a healthy run only the checks before the first statement fail. -/
theorem failing_healthy {failure : Failure} (sound : HealthySound inputs state)
    (fits : refused columns (inputs caller) state.db (state.calls caller) = false)
    (failing : Failing columns (inputs caller) state.db (state.calls caller) failure) :
    HealthyCall (inputs caller) ((state.calls caller).fail failure) := by
  have healthy := sound.calls caller
  have shape := sound.results.store.shape caller
  have result := sound.results.results caller
  unfold HealthyCall at healthy
  unfold StageShape at shape
  unfold ResultSound at result
  cases failing with
  | blankClient stage blank =>
      rw [stage] at shape
      exact ⟨shape, fun valid => absurd blank (Bool.eq_false_iff.mp valid.1)⟩
  | invalidRequest stage invalid =>
      rw [stage] at shape
      exact ⟨shape, fun valid => nomatch valid.2.symm.trans invalid⟩
  | clientText stage text => simp [refused, stage, text] at fits
  | roomText stage text => simp [refused, stage, text] at fits
  | counter stage overflow => simp [refused, stage, overflow] at fits
  | invalidEvent stage invalid =>
      rw [stage] at healthy
      have positive := drawn_positive sound.results.store stage healthy.2
      cases (accepted_event_valid healthy.1 positive _ _).symm.trans invalid
  | payload stage unkept => simp [refused, stage, unkept] at fits
  | messageKey stage kept clash =>
      simp only [refused, stage, kept, clash] at fits
      cases fits
  | missing stage absent =>
      rw [stage] at result
      obtain ⟨event, found⟩ := find_event_of_row result
      cases absent.symm.trans found
  | marshal stage unmarshalled =>
      rw [stage] at healthy
      obtain ⟨serialized, marshalled⟩ := Option.isSome_iff_exists.mp healthy.2.2
      cases unmarshalled.symm.trans marshalled
  | event stage marshalled unkept => simp [refused, stage, marshalled, unkept] at fits
  | outboxKey stage marshalled kept clash =>
      simp only [refused, stage, marshalled, kept, clash] at fits
      cases fits

variable [Fintype Caller] [DecidableEq Caller]

theorem ran_healthy {random : Uuid} {clock : ClockReading} {effect : Database × Call}
    (sound : HealthySound inputs state)
    (fits : refused columns (inputs caller) state.db (state.calls caller) = false)
    (ran : Ran columns (inputs caller) state.db (heldByOther state.calls caller)
      (state.calls caller) random clock effect) :
    HealthyCall (inputs caller) effect.2 := by
  have healthy := sound.calls caller
  have shape := sound.results.store.shape caller
  unfold HealthyCall at healthy
  unfold StageShape at shape
  cases ran with
  | failed failing => exact failing_healthy sound fits failing
  | started _ client valid => exact ⟨client, valid⟩
  | poolRead stage =>
      rw [stage] at shape
      exact ⟨shape, fun _ => ⟨_, _, rfl⟩⟩
  | poolMissed stage =>
      rw [stage] at healthy
      exact healthy
  | began stage =>
      rw [stage] at healthy
      exact ⟨healthy, rfl⟩
  | transactionRead stage =>
      rw [stage] at healthy
      exact healthy
  | transactionMissed stage =>
      rw [stage] at healthy
      exact healthy
  | committedRead => exact fun _ => ⟨_, _, rfl⟩
  | allocated stage =>
      rw [stage] at healthy
      exact ⟨healthy.1, rfl⟩
  | generated stage =>
      rw [stage] at healthy
      exact ⟨healthy.1, healthy.2, accepted_event_marshals healthy.1 _ _ _⟩
  | insertedMessage stage =>
      rw [stage] at healthy
      exact ⟨healthy.1, rfl, healthy.2.2⟩
  | conflicted stage =>
      rw [stage] at healthy shape
      exact ⟨healthy.1, fun tx opened => by rw [shape tx opened]⟩
  | rolledBack stage =>
      rw [stage] at healthy
      exact ⟨healthy.1, rfl⟩
  | conflictRead stage =>
      rw [stage] at healthy
      exact ⟨healthy.2, fun _ => ⟨_, _, rfl⟩⟩
  | insertedOutbox stage =>
      rw [stage] at healthy
      exact ⟨healthy.1, rfl⟩
  | committed => exact fun _ => ⟨_, _, rfl⟩
  | closed stage =>
      rw [stage] at healthy
      exact healthy.2

theorem healthy_step {action : Action Caller} (sound : HealthySound inputs state)
    (permitted : Healthy columns inputs state action)
    (stepped : step columns inputs state action = some after) : HealthySound inputs after := by
  refine ⟨results_step sound.results stepped, ?_⟩
  obtain ⟨effect, moved, rfl⟩ := Option.map_eq_some_iff.mp stepped
  obtain ⟨isRun, fits⟩ := permitted
  obtain ⟨random, clock, run⟩ := is_run_cases isRun
  rw [run] at moved
  intro other
  by_cases same : other = action.caller
  · subst same
    simpa only [Function.update_self] using ran_healthy sound fits (run_cases moved)
  · simpa only [Function.update_of_ne same] using sound.calls other

theorem reachable_healthy
    (reached : Reachable (step columns inputs) (Healthy columns inputs) initial state) :
    HealthySound inputs state :=
  reachable_invariant (HealthySound inputs)
    ⟨⟨initial_sound inputs, fun _ => trivial⟩, fun _ => trivial⟩
    (fun _ _ _ sound permitted stepped => healthy_step sound permitted stepped) reached

end Steps

section Waiting

variable {Caller : Type} {columns : Columns} {inputs : Caller → Input} {state : State Caller}
  {caller : Caller}

def Returned (call : Call) : Prop := ∃ outcome, call.stage = .done outcome

/-- The stages whose statement runs in the transaction of the call. -/
def Stage.inTransaction : Stage → Bool
  | .findTransaction => true
  | .commitRead _ => true
  | .allocate => true
  | .insertMessage _ _ => true
  | .insertOutbox _ _ => true
  | .commit _ => true
  | _ => false

/-- The server has dropped the transaction that the next statement needs. -/
def Dropped (call : Call) : Prop := Stage.inTransaction call.stage = true ∧ call.tx = none

theorem transaction_open {call : Call} (live : ¬Dropped call)
    (needed : Stage.inTransaction call.stage = true) : ∃ tx, call.tx = some tx :=
  Option.ne_none_iff_exists'.mp fun gone => live ⟨needed, gone⟩

/-- A healthy run drops no transaction. -/
theorem healthy_live {input : Input} {call : Call} (healthy : HealthyCall input call) :
    ¬Dropped call := by
  rintro ⟨needed, gone⟩
  unfold HealthyCall at healthy
  cases stage : call.stage with
  | findTransaction | commitRead | allocate | commit =>
      rw [stage, gone] at healthy
      exact Bool.false_ne_true healthy.2
  | insertMessage | insertOutbox =>
      rw [stage, gone] at healthy
      exact Bool.false_ne_true healthy.2.1
  | _ =>
      rw [stage] at needed
      cases needed

variable [Fintype Caller] [DecidableEq Caller]

/-- The next statement of a call can run now. -/
def CanRun (columns : Columns) (inputs : Caller → Input) (state : State Caller)
    (caller : Caller) : Prop :=
  ∀ random clock, ∃ after, step columns inputs state ⟨caller, .run random clock⟩ = some after

theorem can_run_of_effect
    (runs : ∀ random clock, ∃ effect, runStatement columns (inputs caller) state.db
      (heldByOther state.calls caller) (state.calls caller) random clock = some effect) :
    CanRun columns inputs state caller := by
  intro random clock
  obtain ⟨effect, ran⟩ := runs random clock
  exact ⟨_, by rw [step, moveEffect, ran]; rfl⟩

/-- Another caller's transaction that is in the way. -/
theorem held_cases {clash : Transaction → Bool}
    (blocked : heldByOther state.calls caller clash = true) :
    ∃ other tx, other ≠ caller ∧ (state.calls other).tx = some tx ∧ clash tx = true := by
  obtain ⟨other, different, found⟩ := of_decide_eq_true blocked
  cases live : (state.calls other).tx with
  | none => rw [live] at found; cases found
  | some tx => exact ⟨other, tx, different, live, by rw [live] at found; simpa using found⟩

/-- A transaction that has inserted its message waits for nobody. -/
theorem writer_can_run (sound : StoreSound inputs state) {tx : Transaction} {row : MessageRow}
    (opened : (state.calls caller).tx = some tx) (writes : tx.message = some row) :
    CanRun columns inputs state caller := by
  apply can_run_of_effect
  intro random clock
  have shape := sound.shape caller
  unfold StageShape at shape
  cases stage : (state.calls caller).stage with
  | insertOutbox event id =>
      rw [stage] at shape
      obtain ⟨written, same, key⟩ := shape tx opened
      obtain rfl : written = row := by rw [same] at writes; exact Option.some.inj writes
      simp only [runStatement, stage, opened, insertOutbox]
      cases marshalled : event.marshal with
      | none => exact ⟨_, rfl⟩
      | some serialized =>
          dsimp only
          cases taken : columns.jsonb serialized with
          | none => exact ⟨_, rfl⟩
          | some stored =>
              have free : heldByOther state.calls caller (fun other =>
                  other.outbox.any (sameOutboxKey (outboxRow columns event id stored))) =
                    false := by
                by_contra blocked
                obtain ⟨other, otherTx, different, live, clash⟩ :=
                  held_cases (Bool.not_eq_false _ ▸ blocked)
                obtain ⟨outbox, outboxWrites, same⟩ := Option.any_eq_true _ _ |>.mp clash
                obtain ⟨message, messageWrites, keys⟩ :=
                  (sound.transactions other otherTx live).outbox outbox outboxWrites
                have apart := ((sound.apart caller other tx otherTx (Ne.symm different)
                  opened live).message written message writes messageWrites).1
                simp only [messageKey, outboxKey, Prod.mk.injEq] at key keys
                simp [sameMessageKey, key, ← keys.1, ← keys.2.1, ← keys.2.2] at apart
                simp [sameOutboxKey, outboxRow, apart] at same
                exact apart.2 same.1 same.2
              simp only [free, Bool.false_eq_true, if_false]
              split_ifs
              · exact ⟨_, rfl⟩
              · exact ⟨_, rfl⟩
  | commit event =>
      simp only [runStatement, stage, opened]
      exact ⟨_, rfl⟩
  | rollback | reread | closing =>
      simp only [runStatement, stage]
      exact ⟨_, rfl⟩
  | start | findPool | begin | done =>
      rw [stage] at shape
      rw [shape] at opened
      cases opened
  | findTransaction | commitRead | allocate | generate | insertMessage =>
      rw [stage] at shape
      rw [shape tx opened] at writes
      cases writes

/-- A call that cannot run waits for a counter or for a message. -/
theorem can_run_or_waits (columns : Columns) (sound : StoreSound inputs state)
    (pending : ¬Returned (state.calls caller)) (live : ¬Dropped (state.calls caller)) :
    CanRun columns inputs state caller ∨
      ((state.calls caller).stage = .allocate ∧ ∃ other tx, (state.calls other).tx = some tx ∧
        tx.counter.isSome) ∨
      ∃ other tx row, (state.calls other).tx = some tx ∧ tx.message = some row := by
  have opens := transaction_open live
  cases stage : (state.calls caller).stage with
  | done outcome => exact absurd ⟨outcome, stage⟩ pending
  | allocate =>
      obtain ⟨tx, opened⟩ := opens (by rw [stage]; rfl)
      by_cases blocked : heldByOther state.calls caller (fun other =>
          other.counter.any fun row => row.1 == (inputs caller).request.roomID) = true
      · obtain ⟨other, otherTx, _, live, clash⟩ := held_cases blocked
        obtain ⟨counter, holds, _⟩ := Option.any_eq_true _ _ |>.mp clash
        exact .inr (.inl ⟨rfl, other, otherTx, live, by rw [holds]; rfl⟩)
      · refine .inl (can_run_of_effect fun random clock => ?_)
        simp only [runStatement, stage, opened, allocate, blocked, Bool.false_eq_true, if_false]
        split_ifs <;> exact ⟨_, rfl⟩
  | insertMessage event id =>
      obtain ⟨tx, opened⟩ := opens (by rw [stage]; rfl)
      cases taken : columns.jsonb event.payload with
      | none =>
          refine .inl (can_run_of_effect fun random clock => ?_)
          simp only [runStatement, stage, opened, insertMessage, taken]
          exact ⟨_, rfl⟩
      | some payload =>
          by_cases blocked : heldByOther state.calls caller (fun other =>
              other.message.any fun its =>
                sameMessageKey (messageRow columns (inputs caller) event id payload) its ||
                  sameClientKey (messageRow columns (inputs caller) event id payload) its) = true
          · obtain ⟨other, otherTx, _, live, clash⟩ := held_cases blocked
            obtain ⟨row, writes, _⟩ := Option.any_eq_true _ _ |>.mp clash
            exact .inr (.inr ⟨other, otherTx, row, live, writes⟩)
          · refine .inl (can_run_of_effect fun random clock => ?_)
            simp only [runStatement, stage, opened, insertMessage, taken, blocked,
              Bool.false_eq_true, if_false]
            split_ifs <;> exact ⟨_, rfl⟩
  | insertOutbox event id =>
      obtain ⟨tx, opened⟩ := opens (by rw [stage]; rfl)
      have shape := sound.shape caller
      unfold StageShape at shape
      rw [stage] at shape
      obtain ⟨row, written, _⟩ := shape tx opened
      exact .inr (.inr ⟨caller, tx, row, opened, by rw [written]⟩)
  | findTransaction | commitRead | commit =>
      obtain ⟨tx, opened⟩ := opens (by rw [stage]; rfl)
      refine .inl (can_run_of_effect fun random clock => ?_)
      simp only [runStatement, stage, opened]
      exact ⟨_, rfl⟩
  | start | findPool | begin | generate | rollback | reread | closing =>
      refine .inl (can_run_of_effect fun random clock => ?_)
      simp only [runStatement, stage]
      exact ⟨_, rfl⟩

/-- No deadlock: a call that has not returned can run, or one whose transaction
it waits for can. A call that has lost its transaction waits for nobody; its
statement fails. -/
theorem someone_can_move (columns : Columns) (sound : StoreSound inputs state)
    (pending : ¬Returned (state.calls caller)) :
    ∃ other, (other = caller ∨ (state.calls other).tx.isSome = true) ∧
      (CanRun columns inputs state other ∨ Dropped (state.calls other)) := by
  have writer {other : Caller} {tx : Transaction} {row : MessageRow}
      (opened : (state.calls other).tx = some tx) (writes : tx.message = some row) :
      ∃ other, (other = caller ∨ (state.calls other).tx.isSome = true) ∧
        (CanRun columns inputs state other ∨ Dropped (state.calls other)) :=
    ⟨other, .inr (by rw [opened]; rfl), .inl (writer_can_run sound opened writes)⟩
  by_cases live : Dropped (state.calls caller)
  · exact ⟨caller, .inl rfl, .inr live⟩
  · rcases can_run_or_waits columns sound pending live with
      runs | ⟨_, holder, tx, opened, counter⟩ | ⟨_, tx, row, opened, writes⟩
    · exact ⟨caller, .inl rfl, .inl runs⟩
    · have shape := sound.shape holder
      unfold StageShape at shape
      have unreturned : ¬Returned (state.calls holder) := by
        rintro ⟨outcome, stage⟩
        rw [stage] at shape
        rw [shape] at opened
        cases opened
      have holderLive : ¬Dropped (state.calls holder) := by
        rintro ⟨_, gone⟩
        rw [gone] at opened
        cases opened
      rcases can_run_or_waits columns sound unreturned holderLive with
        runs | ⟨stage, _⟩ | ⟨_, writerTx, row, live, writes⟩
      · exact ⟨holder, .inr (by rw [opened]; rfl), .inl runs⟩
      · rw [stage] at shape
        rw [shape tx opened] at counter
        cases counter
      · exact writer live writes
    · exact writer opened writes

/-- In a healthy run some call can run. -/
theorem someone_can_run (columns : Columns) (sound : HealthySound inputs state)
    (pending : ¬Returned (state.calls caller)) : ∃ other, CanRun columns inputs state other := by
  obtain ⟨other, _, runs | dropped⟩ := someone_can_move columns sound.results.store pending
  · exact ⟨other, runs⟩
  · exact absurd dropped (healthy_live (sound.calls other))

end Waiting

section Ending

variable {Caller : Type} [Fintype Caller] {columns : Columns} {inputs : Caller → Input}
  {state after : State Caller}

/-- How many statements a call still has in front of it, at most. -/
def Stage.remaining : Stage → Nat
  | .start => 12
  | .findPool => 11
  | .begin => 10
  | .findTransaction => 9
  | .allocate => 8
  | .generate _ => 7
  | .insertMessage _ _ => 6
  | .insertOutbox _ _ => 5
  | .rollback => 4
  | .reread => 3
  | .commit _ => 2
  | .commitRead _ => 2
  | .closing _ => 1
  | .done _ => 0

def remaining (state : State Caller) : Nat :=
  ∑ caller, Stage.remaining (state.calls caller).stage

theorem running_remaining {stage : Stage} (running : Stage.isEnding stage = false) :
    1 < Stage.remaining stage := by
  cases stage with
  | closing outcome => cases running
  | done outcome => cases running
  | _ => simp [Stage.remaining]

theorem ran_advances {input : Input} {db : Database} {held : (Transaction → Bool) → Bool}
    {call : Call} {random : Uuid} {clock : ClockReading} {effect : Database × Call}
    (ran : Ran columns input db held call random clock effect) :
    Stage.remaining effect.2.stage < Stage.remaining call.stage := by
  cases ran with
  | failed failing => exact running_remaining (failing_running failing)
  | _ => simp [Call.goto, Stage.remaining, *]

theorem remaining_initial : remaining (initial : State Caller) = 12 * Fintype.card Caller := by
  simp [remaining, initial, newCall, Stage.remaining, mul_comm]

variable [DecidableEq Caller]

theorem step_advances {action : Action Caller} (permitted : Healthy columns inputs state action)
    (stepped : step columns inputs state action = some after) :
    remaining after < remaining state := by
  obtain ⟨random, clock, run⟩ := is_run_cases permitted.1
  obtain ⟨effect, moved, rfl⟩ := Option.map_eq_some_iff.mp stepped
  rw [run] at moved
  apply Finset.sum_lt_sum
  · intro caller _
    by_cases same : caller = action.caller
    · subst same
      simpa only [Function.update_self] using (ran_advances (run_cases moved)).le
    · simp only [Function.update_of_ne same, le_refl]
  · exact ⟨action.caller, Finset.mem_univ _, by
      simpa only [Function.update_self] using ran_advances (run_cases moved)⟩

/-- A healthy run is at most twelve statements for each caller. -/
theorem healthy_run_length {trace : List (Transition (State Caller) (Action Caller))}
    (run : Run (step columns inputs) (Healthy columns inputs) initial trace state) :
    trace.length + remaining state ≤ 12 * Fintype.card Caller := by
  induction run with
  | nil => simp [remaining_initial]
  | snoc prior permitted stepped induction =>
      have less := step_advances permitted stepped
      simp only [List.length_append, List.length_singleton]
      omega

end Ending

section Results

variable {Caller : Type} [Fintype Caller] [DecidableEq Caller]

/-- The call returned an event that was already accepted, or it failed before
its commit. -/
def LeavesTables : Outcome → Prop
  | .accepted path _ => path ≠ .inserted
  | .failed failure => failure ≠ .commit

/-- One row for each client key, one event for all successful calls of the key,
no trace of the calls that did not commit, and success for every valid request
when no statement fails on its own. -/
theorem accept_idempotent (columns : Columns) (inputs : Caller → Input) :
    (∀ trace state, Run (step columns inputs) anyStep initial trace state →
      (state.db.messages.map clientKey).Nodup ∧
      (∀ left right leftPath rightPath leftEvent rightEvent,
        inputKey (inputs left) = inputKey (inputs right) →
        (state.calls left).stage = .done (.accepted leftPath leftEvent) →
        (state.calls right).stage = .done (.accepted rightPath rightEvent) →
        leftEvent.messageID = rightEvent.messageID ∧
          leftEvent.clientMessageID = rightEvent.clientMessageID ∧
          leftEvent.roomID = rightEvent.roomID ∧ leftEvent.roomSeq = rightEvent.roomSeq) ∧
      (∀ caller outcome, (state.calls caller).stage = .done outcome → LeavesTables outcome →
        ∀ transition ∈ trace, transition.action.caller = caller →
          transition.after.db = transition.before.db)) ∧
    (∀ trace state, Run (step columns inputs) (Healthy columns inputs) initial trace state →
      (∀ caller outcome, ValidInput (inputs caller) →
        (state.calls caller).stage = .done outcome → Succeeds outcome) ∧
      (∀ caller, ¬Returned (state.calls caller) → ∃ other, CanRun columns inputs state other) ∧
      trace.length ≤ 12 * Fintype.card Caller) := by
  refine ⟨fun trace state run => ⟨?_, ?_, ?_⟩, fun trace state run => ⟨?_, ?_, ?_⟩⟩
  · exact (reachable_sound ⟨trace, run⟩).database.clientKeys
  · intro left right leftPath rightPath leftEvent rightEvent sameKey leftDone rightDone
    have sound := reachable_results ⟨trace, run⟩
    have leftResult := sound.results left
    have rightResult := sound.results right
    unfold ResultSound at leftResult rightResult
    rw [leftDone] at leftResult
    rw [rightDone] at rightResult
    obtain ⟨leftRow, leftListed, leftKey, leftDescribes⟩ := leftResult
    obtain ⟨rightRow, rightListed, rightKey, rightDescribes⟩ := rightResult
    obtain rfl : leftRow = rightRow :=
      row_of_key sound.store.database leftListed rightListed
        (leftKey.trans (sameKey.trans rightKey.symm))
    exact ⟨leftDescribes.messageID.trans rightDescribes.messageID.symm,
      leftDescribes.clientMessageID.trans rightDescribes.clientMessageID.symm,
      leftDescribes.roomID.trans rightDescribes.roomID.symm,
      leftDescribes.roomSeq.trans rightDescribes.roomSeq.symm⟩
  · intro caller outcome returned leaves
    rcases run_quiet run caller with past | quiet
    · rw [returned] at past
      cases outcome with
      | accepted path event => exact absurd past leaves
      | failed failure => exact absurd past leaves
    · exact quiet
  · intro caller outcome valid returned
    have healthy := (reachable_healthy ⟨trace, run⟩).calls caller
    unfold HealthyCall at healthy
    rw [returned] at healthy
    exact healthy valid
  · intro caller pending
    exact someone_can_run columns (reachable_healthy ⟨trace, run⟩) pending
  · have length := healthy_run_length run
    omega

/-- One client sends one key to two rooms. -/
def retriedElsewhere (caller : Fin 2) : Input where
  clientID := ascii "ann"
  request := ⟨ascii "send", 1, ascii "m-1",
    if caller = firstOfTwo then ascii "lobby" else ascii "attic", ascii "\"hi\""⟩

/-- Both calls hold a counter before the first inserts its message; the second
meets the committed row and reads it back. -/
def racingAccepts : List (Action (Fin 2)) :=
  runOf firstOfTwo 1 6 ++ runOf secondOfTwo 2 6 ++ runOf firstOfTwo 1 3 ++ runOf secondOfTwo 2 4

def returnedEvent (call : Call) : Option (Path × Bytes × Bytes) :=
  match call.stage with
  | .done (.accepted path event) => some (path, event.messageID, event.roomID)
  | _ => none

theorem racing_accepts_agree :
    ∃ trace state, Run (step plainColumns retriedElsewhere)
        (Healthy plainColumns retriedElsewhere) initial trace state ∧
      (returnedEvent (state.calls 0)).map Prod.fst = some .inserted ∧
      (returnedEvent (state.calls 1)).map Prod.fst = some .conflictRead ∧
      trace.length ≤ 24 ∧
      ∀ outcome, (state.calls 1).stage = .done outcome → Succeeds outcome := by
  have ran : (runActions (step plainColumns retriedElsewhere)
      (Healthy plainColumns retriedElsewhere) initial racingAccepts).map (fun state =>
        ((returnedEvent (state.calls 0)).map Prod.fst,
          (returnedEvent (state.calls 1)).map Prod.fst)) =
      some (some .inserted, some .conflictRead) := by decide +kernel
  obtain ⟨state, reached, paths⟩ := Option.map_eq_some_iff.mp ran
  obtain ⟨trace, run⟩ := reachable_run_actions reachable_start reached
  obtain ⟨succeed, _, length⟩ :=
    (accept_idempotent plainColumns retriedElsewhere).2 trace state run
  simp only [Prod.mk.injEq] at paths
  refine ⟨trace, state, run, paths.1, paths.2, length, fun outcome returned => ?_⟩
  exact succeed 1 outcome ⟨by decide +kernel, by decide +kernel⟩ returned

end Results

end ChatScale.MessageStoreProgress
