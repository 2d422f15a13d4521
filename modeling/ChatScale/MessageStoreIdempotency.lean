import ChatScale.MessageStoreInvariants
import Mathlib.Algebra.BigOperators.Fin
import Mathlib.Algebra.Order.BigOperators.Group.Finset

/-!
# Retried calls

Every call that succeeds returns the committed row of its client key, on
whichever path it got there, and only a commit changes the tables. When no
statement fails for a reason of its own, no call is ever stuck and every call
with a valid request succeeds.
-/

namespace ChatScale.MessageStoreIdempotency

open ChatScale.ByteText ChatScale.ByteEncodings ChatScale.JsonText ChatScale.MessageContract
open ChatScale.MessageId ChatScale.MessageStoreModel ChatScale.MessageStoreStatements
open ChatScale.MessageStoreInvariants ChatScale.TransitionSystem

set_option autoImplicit false

def inputKey (input : Input) : Bytes × Bytes := (input.clientID, input.request.clientMessageID)

/-- The event and the row agree on what identifies a message. -/
structure Describes (event : Event) (row : MessageRow) : Prop where
  messageID : event.messageID = row.messageID.text
  clientMessageID : event.clientMessageID = row.clientMessageID
  roomID : event.roomID = row.roomID
  roomSeq : event.roomSeq = row.roomSeq

/-- The event is that of a committed row of the client key. -/
def Committed (input : Input) (db : Database) (event : Event) : Prop :=
  ∃ row ∈ db.messages, clientKey row = inputKey input ∧ Describes event row

/-- What a call has in hand at each stage. -/
def ResultSound (input : Input) (db : Database) (call : Call) : Prop :=
  match call.stage with
  | .commitRead event => Committed input db event
  | .insertMessage event id => event.messageID = id.text ∧
      event.clientMessageID = input.request.clientMessageID
  | .insertOutbox event _ => ∀ tx, call.tx = some tx → ∀ row, tx.message = some row →
      clientKey row = inputKey input ∧ Describes event row
  | .commit event => ∀ tx, call.tx = some tx → ∀ row, tx.message = some row →
      clientKey row = inputKey input ∧ Describes event row
  | .rollback => ∃ row ∈ db.messages, clientKey row = inputKey input
  | .reread => ∃ row ∈ db.messages, clientKey row = inputKey input
  | .closing (.accepted _ event) => Committed input db event
  | .done (.accepted _ event) => Committed input db event
  | _ => True

/-- Rows are only ever added. -/
def Grows (before after : Database) : Prop := ∀ row ∈ before.messages, row ∈ after.messages

theorem grows_refl (db : Database) : Grows db db := fun _ member => member

theorem grows_apply (db : Database) (tx : Transaction) : Grows db (applyTransaction db tx) :=
  fun _ member => List.mem_append_left _ member

theorem committed_grows {input : Input} {before after : Database} {event : Event}
    (grows : Grows before after) (committed : Committed input before event) :
    Committed input after event := by
  obtain ⟨row, listed, key, describes⟩ := committed
  exact ⟨row, grows row listed, key, describes⟩

theorem result_sound_grows {input : Input} {before after : Database} {call : Call}
    (grows : Grows before after) (sound : ResultSound input before call) :
    ResultSound input after call := by
  have rows (present : ∃ row ∈ before.messages, clientKey row = inputKey input) :
      ∃ row ∈ after.messages, clientKey row = inputKey input := by
    obtain ⟨row, listed, key⟩ := present
    exact ⟨row, grows row listed, key⟩
  obtain ⟨stage, tx⟩ := call
  cases stage with
  | commitRead event => exact committed_grows grows sound
  | rollback => exact rows sound
  | reread => exact rows sound
  | closing outcome =>
      cases outcome with
      | accepted path event => exact committed_grows grows sound
      | failed failure => trivial
  | done outcome =>
      cases outcome with
      | accepted path event => exact committed_grows grows sound
      | failed failure => trivial
  | _ => exact sound

theorem find_event_committed {input : Input} {db : Database} {event : Event}
    (found : findEvent db input.clientID input.request.clientMessageID = some event) :
    Committed input db event := by
  obtain ⟨row, rowFound, rfl⟩ := Option.map_eq_some_iff.mp found
  have key := List.find?_some rowFound
  simp only [Bool.and_eq_true, beq_iff_eq] at key
  refine ⟨row, List.mem_of_find?_eq_some rowFound, ?_, ⟨rfl, rfl, rfl, rfl⟩⟩
  rw [clientKey, key.1, key.2]
  rfl

theorem find_event_of_row {input : Input} {db : Database}
    (present : ∃ row ∈ db.messages, clientKey row = inputKey input) :
    ∃ event, findEvent db input.clientID input.request.clientMessageID = some event := by
  obtain ⟨row, listed, key⟩ := present
  simp only [clientKey, inputKey, Prod.mk.injEq] at key
  have isFound : (findRow db input.clientID input.request.clientMessageID).isSome = true := by
    rw [findRow, List.find?_isSome]
    exact ⟨row, listed, by simp [key.1, key.2]⟩
  obtain ⟨found, same⟩ := Option.isSome_iff_exists.mp isFound
  exact ⟨readRow found, by rw [findEvent, same]; rfl⟩

section Steps

variable {Caller : Type} {columns : Columns} {inputs : Caller → Input}
  {state after : State Caller} {caller : Caller}

structure ResultsSound (inputs : Caller → Input) (state : State Caller) : Prop where
  store : StoreSound inputs state
  results : ∀ caller, ResultSound (inputs caller) state.db (state.calls caller)

theorem commit_result {event : Event} {tx : Transaction} (sound : ResultsSound inputs state)
    (stage : (state.calls caller).stage = .commit event)
    (opened : (state.calls caller).tx = some tx) :
    Committed (inputs caller) (applyTransaction state.db tx) event := by
  have shape := sound.store.shape caller
  have result := sound.results caller
  unfold StageShape at shape
  unfold ResultSound at result
  rw [stage] at shape result
  obtain ⟨row, stored, written, _⟩ := shape tx opened
  have holds := result tx opened row (by rw [written])
  refine ⟨row, ?_, holds⟩
  rw [written]
  exact List.mem_append_right _ (List.mem_singleton.mpr rfl)

variable [Fintype Caller] [DecidableEq Caller]

theorem drop_result {input : Input} {db : Database} {call : Call}
    (result : ResultSound input db call) : ResultSound input db { call with tx := none } := by
  obtain ⟨stage, tx⟩ := call
  cases stage with
  | insertOutbox event id => rintro _ ⟨⟩
  | commit event => rintro _ ⟨⟩
  | closing outcome => cases outcome <;> exact result
  | done outcome => cases outcome <;> exact result
  | _ => exact result

theorem ran_result {random : Uuid} {clock : ClockReading} {effect : Database × Call}
    (sound : ResultsSound inputs state)
    (ran : Ran columns (inputs caller) state.db (heldByOther state.calls caller)
      (state.calls caller) random clock effect) :
    Grows state.db effect.1 ∧ ResultSound (inputs caller) effect.1 effect.2 := by
  have result := sound.results caller
  unfold ResultSound at result
  cases ran with
  | poolRead _ found => exact ⟨grows_refl _, find_event_committed found⟩
  | transactionRead _ found => exact ⟨grows_refl _, find_event_committed found⟩
  | conflictRead _ found => exact ⟨grows_refl _, find_event_committed found⟩
  | committedRead stage =>
      rw [stage] at result
      exact ⟨grows_apply _ _, committed_grows (grows_apply _ _) result⟩
  | generated => exact ⟨grows_refl _, rfl, rfl⟩
  | insertedMessage stage =>
      rw [stage] at result
      refine ⟨grows_refl _, ?_⟩
      rintro _ ⟨⟩ row ⟨⟩
      exact ⟨by rw [clientKey, messageRow, result.2]; rfl, ⟨result.1, rfl, rfl, rfl⟩⟩
  | conflicted stage _ clash =>
      rw [stage] at result
      obtain ⟨row, listed, same⟩ := List.any_eq_true.mp clash
      simp only [sameClientKey, messageRow, Bool.and_eq_true, beq_iff_eq] at same
      refine ⟨grows_refl _, row, listed, ?_⟩
      rw [clientKey, ← same.1, ← same.2, result.2]
      rfl
  | rolledBack stage =>
      rw [stage] at result
      exact ⟨grows_refl _, result⟩
  | insertedOutbox stage opened =>
      rw [stage] at result
      refine ⟨grows_refl _, ?_⟩
      rintro _ ⟨⟩ row writes
      exact result _ opened row writes
  | committed stage opened => exact ⟨grows_apply _ _, commit_result sound stage opened⟩
  | @closed outcome stage =>
      rw [stage] at result
      cases outcome with
      | accepted path event => exact ⟨grows_refl _, result⟩
      | failed failure => exact ⟨grows_refl _, trivial⟩
  | _ => exact ⟨grows_refl _, trivial⟩

theorem move_result {move : Move} {effect : Database × Call} (sound : ResultsSound inputs state)
    (moved : moveEffect columns (inputs caller) state.db (heldByOther state.calls caller)
      (state.calls caller) move = some effect) :
    Grows state.db effect.1 ∧ ResultSound (inputs caller) effect.1 effect.2 := by
  cases move_cases moved with
  | run ran => exact ran_result sound ran
  | failed => exact ⟨grows_refl _, trivial⟩
  | ignored stage =>
      have result := sound.results caller
      unfold ResultSound at result
      rw [stage] at result
      exact ⟨grows_refl _, result⟩
  | aborted => exact ⟨grows_refl _, drop_result (sound.results caller)⟩
  | lostCommit => exact ⟨grows_apply _ _, trivial⟩

theorem results_step {action : Action Caller} (sound : ResultsSound inputs state)
    (stepped : step columns inputs state action = some after) : ResultsSound inputs after := by
  refine ⟨step_sound sound.store stepped, ?_⟩
  obtain ⟨effect, moved, rfl⟩ := Option.map_eq_some_iff.mp stepped
  obtain ⟨grows, own⟩ := move_result sound moved
  intro other
  by_cases same : other = action.caller
  · subst same
    simpa only [Function.update_self] using own
  · simpa only [Function.update_of_ne same] using
      result_sound_grows grows (sound.results other)

theorem reachable_results {allowed : State Caller → Action Caller → Prop}
    (reached : Reachable (step columns inputs) allowed initial state) :
    ResultsSound inputs state :=
  reachable_invariant (ResultsSound inputs) ⟨initial_sound inputs, fun _ => trivial⟩
    (fun _ _ _ sound _ stepped => results_step sound stepped) reached

/-- Rows of one client key are one row. -/
theorem row_of_key {db : Database} (sound : DatabaseSound db) {left right : MessageRow}
    (leftListed : left ∈ db.messages) (rightListed : right ∈ db.messages)
    (same : clientKey left = clientKey right) : left = right :=
  List.inj_on_of_nodup_map sound.clientKeys leftListed rightListed same

end Steps

section Quiet

variable {Caller : Type} [Fintype Caller] [DecidableEq Caller] {columns : Columns}
  {inputs : Caller → Input} {state after : State Caller} {caller : Caller}

/-- The call has reached its commit, whether or not it knows the outcome. -/
def PastCommit : Stage → Prop
  | .closing (.failed failure) => failure = .commit
  | .done (.failed failure) => failure = .commit
  | .done (.accepted path _) => path = .inserted
  | _ => False

theorem move_quiet {move : Move} {effect : Database × Call} (sound : StoreSound inputs state)
    (moved : moveEffect columns (inputs caller) state.db (heldByOther state.calls caller)
      (state.calls caller) move = some effect) :
    effect.1 = state.db ∨ PastCommit effect.2.stage := by
  rcases move_database sound moved with unchanged | ⟨event, tx, _, _, _, stage⟩
  · exact .inl unchanged
  · rcases stage with stage | stage <;> rw [stage] <;> exact .inr rfl

theorem past_commit_ending {stage : Stage} (past : PastCommit stage) :
    Stage.isEnding stage = true := by
  cases stage <;> first | rfl | cases past

/-- A call past its commit stays past it. -/
theorem move_past_commit {move : Move} {effect : Database × Call}
    (past : PastCommit (state.calls caller).stage)
    (moved : moveEffect columns (inputs caller) state.db (heldByOther state.calls caller)
      (state.calls caller) move = some effect) : PastCommit effect.2.stage := by
  have ending := past_commit_ending past
  cases move_cases moved with
  | run ran =>
      obtain ⟨outcome, stage, rfl⟩ := ran_ending ran ending
      rw [stage] at past
      cases outcome with
      | accepted path event => cases past
      | failed failure => exact past
  | failed running =>
      rw [running] at ending
      cases ending
  | ignored stage =>
      rw [stage] at past
      cases past
  | aborted => exact past
  | lostCommit stage =>
      rw [stage] at past
      cases past

/-- Along a run, a call has changed nothing as long as it is not past the one
step that changes the tables. -/
theorem run_quiet_until {allowed : State Caller → Action Caller → Prop} (past : Stage → Prop)
    (enters : ∀ (state : State Caller) (action : Action Caller) effect,
      StoreSound inputs state → allowed state action →
      moveEffect columns (inputs action.caller) state.db
        (heldByOther state.calls action.caller) (state.calls action.caller) action.move =
          some effect → effect.1 = state.db ∨ past effect.2.stage)
    (stays : ∀ (state : State Caller) (action : Action Caller) effect,
      past (state.calls action.caller).stage →
      moveEffect columns (inputs action.caller) state.db
        (heldByOther state.calls action.caller) (state.calls action.caller) action.move =
          some effect → past effect.2.stage)
    {trace : List (Transition (State Caller) (Action Caller))}
    (run : Run (step columns inputs) allowed initial trace state) (caller : Caller) :
    past (state.calls caller).stage ∨ ∀ transition ∈ trace, transition.action.caller = caller →
      transition.after.db = transition.before.db := by
  induction run with
  | nil => exact .inr fun _ member => by cases member
  | @snoc trace middle next action prior permitted stepped induction =>
      have sound := reachable_sound ⟨trace, prior⟩
      obtain ⟨effect, moved, rfl⟩ := Option.map_eq_some_iff.mp stepped
      by_cases same : action.caller = caller
      · subst same
        simp only [Function.update_self]
        rcases induction with isPast | quiet
        · exact .inl (stays middle action effect isPast moved)
        · rcases enters middle action effect sound permitted moved with unchanged | isPast
          · refine .inr fun transition member own => ?_
            rcases List.mem_append.mp member with old | new
            · exact quiet transition old own
            · rw [List.mem_singleton.mp new]
              exact unchanged
          · exact .inl isPast
      · simp only [Function.update_of_ne (Ne.symm same)]
        refine induction.imp id fun quiet transition member own => ?_
        rcases List.mem_append.mp member with old | new
        · exact quiet transition old own
        · rw [List.mem_singleton.mp new] at own
          exact absurd own same

/-- Along a run, a call that is not past its commit has changed nothing. -/
theorem run_quiet {allowed : State Caller → Action Caller → Prop}
    {trace : List (Transition (State Caller) (Action Caller))}
    (run : Run (step columns inputs) allowed initial trace state) (caller : Caller) :
    PastCommit (state.calls caller).stage ∨
      ∀ transition ∈ trace, transition.action.caller = caller →
        transition.after.db = transition.before.db :=
  run_quiet_until PastCommit (fun _ _ _ sound _ moved => move_quiet sound moved)
    (fun _ _ _ past moved => move_past_commit past moved) run caller

end Quiet

end ChatScale.MessageStoreIdempotency
