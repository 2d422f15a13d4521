import ChatScale.OutboxRelayOrder

/-!
# What the rows of an accepted message hold

Every row of `message_outbox` is the stored text of an event that `Accept` made
for a request, next to the row of `messages` with the same event. The texts of
that event are valid UTF-8 and its number fits 64 bits, because the statements
before the two inserts would have failed otherwise.
-/

namespace ChatScale.MessageStoreContents

open ChatScale.ByteText ChatScale.ByteEncodings ChatScale.TransitionSystem
open ChatScale.MessageContract ChatScale.MessageId ChatScale.MessageStoreModel
open ChatScale.MessageStoreStatements ChatScale.MessageStoreInvariants
open ChatScale.OutboxRelayModel ChatScale.OutboxRelayOrder

set_option autoImplicit false

/-- An event as `Accept` has checked it before it writes anything. -/
structure Drafted (input : Input) (event : Event) (id : Uuid) : Prop where
  made : ∃ roomSeq random clock, event = acceptedEvent input roomSeq random clock
  named : event.messageID = id.text
  valid : event.validate = .ok ()
  clientText : isText input.request.clientMessageID = true
  roomText : isText input.request.roomID = true
  bound : event.roomSeq ≤ maxInt64

/-- The row of `messages` and the outbox entry that are written for an event. -/
structure Writes (columns : Columns) (input : Input) (message : MessageRow) (entry : Entry)
    (event : Event) : Prop where
  message : ∃ id payload, Drafted input event id ∧ columns.jsonb event.payload = some payload ∧
    message = messageRow columns input event id payload
  entry : ∃ serialized stored, event.marshal = some serialized ∧
    columns.jsonb serialized = some stored ∧
      entry = ⟨event.messageID, event.roomID, event.roomSeq, stored⟩

def Stored (columns : Columns) (input : Input) (db : Database) (event : Event) : Prop :=
  ∃ message ∈ db.messages, ∃ row ∈ db.outbox, Writes columns input message (entryOf row) event

def OutcomeStored (columns : Columns) (input : Input) (db : Database) : Outcome → Prop
  | .accepted .inserted event => Stored columns input db event
  | _ => True

/-- What a call has made sure of, and what it has written. -/
def ContentSound (columns : Columns) (input : Input) (db : Database) (call : Call) : Prop :=
  match call.stage with
  | .begin => isText input.request.clientMessageID = true
  | .findTransaction => isText input.request.clientMessageID = true
  | .allocate => isText input.request.clientMessageID = true
  | .generate roomSeq => isText input.request.clientMessageID = true ∧
      isText input.request.roomID = true ∧ roomSeq ≤ maxInt64
  | .insertMessage event id => Drafted input event id
  | .insertOutbox event id => Drafted input event id ∧ ∀ tx, call.tx = some tx → ∃ payload,
      columns.jsonb event.payload = some payload ∧
        tx.message = some (messageRow columns input event id payload)
  | .commit event => ∀ tx, call.tx = some tx → ∃ message row, tx.message = some message ∧
      tx.outbox = some row ∧ Writes columns input message (entryOf row) event
  | .closing outcome => OutcomeStored columns input db outcome
  | .done outcome => OutcomeStored columns input db outcome
  | _ => True

/-- No row is lost; marking a row does not change its entry. -/
structure Keeps (before after : Database) : Prop where
  messages : ∀ message ∈ before.messages, message ∈ after.messages
  entries : ∀ row ∈ before.outbox, ∃ next ∈ after.outbox, entryOf next = entryOf row

section Growth

variable {columns : Columns} {input : Input} {before after : Database} {call : Call}

theorem keeps_refl (db : Database) : Keeps db db :=
  ⟨fun _ listed => listed, fun row listed => ⟨row, listed, rfl⟩⟩

theorem keeps_apply (db : Database) (tx : Transaction) : Keeps db (applyTransaction db tx) where
  messages := fun _ listed => List.mem_append_left _ listed
  entries := fun row listed => ⟨row, List.mem_append_left _ listed, rfl⟩

theorem keeps_mark (db : Database) (messageID : Bytes) : Keeps db (markPublished db messageID) where
  messages := by
    intro message listed
    rw [mark_database]
    exact listed
  entries := (extends_mark db messageID []).kept

theorem stored_keeps (keeps : Keeps before after) {event : Event}
    (stored : Stored columns input before event) : Stored columns input after event := by
  obtain ⟨message, messageListed, row, rowListed, writes⟩ := stored
  obtain ⟨next, nextListed, same⟩ := keeps.entries row rowListed
  exact ⟨message, keeps.messages message messageListed, next, nextListed, same ▸ writes⟩

theorem outcome_keeps (keeps : Keeps before after) {outcome : Outcome}
    (stored : OutcomeStored columns input before outcome) :
    OutcomeStored columns input after outcome := by
  unfold OutcomeStored at stored ⊢
  split
  · exact stored_keeps keeps stored
  · trivial

theorem content_keeps (keeps : Keeps before after)
    (content : ContentSound columns input before call) :
    ContentSound columns input after call := by
  obtain ⟨stage, tx⟩ := call
  cases stage with
  | closing outcome => exact outcome_keeps keeps content
  | done outcome => exact outcome_keeps keeps content
  | _ => exact content

end Growth

section Statements

variable {columns : Columns} {input : Input} {db : Database} {call next : Call}
  {held : (Transaction → Bool) → Bool} {tx : Transaction} {event : Event} {id : Uuid}

theorem commit_content {message : MessageRow} {row : OutboxRow}
    (inserted : tx.message = some message) (listed : tx.outbox = some row)
    (writes : Writes columns input message (entryOf row) event) :
    Stored columns input (applyTransaction db tx) event := by
  refine ⟨message, ?_, row, ?_, writes⟩
  · apply List.mem_append_right
    rw [inserted]
    exact List.mem_singleton.mpr rfl
  · apply List.mem_append_right
    rw [listed]
    exact List.mem_singleton.mpr rfl

theorem ran_content {random : Uuid} {clock : ClockReading} {effect : Database × Call}
    (content : ContentSound columns input db call)
    (ran : Ran columns input db held call random clock effect) :
    ContentSound columns input effect.1 effect.2 := by
  unfold ContentSound at content
  cases ran with
  | poolMissed _ text => exact text
  | began stage =>
      rw [stage] at content
      exact content
  | transactionMissed stage =>
      rw [stage] at content
      exact content
  | allocated stage _ text _ bound =>
      rw [stage] at content
      exact ⟨content, text, bound⟩
  | generated stage valid =>
      rw [stage] at content
      exact ⟨⟨_, random, clock, rfl⟩, rfl, valid, content.1, content.2.1, content.2.2⟩
  | insertedMessage stage _ kept =>
      rw [stage] at content
      refine ⟨content, ?_⟩
      intro written same
      cases same
      exact ⟨_, kept, rfl⟩
  | @insertedOutbox event id tx serialized stored stage opened marshalled kept =>
      rw [stage] at content
      obtain ⟨payload, payloadKept, written⟩ := content.2 tx opened
      intro after same
      cases same
      refine ⟨messageRow columns input event id payload, outboxRow columns event id stored,
        written, rfl, ⟨id, payload, content.1, payloadKept, rfl⟩, serialized, stored, marshalled,
        kept, ?_⟩
      rw [content.1.named]
      rfl
  | committed stage opened =>
      rw [stage] at content
      obtain ⟨message, row, inserted, listed, writes⟩ := content _ opened
      exact commit_content inserted listed writes
  | closed stage =>
      rw [stage] at content
      exact content
  | _ => trivial

theorem drop_content (content : ContentSound columns input db call) :
    ContentSound columns input db { call with tx := none } := by
  obtain ⟨stage, tx⟩ := call
  cases stage with
  | insertOutbox event id => exact ⟨content.1, fun _ opened => nomatch opened⟩
  | commit event => exact fun _ opened => nomatch opened
  | _ => exact content

theorem move_content {move : Move} {effect : Database × Call}
    (content : ContentSound columns input db call)
    (moved : moveEffect columns input db held call move = some effect) :
    ContentSound columns input effect.1 effect.2 := by
  cases move_cases moved with
  | run ran => exact ran_content content ran
  | aborted => exact drop_content content
  | _ => trivial

end Statements

section Invariant

variable {Caller Relay : Type} {columns : Columns} {inputs : Caller → Input}

/-- The tables and the calls of the store hold what `Accept` made. -/
structure ContentsSound (columns : Columns) (inputs : Caller → Input)
    (state : MessageStoreModel.State Caller) : Prop where
  calls : ∀ caller, ContentSound columns (inputs caller) state.db (state.calls caller)
  rows : ∀ row ∈ state.db.outbox, ∃ caller event, ∃ message ∈ state.db.messages,
    Writes columns (inputs caller) message (entryOf row) event

theorem initial_contents : ContentsSound columns inputs MessageStoreModel.initial where
  calls := fun _ => trivial
  rows := fun _ listed => nomatch listed

theorem mark_contents {state : MessageStoreModel.State Caller}
    (sound : ContentsSound columns inputs state) (messageID : Bytes) :
    ContentsSound columns inputs { state with db := markPublished state.db messageID } where
  calls := fun caller => content_keeps (keeps_mark state.db messageID) (sound.calls caller)
  rows := by
    intro next listed
    obtain ⟨row, rowListed, same⟩ := mark_row listed
    obtain ⟨caller, event, message, messageListed, writes⟩ := sound.rows row rowListed
    have entry : entryOf next = entryOf row := by
      rcases same with rfl | ⟨_, rfl⟩
      · rfl
      · rfl
    exact ⟨caller, event, message, (keeps_mark state.db messageID).messages message messageListed,
      entry ▸ writes⟩

variable [Fintype Caller] [DecidableEq Caller]

theorem store_step_contents {state after : MessageStoreModel.State Caller}
    (store : StoreSound inputs state) (sound : ContentsSound columns inputs state)
    {action : MessageStoreModel.Action Caller}
    (stepped : MessageStoreModel.step columns inputs state action = some after) :
    ContentsSound columns inputs after := by
  obtain ⟨effect, moved, rfl⟩ := Option.map_eq_some_iff.mp stepped
  have own := move_content (sound.calls action.caller) moved
  have grown : Keeps state.db effect.1 ∧
      ∀ row ∈ effect.1.outbox, ∃ caller event, ∃ message ∈ effect.1.messages,
        Writes columns (inputs caller) message (entryOf row) event := by
    rcases move_database store moved with unchanged | ⟨event, tx, stage, opened, applied, _⟩
    · rw [unchanged]
      exact ⟨keeps_refl state.db, sound.rows⟩
    · have content := sound.calls action.caller
      unfold ContentSound at content
      rw [stage] at content
      obtain ⟨message, row, inserted, added, writes⟩ := content tx opened
      rw [applied]
      refine ⟨keeps_apply state.db tx, ?_⟩
      intro other listed
      rcases List.mem_append.mp listed with old | new
      · obtain ⟨caller, earlier, its, itsListed, wrote⟩ := sound.rows other old
        exact ⟨caller, earlier, its, List.mem_append_left _ itsListed, wrote⟩
      · rw [added, Option.toList_some, List.mem_singleton] at new
        subst new
        refine ⟨action.caller, event, message, List.mem_append_right _ ?_, writes⟩
        rw [inserted]
        exact List.mem_singleton.mpr rfl
  refine ⟨?_, grown.2⟩
  intro other
  by_cases same : other = action.caller
  · subst same
    simpa only [Function.update_self] using own
  · simpa only [Function.update_of_ne same] using content_keeps grown.1 (sound.calls other)

variable [DecidableEq Relay]

theorem relay_step_contents {environment : Environment Relay} {system after : System Caller Relay}
    {action : OutboxRelayModel.Action Caller Relay} (relays : RelaySound inputs system)
    (sound : ContentsSound environment.columns inputs system.store)
    (stepped : OutboxRelayModel.step environment inputs system action = some after) :
    ContentsSound environment.columns inputs after.store := by
  cases action with
  | store action =>
      obtain ⟨store, storeStepped, rfl⟩ := Option.map_eq_some_iff.mp stepped
      exact store_step_contents relays.store sound storeStepped
  | relay relay move =>
      obtain ⟨effect, moved, rfl⟩ := Option.map_eq_some_iff.mp stepped
      cases relay_effect_cases moved with
      | quiet quiet =>
          dsimp only
          rw [quiet.db]
          exact sound
      | fetched => exact sound
      | appended => exact sound
      | marked => exact mark_contents sound _
  | late record =>
      simp only [OutboxRelayModel.step] at stepped
      split_ifs at stepped
      cases stepped
      exact sound

theorem reachable_contents {environment : Environment Relay} {system : System Caller Relay}
    {allowed : System Caller Relay → OutboxRelayModel.Action Caller Relay → Prop}
    (reached : Reachable (OutboxRelayModel.step environment inputs) allowed
      OutboxRelayModel.initial system) :
    ContentsSound environment.columns inputs system.store :=
  (reachable_invariant
    (fun system => RelaySound inputs system ∧
      ContentsSound environment.columns inputs system.store)
    ⟨initial_relay_sound inputs, initial_contents⟩
    (fun _ _ _ sound _ stepped =>
      ⟨step_relay_sound sound.1 stepped, relay_step_contents sound.1 sound.2 stepped⟩)
    reached).2

end Invariant

end ChatScale.MessageStoreContents
