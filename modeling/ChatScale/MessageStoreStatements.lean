import ChatScale.MessageStoreModel

/-!
# What a move of a call does

One case for each way in which a statement of `Accept` can end, and one for each
move that is not the end of a statement. What holds of all calls is proved from
these cases.
-/

namespace ChatScale.MessageStoreStatements

open ChatScale.ByteText ChatScale.ByteEncodings ChatScale.MessageContract ChatScale.MessageId
open ChatScale.MessageStoreModel

set_option autoImplicit false

/-- The call has its outcome. -/
def Stage.isEnding : Stage → Bool
  | .closing _ => true
  | .done _ => true
  | _ => false

section Cases

variable (columns : Columns) (input : Input) (db : Database)
  (held : (Transaction → Bool) → Bool) (call : Call)

/-- Why a statement fails although the database has answered it. -/
inductive Failing : Failure → Prop
  | blankClient (stage : call.stage = .start) (blank : isBlank input.clientID = true) :
      Failing .clientRequired
  | invalidRequest {message : String} (stage : call.stage = .start)
      (invalid : input.request.validate = .error message) : Failing (.invalidRequest message)
  | clientText (stage : call.stage = .findPool)
      (refused : (isText input.clientID && isText input.request.clientMessageID) = false) :
      Failing .findAccepted
  | roomText (stage : call.stage = .allocate) (refused : isText input.request.roomID = false) :
      Failing .allocate
  | counter (stage : call.stage = .allocate)
      (overflow : maxInt64 < lastSeq db input.request.roomID + 1) : Failing .allocate
  | invalidEvent {roomSeq : Int} {random : Uuid} {clock : ClockReading} {message : String}
      (stage : call.stage = .generate roomSeq)
      (invalid : (acceptedEvent input roomSeq random clock).validate = .error message) :
      Failing (.validateEvent message)
  | payload {event : Event} {id : Uuid} (stage : call.stage = .insertMessage event id)
      (refused : columns.jsonb event.payload = none) : Failing .insertHistory
  | messageKey {event : Event} {id : Uuid} {payload : Bytes}
      (stage : call.stage = .insertMessage event id)
      (kept : columns.jsonb event.payload = some payload)
      (clash : db.messages.any (sameMessageKey (messageRow columns input event id payload)) =
        true) : Failing .insertHistory
  | missing (stage : call.stage = .reread)
      (absent : findEvent db input.clientID input.request.clientMessageID = none) :
      Failing .insertHistory
  | marshal {event : Event} {id : Uuid} (stage : call.stage = .insertOutbox event id)
      (unmarshalled : event.marshal = none) : Failing .marshal
  | event {event : Event} {id : Uuid} {serialized : Bytes}
      (stage : call.stage = .insertOutbox event id)
      (marshalled : event.marshal = some serialized)
      (refused : columns.jsonb serialized = none) : Failing .insertOutbox
  | outboxKey {event : Event} {id : Uuid} {serialized stored : Bytes}
      (stage : call.stage = .insertOutbox event id)
      (marshalled : event.marshal = some serialized)
      (kept : columns.jsonb serialized = some stored)
      (clash : db.outbox.any (sameOutboxKey (outboxRow columns event id stored)) = true) :
      Failing .insertOutbox

/-- How the next statement of a call ends. -/
inductive Ran (random : Uuid) (clock : ClockReading) : Database × Call → Prop
  | failed {failure : Failure} (failing : Failing columns input db call failure) :
      Ran random clock (db, call.fail failure)
  | started (stage : call.stage = .start) (client : isBlank input.clientID = false)
      (valid : input.request.validate = .ok ()) : Ran random clock (db, call.goto .findPool)
  | poolRead {event : Event} (stage : call.stage = .findPool)
      (found : findEvent db input.clientID input.request.clientMessageID = some event) :
      Ran random clock (db, call.goto (.closing (.accepted .poolRead event)))
  | poolMissed (stage : call.stage = .findPool)
      (text : isText input.request.clientMessageID = true) :
      Ran random clock (db, call.goto .begin)
  | began (stage : call.stage = .begin) :
      Ran random clock (db, ⟨.findTransaction, some emptyTransaction⟩)
  | transactionRead {event : Event} (stage : call.stage = .findTransaction)
      (found : findEvent db input.clientID input.request.clientMessageID = some event) :
      Ran random clock (db, call.goto (.commitRead event))
  | transactionMissed (stage : call.stage = .findTransaction) :
      Ran random clock (db, call.goto .allocate)
  | committedRead {event : Event} {tx : Transaction} (stage : call.stage = .commitRead event)
      (opened : call.tx = some tx) : Ran random clock
        (applyTransaction db tx, ⟨.done (.accepted .transactionRead event), none⟩)
  | allocated {tx : Transaction} (stage : call.stage = .allocate) (opened : call.tx = some tx)
      (text : isText input.request.roomID = true)
      (free : held (fun other =>
        other.counter.any fun row => row.1 == input.request.roomID) = false)
      (bound : lastSeq db input.request.roomID + 1 ≤ maxInt64) : Ran random clock
        (db, ⟨.generate (lastSeq db input.request.roomID + 1), some { tx with
          counter := some (input.request.roomID, lastSeq db input.request.roomID + 1) }⟩)
  | generated {roomSeq : Int} (stage : call.stage = .generate roomSeq)
      (valid : (acceptedEvent input roomSeq random clock).validate = .ok ()) :
      Ran random clock (db, call.goto
        (.insertMessage (acceptedEvent input roomSeq random clock) (stamped random)))
  | insertedMessage {event : Event} {id : Uuid} {tx : Transaction} {payload : Bytes}
      (stage : call.stage = .insertMessage event id) (opened : call.tx = some tx)
      (kept : columns.jsonb event.payload = some payload)
      (free : held (fun other => other.message.any fun its =>
        sameMessageKey (messageRow columns input event id payload) its ||
          sameClientKey (messageRow columns input event id payload) its) = false)
      (fresh : ∀ other ∈ db.messages,
        sameMessageKey (messageRow columns input event id payload) other = false ∧
          sameClientKey (messageRow columns input event id payload) other = false) :
      Ran random clock (db, ⟨.insertOutbox event id,
        some { tx with message := some (messageRow columns input event id payload) }⟩)
  | conflicted {event : Event} {id : Uuid} {tx : Transaction} {payload : Bytes}
      (stage : call.stage = .insertMessage event id) (opened : call.tx = some tx)
      (clash : db.messages.any (sameClientKey (messageRow columns input event id payload)) =
        true) : Ran random clock (db, call.goto .rollback)
  | rolledBack (stage : call.stage = .rollback) : Ran random clock (db, ⟨.reread, none⟩)
  | conflictRead {event : Event} (stage : call.stage = .reread)
      (found : findEvent db input.clientID input.request.clientMessageID = some event) :
      Ran random clock (db, call.goto (.closing (.accepted .conflictRead event)))
  | insertedOutbox {event : Event} {id : Uuid} {tx : Transaction} {serialized stored : Bytes}
      (stage : call.stage = .insertOutbox event id) (opened : call.tx = some tx)
      (marshalled : event.marshal = some serialized)
      (kept : columns.jsonb serialized = some stored) : Ran random clock
        (db, ⟨.commit event, some { tx with outbox := some (outboxRow columns event id stored) }⟩)
  | committed {event : Event} {tx : Transaction} (stage : call.stage = .commit event)
      (opened : call.tx = some tx) :
      Ran random clock (applyTransaction db tx, ⟨.done (.accepted .inserted event), none⟩)
  | closed {outcome : Outcome} (stage : call.stage = .closing outcome) :
      Ran random clock (db, ⟨.done outcome, none⟩)

/-- What a move does: a statement ends, or fails for a reason of its own, the
transaction breaks down, or a commit is executed whose answer gets lost. -/
inductive Moved : Move → Database × Call → Prop
  | run {random : Uuid} {clock : ClockReading} {effect : Database × Call}
      (ran : Ran columns input db held call random clock effect) :
      Moved (.run random clock) effect
  | failed {failure : Failure} (running : Stage.isEnding call.stage = false) :
      Moved .fail (db, call.fail failure)
  | ignored (stage : call.stage = .rollback) : Moved .fail (db, call.goto .reread)
  | aborted (opened : call.tx.isSome = true) : Moved .abort (db, { call with tx := none })
  | lostCommit {event : Event} {tx : Transaction} (stage : call.stage = .commit event)
      (opened : call.tx = some tx) :
      Moved .loseCommit (applyTransaction db tx, ⟨.closing (.failed .commit), none⟩)

end Cases

section Exhaustion

variable {columns : Columns} {input : Input} {db : Database}
  {held : (Transaction → Bool) → Bool} {call : Call} {random : Uuid} {clock : ClockReading}

theorem start_cases (stage : call.stage = .start) :
    Ran columns input db held call random clock (db, startCall input call) := by
  unfold startCall
  split_ifs with blank
  · exact .failed (.blankClient stage blank)
  · split
    · rename_i message invalid
      exact .failed (.invalidRequest stage invalid)
    · rename_i valid
      exact .started stage (Bool.eq_false_iff.mpr blank) valid

theorem find_pool_cases (stage : call.stage = .findPool) :
    Ran columns input db held call random clock (db, findPool input db call) := by
  unfold findPool
  split_ifs with texts
  · split
    · rename_i event found
      exact .poolRead stage found
    · exact .poolMissed stage (Bool.and_eq_true_iff.mp texts).2
  · exact .failed (.clientText stage (Bool.eq_false_iff.mpr texts))

theorem find_in_transaction_cases (stage : call.stage = .findTransaction) :
    Ran columns input db held call random clock (db, findInTransaction input db call) := by
  unfold findInTransaction
  split
  · rename_i event found
    exact .transactionRead stage found
  · exact .transactionMissed stage

theorem allocate_cases {tx : Transaction} {next : Call} (stage : call.stage = .allocate)
    (opened : call.tx = some tx) (allocated : allocate input db held call tx = some next) :
    Ran columns input db held call random clock (db, next) := by
  unfold allocate at allocated
  dsimp only at allocated
  split_ifs at allocated with notText blocked overflow
  · cases allocated
    exact .failed (.roomText stage (by simpa using notText))
  · cases allocated
    exact .failed (.counter stage overflow)
  · cases allocated
    exact .allocated stage opened (by simpa using notText) (Bool.eq_false_iff.mpr blocked)
      (Int.not_lt.mp overflow)

theorem generate_cases {roomSeq : Int} (stage : call.stage = .generate roomSeq) :
    Ran columns input db held call random clock
      (db, generate input call roomSeq random clock) := by
  unfold generate
  rw [newMessageID, parse_message_id_text]
  dsimp only
  split
  · rename_i message invalid
    exact .failed (.invalidEvent stage invalid)
  · rename_i valid
    exact .generated stage valid

theorem insert_message_cases {event : Event} {id : Uuid} {tx : Transaction} {next : Call}
    (stage : call.stage = .insertMessage event id) (opened : call.tx = some tx)
    (inserted : insertMessage columns input db held call tx event id = some next) :
    Ran columns input db held call random clock (db, next) := by
  unfold insertMessage at inserted
  split at inserted
  · rename_i refused
    cases inserted
    exact .failed (.payload stage refused)
  · rename_i payload kept
    dsimp only at inserted
    split_ifs at inserted with blocked key client
    · cases inserted
      exact .failed (.messageKey stage kept key)
    · cases inserted
      exact .conflicted stage opened client
    · cases inserted
      refine .insertedMessage stage opened kept (Bool.eq_false_iff.mpr blocked) ?_
      intro other listed
      have keys := List.any_eq_false.mp (Bool.eq_false_iff.mpr key) other listed
      have clients := List.any_eq_false.mp (Bool.eq_false_iff.mpr client) other listed
      exact ⟨Bool.eq_false_iff.mpr keys, Bool.eq_false_iff.mpr clients⟩

theorem reread_cases (stage : call.stage = .reread) :
    Ran columns input db held call random clock (db, reread input db call) := by
  unfold reread
  split
  · rename_i event found
    exact .conflictRead stage found
  · rename_i absent
    exact .failed (.missing stage absent)

theorem insert_outbox_cases {event : Event} {id : Uuid} {tx : Transaction} {next : Call}
    (stage : call.stage = .insertOutbox event id) (opened : call.tx = some tx)
    (inserted : insertOutbox columns db held call tx event id = some next) :
    Ran columns input db held call random clock (db, next) := by
  unfold insertOutbox at inserted
  split at inserted
  · rename_i unmarshalled
    cases inserted
    exact .failed (.marshal stage unmarshalled)
  · rename_i serialized marshalled
    split at inserted
    · rename_i refused
      cases inserted
      exact .failed (.event stage marshalled refused)
    · rename_i stored kept
      dsimp only at inserted
      split_ifs at inserted with blocked clash
      · cases inserted
        exact .failed (.outboxKey stage marshalled kept clash)
      · cases inserted
        exact .insertedOutbox stage opened marshalled kept

theorem run_cases {effect : Database × Call}
    (ran : runStatement columns input db held call random clock = some effect) :
    Ran columns input db held call random clock effect := by
  unfold runStatement at ran
  split at ran
  case h_1 _ _ stage =>
    cases ran
    exact start_cases stage
  case h_2 _ _ stage =>
    cases ran
    exact find_pool_cases stage
  case h_3 _ _ stage =>
    cases ran
    exact .began stage
  case h_4 _ _ stage _ =>
    cases ran
    exact find_in_transaction_cases stage
  case h_5 _ _ event tx stage opened =>
    cases ran
    exact .committedRead stage opened
  case h_6 _ _ tx stage opened =>
    obtain ⟨next, allocated, rfl⟩ := Option.map_eq_some_iff.mp ran
    exact allocate_cases stage opened allocated
  case h_7 _ _ roomSeq stage =>
    cases ran
    exact generate_cases stage
  case h_8 _ _ event id tx stage opened =>
    obtain ⟨next, inserted, rfl⟩ := Option.map_eq_some_iff.mp ran
    exact insert_message_cases stage opened inserted
  case h_9 _ _ stage =>
    cases ran
    exact .rolledBack stage
  case h_10 _ _ stage =>
    cases ran
    exact reread_cases stage
  case h_11 _ _ event id tx stage opened =>
    obtain ⟨next, inserted, rfl⟩ := Option.map_eq_some_iff.mp ran
    exact insert_outbox_cases stage opened inserted
  case h_12 _ _ event tx stage opened =>
    cases ran
    exact .committed stage opened
  case h_13 _ _ outcome stage =>
    cases ran
    exact .closed stage
  case h_14 => cases ran

theorem fail_statement_cases {next : Call} (failed : failStatement call = some next) :
    Moved columns input db held call .fail (db, next) := by
  unfold failStatement at failed
  cases stage : call.stage with
  | rollback =>
      rw [stage] at failed
      cases failed
      exact .ignored stage
  | _ =>
      rw [stage] at failed
      cases failed
      all_goals
        apply Moved.failed
        rw [stage]
        rfl

theorem move_cases {move : Move} {effect : Database × Call}
    (moved : moveEffect columns input db held call move = some effect) :
    Moved columns input db held call move effect := by
  cases move with
  | run random clock => exact .run (run_cases moved)
  | fail =>
      obtain ⟨next, failed, rfl⟩ := Option.map_eq_some_iff.mp moved
      exact fail_statement_cases failed
  | abort =>
      simp only [moveEffect] at moved
      split_ifs at moved with opened
      cases moved
      exact .aborted opened
  | loseCommit =>
      simp only [moveEffect] at moved
      split at moved
      · rename_i event tx stage opened
        cases moved
        exact .lostCommit stage opened
      · cases moved

/-- A statement that fails is not the last one. -/
theorem failing_running {failure : Failure} (failing : Failing columns input db call failure) :
    Stage.isEnding call.stage = false := by
  cases failing <;> simp [Stage.isEnding, *]

/-- A call that has its outcome can only return it. -/
theorem ran_ending {effect : Database × Call}
    (ran : Ran columns input db held call random clock effect)
    (ending : Stage.isEnding call.stage = true) :
    ∃ outcome, call.stage = .closing outcome ∧ effect = (db, ⟨.done outcome, none⟩) := by
  cases ran with
  | closed stage => exact ⟨_, stage, rfl⟩
  | failed failing =>
      rw [failing_running failing] at ending
      cases ending
  | _ => simp [Stage.isEnding, *] at ending

end Exhaustion

end ChatScale.MessageStoreStatements
