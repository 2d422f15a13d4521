import ChatScale.Linearization
import ChatScale.MessageStoreContents
import ChatScale.MessageStoreIdempotency

/-!
# The store as a ledger

`Accept` reads and writes in several statements, in a transaction of its own
that any number of others run beside. To its callers the store is a ledger that
takes one submission at a time: a submission under a known client key gets the
entry of that key, any other gets a new entry with the next number of its room.
A call takes effect when it finds its entry or when its transaction commits.
-/

namespace ChatScale.MessageLedger

open ChatScale.ByteText ChatScale.CivilTime ChatScale.MessageContract ChatScale.MessageId
open ChatScale.MessageStoreModel ChatScale.MessageStoreStatements
open ChatScale.MessageStoreInvariants ChatScale.MessageStoreIdempotency
open ChatScale.MessageStoreContents ChatScale.TransitionSystem ChatScale.Linearization

set_option autoImplicit false

section Ledger

/-- A request, with the id, the time and the payload its entry would get. -/
structure Submission where
  input : Input
  id : Uuid
  createdAt : Stamp
  payload : Bytes

def nextSeq (ledger : List MessageRow) (room : Bytes) : Int :=
  ((ledger.filter fun row => row.roomID == room).length : Int) + 1

def newEntry (ledger : List MessageRow) (submission : Submission) : MessageRow where
  messageID := submission.id
  clientID := submission.input.clientID
  clientMessageID := submission.input.request.clientMessageID
  roomID := submission.input.request.roomID
  roomSeq := nextSeq ledger submission.input.request.roomID
  createdAt := submission.createdAt
  payload := submission.payload

def submit (ledger : List MessageRow) (submission : Submission) : List MessageRow × MessageRow :=
  match ledger.find? fun row => row.clientID == submission.input.clientID &&
      row.clientMessageID == submission.input.request.clientMessageID with
  | some row => (ledger, row)
  | none => (ledger ++ [newEntry ledger submission], newEntry ledger submission)

theorem submit_found {ledger : List MessageRow} {submission : Submission} {row : MessageRow}
    (found : ledger.find? (fun row => row.clientID == submission.input.clientID &&
      row.clientMessageID == submission.input.request.clientMessageID) = some row) :
    submit ledger submission = (ledger, row) := by
  rw [submit, found]

theorem submit_new {ledger : List MessageRow} {submission : Submission}
    (absent : ∀ row ∈ ledger, clientKey row ≠ inputKey submission.input) :
    submit ledger submission =
      (ledger ++ [newEntry ledger submission], newEntry ledger submission) := by
  have missing : ledger.find? (fun row => row.clientID == submission.input.clientID &&
      row.clientMessageID == submission.input.request.clientMessageID) = none := by
    rw [List.find?_eq_none]
    intro row listed same
    simp only [Bool.and_eq_true, beq_iff_eq] at same
    exact absent row listed (Prod.ext same.1 same.2)
  rw [submit, missing]

/-- The next number of the ledger is the next value of the counter. -/
theorem next_seq_counter {db : Database} (sound : DatabaseSound db) (room : Bytes) :
    nextSeq db.messages room = lastSeq db room + 1 := by
  rcases sound.rooms room with ⟨count, last, seqs⟩
  have sizes := congrArg List.length seqs
  rw [roomSeqs, firstSeqs, List.length_map, List.length_map, List.length_range] at sizes
  rw [nextSeq, sizes, last]

end Ledger

section Points

/-- The row at which a move of a call takes effect: the row that a read finds, or
the one that is committed. -/
def pointRow (input : Input) (db : Database) (call : Call) : Move → Option MessageRow
  | .run _ _ =>
      match call.stage with
      | .findPool => findRow db input.clientID input.request.clientMessageID
      | .findTransaction => findRow db input.clientID input.request.clientMessageID
      | .reread => findRow db input.clientID input.request.clientMessageID
      | .commit _ => call.tx.bind Transaction.message
      | _ => none
  | .loseCommit => call.tx.bind Transaction.message
  | _ => none

def submissionOf (input : Input) (row : MessageRow) : Submission :=
  ⟨input, row.messageID, row.createdAt, row.payload⟩

variable {Caller : Type}

def point (inputs : Caller → Input) (taken : Transition (State Caller) (Action Caller)) :
    Option (Caller × Submission) :=
  (pointRow (inputs taken.action.caller) taken.before.db
    (taken.before.calls taken.action.caller) taken.action.move).map fun row =>
      (taken.action.caller, submissionOf (inputs taken.action.caller) row)

/-- The event that a call is about to return or has returned. -/
def answerOf : Stage → Option Event
  | .commitRead event => some event
  | .closing (.accepted _ event) => some event
  | .done (.accepted _ event) => some event
  | _ => none

/-- The call has found its entry, has committed or has failed. -/
def isPast : Stage → Bool
  | .commitRead _ => true
  | .closing _ => true
  | .done _ => true
  | _ => false

/-- What a move of a call does to the ledger. -/
inductive Submits (input : Input) (db : Database) (call : Call) (move : Move)
    (effect : Database × Call) : Prop where
  | silent (none : pointRow input db call move = none)
      (same : effect.1.messages = db.messages)
      (answer : ∀ event, answerOf effect.2.stage = some event → answerOf call.stage = some event)
      (past : isPast call.stage = true → isPast effect.2.stage = true)
  | effective (row : MessageRow) (found : pointRow input db call move = some row)
      (before : isPast call.stage = false) (after : isPast effect.2.stage = true)
      (submitted : submit db.messages (submissionOf input row) = (effect.1.messages, row))
      (answer : ∀ event, answerOf effect.2.stage = some event → Describes event row)

variable {input : Input} {db : Database} {call : Call}

theorem find_row_submit {row : MessageRow}
    (found : findRow db input.clientID input.request.clientMessageID = some row) :
    submit db.messages (submissionOf input row) = (db.messages, row) := submit_found found

/-- A read of the client key takes effect if it finds a row. -/
theorem read_submits {random : Uuid} {clock : ClockReading} {next : Call}
    (read : pointRow input db call (.run random clock) =
      findRow db input.clientID input.request.clientMessageID)
    (before : isPast call.stage = false)
    (found : ∀ row, findRow db input.clientID input.request.clientMessageID = some row →
      isPast next.stage = true ∧
        ∀ event, answerOf next.stage = some event → event = readRow row)
    (missed : findRow db input.clientID input.request.clientMessageID = none →
      answerOf next.stage = none) :
    Submits input db call (.run random clock) (db, next) := by
  cases looked : findRow db input.clientID input.request.clientMessageID with
  | none =>
      refine .silent (read.trans looked) rfl ?_ ?_
      · intro event answered
        cases (missed looked).symm.trans answered
      · intro past
        cases before.symm.trans past
  | some row =>
      rcases found row looked with ⟨after, answers⟩
      refine .effective row (read.trans looked) before after (find_row_submit looked) ?_
      intro event answered
      rw [answers event answered]
      exact ⟨rfl, rfl, rfl, rfl⟩

theorem find_pool_submits {random : Uuid} {clock : ClockReading} (stage : call.stage = .findPool) :
    Submits input db call (.run random clock) (db, findPool input db call) := by
  apply read_submits
  · rw [pointRow, stage]
  · rw [stage]
    rfl
  · intro row found
    unfold findPool
    split_ifs
    · rw [findEvent, found]
      refine ⟨rfl, ?_⟩
      intro event same
      cases same
      rfl
    · refine ⟨rfl, ?_⟩
      intro event same
      cases same
  · intro missed
    unfold findPool
    split_ifs
    · rw [findEvent, missed]
      rfl
    · rfl

theorem find_in_transaction_submits {random : Uuid} {clock : ClockReading}
    (stage : call.stage = .findTransaction) :
    Submits input db call (.run random clock) (db, findInTransaction input db call) := by
  apply read_submits
  · rw [pointRow, stage]
  · rw [stage]
    rfl
  · intro row found
    rw [findInTransaction, findEvent, found]
    refine ⟨rfl, ?_⟩
    intro event same
    cases same
    rfl
  · intro missed
    rw [findInTransaction, findEvent, missed]
    rfl

theorem reread_submits {random : Uuid} {clock : ClockReading} (stage : call.stage = .reread) :
    Submits input db call (.run random clock) (db, reread input db call) := by
  apply read_submits
  · rw [pointRow, stage]
  · rw [stage]
    rfl
  · intro row found
    rw [reread, findEvent, found]
    refine ⟨rfl, ?_⟩
    intro event same
    cases same
    rfl
  · intro missed
    rw [reread, findEvent, missed]
    rfl

end Points

section Calls

variable {Caller : Type} {columns : Columns} {inputs : Caller → Input} {state : State Caller}
  {caller : Caller}

/-- What a call at its commit has written is the ledger's new entry. -/
theorem commit_submits (sound : ResultsSound inputs state)
    (contents : ContentsSound columns inputs state) {event : Event} {tx : Transaction}
    (stage : (state.calls caller).stage = .commit event)
    (opened : (state.calls caller).tx = some tx) :
    ∃ row, tx.message = some row ∧ Describes event row ∧
      submit state.db.messages (submissionOf (inputs caller) row) =
        ((applyTransaction state.db tx).messages, row) := by
  have shape := sound.store.shape caller
  have result := sound.results caller
  have content := contents.calls caller
  unfold StageShape at shape
  unfold ResultSound at result
  unfold ContentSound at content
  rw [stage] at shape result content
  rcases content tx opened with ⟨row, stored, written, _, writes⟩
  have transaction := sound.store.transactions caller tx opened
  rcases transaction.message row written with ⟨counted, fresh⟩
  rcases result tx opened row written with ⟨key, describes⟩
  rcases writes.message with ⟨id, payload, drafted, _, made⟩
  rcases drafted.made with ⟨roomSeq, random, clock, same⟩
  refine ⟨row, written, describes, ?_⟩
  have number : row.roomSeq = nextSeq state.db.messages row.roomID := by
    rw [next_seq_counter sound.store.database]
    exact transaction.counter _ _ counted
  have room : row.roomID = (inputs caller).request.roomID := by
    rw [made, same]
    rfl
  have entry : newEntry state.db.messages (submissionOf (inputs caller) row) = row := by
    have client := congrArg Prod.fst key
    have clientMessage := congrArg Prod.snd key
    rcases row with ⟨rowID, rowClient, rowMessage, rowRoom, rowSeq, rowTime, rowPayload⟩
    simp only [clientKey, inputKey] at client clientMessage
    simp only at room number
    subst client clientMessage room number
    rfl
  rw [submit_new, entry, applyTransaction, written]
  · rfl
  · intro other listed sameKey
    have apart := (fresh other listed).2
    have equal : clientKey row = clientKey other := key.trans sameKey.symm
    simp only [clientKey, Prod.mk.injEq] at equal
    simp [sameClientKey, equal.1, equal.2] at apart

/-- The statements that neither read the client key nor commit. -/
theorem ran_silent {held : (Transaction → Bool) → Bool} {random : Uuid} {clock : ClockReading}
    {effect : Database × Call} (sound : StoreSound inputs state)
    (ran : Ran columns (inputs caller) state.db held (state.calls caller) random clock effect)
    (none : pointRow (inputs caller) state.db (state.calls caller) (.run random clock) = none)
    (other : (state.calls caller).stage ≠ .findPool ∧
      (state.calls caller).stage ≠ .findTransaction ∧ (state.calls caller).stage ≠ .reread ∧
      ∀ event, (state.calls caller).stage ≠ .commit event) :
    Submits (inputs caller) state.db (state.calls caller) (.run random clock) effect := by
  cases ran with
  | failed failing => exact .silent none rfl (fun _ answered => nomatch answered) fun _ => rfl
  | poolRead stage => exact absurd stage other.1
  | poolMissed stage => exact absurd stage other.1
  | transactionRead stage => exact absurd stage other.2.1
  | transactionMissed stage => exact absurd stage other.2.1
  | conflictRead stage => exact absurd stage other.2.2.1
  | committed stage => exact absurd stage (other.2.2.2 _)
  | committedRead stage opened =>
      refine .silent none (by rw [commit_read_unchanged sound stage opened]) ?_ fun _ => rfl
      intro event answered
      rw [stage]
      exact answered
  | @closed outcome stage =>
      refine .silent none rfl ?_ fun _ => rfl
      intro event answered
      rw [stage]
      cases outcome with
      | accepted path event => exact answered
      | failed failure => cases answered
  | _ =>
      refine .silent none rfl (fun _ answered => nomatch answered) ?_
      intro past
      simp [isPast, *] at past

variable [Fintype Caller] [DecidableEq Caller]

theorem run_submits (sound : ResultsSound inputs state)
    (contents : ContentsSound columns inputs state) {random : Uuid} {clock : ClockReading}
    {effect : Database × Call}
    (moved : runStatement columns (inputs caller) state.db (heldByOther state.calls caller)
      (state.calls caller) random clock = some effect) :
    Submits (inputs caller) state.db (state.calls caller) (.run random clock) effect := by
  have ran := run_cases moved
  cases stage : (state.calls caller).stage with
  | findPool =>
      simp only [runStatement, stage, Option.some.injEq] at moved
      rw [← moved]
      exact find_pool_submits stage
  | findTransaction =>
      cases opened : (state.calls caller).tx with
      | none => simp [runStatement, stage, opened] at moved
      | some tx =>
          simp only [runStatement, stage, opened, Option.some.injEq] at moved
          rw [← moved]
          exact find_in_transaction_submits stage
  | reread =>
      simp only [runStatement, stage, Option.some.injEq] at moved
      rw [← moved]
      exact reread_submits stage
  | commit event =>
      cases opened : (state.calls caller).tx with
      | none => simp [runStatement, stage, opened] at moved
      | some tx =>
          simp only [runStatement, stage, opened, Option.some.injEq] at moved
          rcases commit_submits sound contents stage opened
            with ⟨row, written, describes, submitted⟩
          rw [← moved]
          refine .effective row ?_ (by rw [stage]; rfl) rfl submitted ?_
          · simp [pointRow, stage, opened, written]
          · intro other answered
            cases answered
            exact describes
  | _ =>
      apply ran_silent sound.store ran
      · rw [pointRow, stage]
      · simp [stage]

theorem move_submits (sound : ResultsSound inputs state)
    (contents : ContentsSound columns inputs state) {move : Move} {effect : Database × Call}
    (moved : moveEffect columns (inputs caller) state.db (heldByOther state.calls caller)
      (state.calls caller) move = some effect) :
    Submits (inputs caller) state.db (state.calls caller) move effect := by
  cases move with
  | run random clock => exact run_submits sound contents moved
  | fail =>
      cases move_cases moved with
      | failed running => exact .silent rfl rfl (fun _ answered => nomatch answered) fun _ => rfl
      | ignored stage =>
          refine .silent rfl rfl (fun _ answered => nomatch answered) ?_
          intro past
          rw [stage] at past
          cases past
  | abort =>
      cases move_cases moved with
      | aborted => exact .silent rfl rfl (fun _ answered => answered) fun past => past
  | loseCommit =>
      cases move_cases moved with
      | lostCommit stage opened =>
          rcases commit_submits sound contents stage opened with ⟨row, written, _, submitted⟩
          refine .effective row ?_ (by rw [stage]; rfl) rfl submitted
            (fun _ answered => nomatch answered)
          simp [pointRow, opened, written]

theorem reachable_ledger_sound {allowed : State Caller → Action Caller → Prop}
    (reached : Reachable (step columns inputs) allowed initial state) :
    ResultsSound inputs state ∧ ContentsSound columns inputs state :=
  reachable_invariant (fun state => ResultsSound inputs state ∧ ContentsSound columns inputs state)
    ⟨⟨initial_sound inputs, fun _ => trivial⟩, initial_contents⟩
    (fun _ _ _ sound _ stepped => ⟨results_step sound.1 stepped,
      store_step_contents sound.1.store sound.2 stepped⟩) reached

end Calls

section Results

variable {Caller : Type} [Fintype Caller] [DecidableEq Caller] {columns : Columns}
  {inputs : Caller → Input} {allowed : State Caller → Action Caller → Prop}

/-- The submissions of a run, in the order in which they took effect. -/
def submissions (inputs : Caller → Input)
    (trace : List (Transition (State Caller) (Action Caller))) : List (Caller × Submission) :=
  history (point inputs) trace

theorem step_performs (taken : Transition (State Caller) (Action Caller))
    (reached : Reachable (step columns inputs) allowed initial taken.before)
    (stepped : step columns inputs taken.before taken.action = some taken.after) :
    Performs (fun state => state.db.messages) submit (point inputs) taken := by
  rcases taken with ⟨before, action, after⟩
  dsimp only at reached stepped
  rcases reachable_ledger_sound reached with ⟨sound, contents⟩
  rcases Option.map_eq_some_iff.mp stepped with ⟨effect, moved, rfl⟩
  cases move_submits sound contents moved with
  | silent none same _ _ =>
      simp only [Performs, point, none, Option.map_none]
      exact same
  | effective row found _ _ submitted _ =>
      simp only [Performs, point, found, Option.map_some, Option.toList_some, List.map_cons,
        List.map_nil, perform, List.foldl_cons, List.foldl_nil, submitted]

theorem step_answers (taken : Transition (State Caller) (Action Caller))
    (reached : Reachable (step columns inputs) allowed initial taken.before)
    (stepped : step columns inputs taken.before taken.action = some taken.after)
    (caller : Caller) (event : Event)
    (answered : answerOf (taken.after.calls caller).stage = some event) :
    answerOf (taken.before.calls caller).stage = some event ∨
      ∃ submission, point inputs taken = some (caller, submission) ∧
        Describes event (submit taken.before.db.messages submission).2 := by
  rcases taken with ⟨before, action, after⟩
  dsimp only at reached stepped answered ⊢
  rcases reachable_ledger_sound reached with ⟨sound, contents⟩
  rcases Option.map_eq_some_iff.mp stepped with ⟨effect, moved, rfl⟩
  by_cases same : caller = action.caller
  · subst same
    simp only [Function.update_self] at answered
    cases move_submits sound contents moved with
    | silent _ _ answers _ => exact .inl (answers event answered)
    | effective row found _ _ submitted describes =>
        refine .inr ⟨submissionOf (inputs action.caller) row, ?_, ?_⟩
        · simp [point, found]
        · rw [submitted]
          exact describes event answered
  · simp only [Function.update_of_ne same] at answered
    exact .inl answered

theorem step_points_once (taken : Transition (State Caller) (Action Caller))
    (reached : Reachable (step columns inputs) allowed initial taken.before)
    (stepped : step columns inputs taken.before taken.action = some taken.after)
    (caller : Caller) :
    (∀ submission, point inputs taken = some (caller, submission) →
      ¬isPast (taken.before.calls caller).stage = true ∧
        isPast (taken.after.calls caller).stage = true) ∧
    (isPast (taken.before.calls caller).stage = true →
      isPast (taken.after.calls caller).stage = true) := by
  rcases taken with ⟨before, action, after⟩
  dsimp only at reached stepped ⊢
  rcases reachable_ledger_sound reached with ⟨sound, contents⟩
  rcases Option.map_eq_some_iff.mp stepped with ⟨effect, moved, rfl⟩
  by_cases same : caller = action.caller
  · subst same
    simp only [Function.update_self]
    cases move_submits sound contents moved with
    | silent none _ _ past => exact ⟨by simp [point, none], past⟩
    | effective row found pending after _ _ =>
        exact ⟨fun _ _ => ⟨by simp [pending], after⟩, fun _ => after⟩
  · simp only [Function.update_of_ne same]
    refine ⟨?_, id⟩
    intro submission found
    rcases Option.map_eq_some_iff.mp found with ⟨row, _, equal⟩
    exact absurd (congrArg Prod.fst equal).symm same

/-- Every run of the store is one of the ledger: the rows are those of its
submissions one at a time, each call submits at most once, at one of its own
steps and its own request, and a call that succeeds returns the ledger's
answer to its submission. -/
theorem accept_linearizable (columns : Columns) (inputs : Caller → Input)
    (trace : List (Transition (State Caller) (Action Caller))) (state : State Caller)
    (run : Run (step columns inputs) anyStep initial trace state) :
    state.db.messages = perform submit [] ((submissions inputs trace).map Prod.snd) ∧
    ((submissions inputs trace).map Prod.fst).Nodup ∧
    (∀ made ∈ submissions inputs trace, made.2.input = inputs made.1 ∧
      ∃ taken ∈ trace, taken.action.caller = made.1 ∧ point inputs taken = some made) ∧
    ∀ caller path event, (state.calls caller).stage = .done (.accepted path event) →
      AnsweredAt submit [] (submissions inputs trace) caller (Describes event) := by
  refine ⟨run_performs _ step_performs run, ?_, ?_, ?_⟩
  · exact (run_points_once (fun state caller => isPast (state.calls caller).stage = true)
      (fun taken reached stepped caller => (step_points_once taken reached stepped caller).1)
      (fun taken reached stepped caller => (step_points_once taken reached stepped caller).2)
      run).1
  · intro made listed
    rcases List.mem_filterMap.mp listed with ⟨taken, inTrace, found⟩
    have whole := found
    rcases Option.map_eq_some_iff.mp found with ⟨row, _, rfl⟩
    exact ⟨rfl, taken, inTrace, rfl, whole⟩
  · intro caller path event returned
    apply run_answers (fun state => state.db.messages)
      (fun state caller event => answerOf (state.calls caller).stage = some event) Describes
      step_performs step_answers _ run
    · rw [returned]
      rfl
    · intro caller answer answered
      cases answered

theorem two_accepts_linearized :
    ∃ trace state, Run (step plainColumns twoClients) anyStep initial trace state ∧
      state.db.messages.length = 2 ∧
      state.db.messages = perform submit [] ((submissions twoClients trace).map Prod.snd) := by
  have ran : (runActions (step plainColumns twoClients) anyStep initial twoAccepts).map
      (fun state => state.db.messages.length) = some 2 := by
    decide +kernel
  rcases Option.map_eq_some_iff.mp ran with ⟨state, reached, rows⟩
  rcases reachable_run_actions reachable_start reached with ⟨trace, run⟩
  exact ⟨trace, state, run, rows, (accept_linearizable plainColumns twoClients trace state run).1⟩

end Results

end ChatScale.MessageLedger
