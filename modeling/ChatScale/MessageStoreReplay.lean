import ChatScale.DeliveryPipeline
import ChatScale.IngestModel
import ChatScale.MessageStoreIdempotency

/-!
# What a retried call is told

The call that inserts a message answers with the event it has made. Every other
call of the key answers with the row, which has been through the columns of
`messages`, and the live event goes through the `jsonb` column of the outbox.
The column of `created_at` keeps microseconds, the clock of the store reads
nanoseconds.
-/

namespace ChatScale.MessageStoreReplay

open ChatScale.ByteText ChatScale.CivilTime ChatScale.TransitionSystem
open ChatScale.MessageContract ChatScale.MessageId ChatScale.MessageStoreModel
open ChatScale.MessageStoreStatements ChatScale.MessageStoreInvariants
open ChatScale.MessageStoreIdempotency ChatScale.MessageStoreContents
open ChatScale.OutboxRelayModel (entryOf)
open ChatScale.DeliveryPipeline (KeepsJson jsonColumns json_columns_keep stored_event_decoded)
open ChatScale.IngestModel (acceptedAck)

set_option autoImplicit false

/-- A `timestamptz` column holds whole microseconds, cut or rounded from the
time it is given. -/
structure KeepsMicroseconds (columns : Columns) : Prop where
  whole : ∀ time : Stamp, (columns.timestamptz time.toTime).instant % 1000 = 0
  near : ∀ time : Stamp, |(columns.timestamptz time.toTime).instant - time.instant| < 1000

theorem kept_instant_iff {columns : Columns} (keeps : KeepsMicroseconds columns) (time : Stamp) :
    (columns.timestamptz time.toTime).instant = time.instant ↔ time.instant % 1000 = 0 := by
  have whole := keeps.whole time
  have near := abs_lt.mp (keeps.near time)
  omega

section Origin

/-- The event is the committed row of the client key as `findEvent` reads it. -/
def ReadBack (input : Input) (db : Database) (event : Event) : Prop :=
  ∃ row ∈ db.messages, clientKey row = inputKey input ∧ event = readRow row

/-- The `created_at` of the row was made from a reading of the clock. -/
def Stamped (clocks : Stamp → Prop) (columns : Columns) (row : MessageRow) : Prop :=
  ∃ time, clocks time ∧ row.createdAt = columns.timestamptz time.toTime

/-- Where the event of a call comes from. -/
def StageOrigin (clocks : Stamp → Prop) (input : Input) (db : Database) : Stage → Prop
  | .commitRead event => ReadBack input db event
  | .insertMessage event _ => ∃ time, clocks time ∧ event.createdAt = time.toTime
  | .closing (.accepted path event) => path ≠ .inserted ∧ ReadBack input db event
  | .done (.accepted path event) => path ≠ .inserted → ReadBack input db event
  | _ => True

/-- What a call has read and what it is about to commit. -/
structure CallOrigin (clocks : Stamp → Prop) (columns : Columns) (input : Input) (db : Database)
    (call : Call) : Prop where
  stage : StageOrigin clocks input db call.stage
  message : ∀ tx row, call.tx = some tx → tx.message = some row → Stamped clocks columns row

variable {clocks : Stamp → Prop} {columns : Columns} {input : Input} {db after : Database}
  {call next : Call} {held : (Transaction → Bool) → Bool} {tx : Transaction} {event : Event}
  {id : Uuid}

theorem read_back_grows (grows : Grows db after) (read : ReadBack input db event) :
    ReadBack input after event := by
  obtain ⟨row, listed, known⟩ := read
  exact ⟨row, grows row listed, known⟩

theorem stage_origin_grows (grows : Grows db after) {stage : Stage}
    (origin : StageOrigin clocks input db stage) : StageOrigin clocks input after stage := by
  cases stage with
  | commitRead event => exact read_back_grows grows origin
  | closing outcome =>
      cases outcome with
      | accepted path event => exact ⟨origin.1, read_back_grows grows origin.2⟩
      | failed failure => trivial
  | done outcome =>
      cases outcome with
      | accepted path event => exact fun read => read_back_grows grows (origin read)
      | failed failure => trivial
  | _ => exact origin

theorem find_event_read
    (found : findEvent db input.clientID input.request.clientMessageID = some event) :
    ReadBack input db event := by
  obtain ⟨row, rowFound, rfl⟩ := Option.map_eq_some_iff.mp found
  have key := List.find?_some rowFound
  simp only [Bool.and_eq_true, beq_iff_eq] at key
  refine ⟨row, List.mem_of_find?_eq_some rowFound, ?_, rfl⟩
  simp only [clientKey, inputKey, key.1, key.2]

/-- A statement that writes nothing has only its stage to account for. -/
theorem origin_goto (origin : CallOrigin clocks columns input db call) {stage : Stage}
    (told : StageOrigin clocks input db stage) :
    CallOrigin clocks columns input db (call.goto stage) := ⟨told, origin.message⟩

theorem origin_closed {stage : Stage} (told : StageOrigin clocks input db stage) :
    CallOrigin clocks columns input db ⟨stage, none⟩ where
  stage := told
  message := fun _ _ opened => nomatch opened

/-- Neither does one that writes something else than the message. -/
theorem origin_written (origin : CallOrigin clocks columns input db call)
    (opened : call.tx = some tx) {written : Transaction} (same : written.message = tx.message)
    {stage : Stage} (told : StageOrigin clocks input db stage) :
    CallOrigin clocks columns input db ⟨stage, some written⟩ where
  stage := told
  message := by
    intro other row sameTx writes
    cases sameTx
    exact origin.message tx row opened (same ▸ writes)

theorem commit_origin (origin : CallOrigin clocks columns input db call)
    (opened : call.tx = some tx) (rows : ∀ row ∈ db.messages, Stamped clocks columns row) :
    ∀ row ∈ (applyTransaction db tx).messages, Stamped clocks columns row := by
  intro row listed
  rcases List.mem_append.mp listed with old | new
  · exact rows row old
  · exact origin.message tx row opened (Option.mem_toList.mp new)

theorem ran_origin {random : Uuid} {clock : ClockReading} {effect : Database × Call}
    (read : clocks clock.time) (origin : CallOrigin clocks columns input db call)
    (ran : Ran columns input db held call random clock effect) :
    Grows db effect.1 ∧ CallOrigin clocks columns input effect.1 effect.2 := by
  have told := origin.stage
  cases ran with
  | poolRead _ found =>
      exact ⟨grows_refl db, origin_goto origin ⟨by decide, find_event_read found⟩⟩
  | began =>
      refine ⟨grows_refl db, trivial, ?_⟩
      intro tx row same writes
      cases same
      cases writes
  | transactionRead _ found =>
      exact ⟨grows_refl db, origin_goto origin (find_event_read found)⟩
  | committedRead stage =>
      rw [stage] at told
      have grows := grows_apply db
      exact ⟨grows _, origin_closed fun _ => read_back_grows (grows _) told⟩
  | allocated _ opened =>
      refine ⟨grows_refl db, origin_written origin opened ?_ ?_⟩
      · rfl
      · trivial
  | generated => exact ⟨grows_refl db, origin_goto origin ⟨clock.time, read, rfl⟩⟩
  | insertedMessage stage =>
      rw [stage] at told
      refine ⟨grows_refl db, trivial, ?_⟩
      intro written row same writes
      cases same
      cases writes
      obtain ⟨time, given, same⟩ := told
      exact ⟨time, given, congrArg columns.timestamptz same⟩
  | rolledBack => exact ⟨grows_refl db, origin_closed trivial⟩
  | conflictRead _ found =>
      exact ⟨grows_refl db, origin_goto origin ⟨by decide, find_event_read found⟩⟩
  | insertedOutbox _ opened =>
      refine ⟨grows_refl db, origin_written origin opened ?_ ?_⟩
      · rfl
      · trivial
  | committed => exact ⟨grows_apply db _, origin_closed fun other => absurd rfl other⟩
  | @closed outcome stage =>
      rw [stage] at told
      refine ⟨grows_refl db, origin_closed ?_⟩
      cases outcome with
      | accepted path event => exact fun _ => told.2
      | failed failure => trivial
  | _ => exact ⟨grows_refl db, origin_goto origin trivial⟩

/-- Every time the move reads from the clock is among `clocks`. -/
def ReadsFrom (clocks : Stamp → Prop) : Move → Prop
  | .run _ clock => clocks clock.time
  | _ => True

theorem move_origin {move : Move} {effect : Database × Call} (read : ReadsFrom clocks move)
    (origin : CallOrigin clocks columns input db call)
    (moved : moveEffect columns input db held call move = some effect) :
    Grows db effect.1 ∧ CallOrigin clocks columns input effect.1 effect.2 := by
  cases move_cases moved with
  | run ran => exact ran_origin read origin ran
  | failed => exact ⟨grows_refl db, origin_goto origin trivial⟩
  | ignored => exact ⟨grows_refl db, origin_goto origin trivial⟩
  | aborted => exact ⟨grows_refl db, origin_closed origin.stage⟩
  | lostCommit => exact ⟨grows_apply db _, origin_closed trivial⟩

def Inserted (call : Call) : Prop := ∃ event, call.stage = .done (.accepted .inserted event)

/-- Only its commit makes a call one that has inserted its message. -/
theorem move_inserted {move : Move} {effect : Database × Call}
    (origin : CallOrigin clocks columns input db call)
    (moved : moveEffect columns input db held call move = some effect)
    (inserted : Inserted effect.2) :
    Inserted call ∨ ∃ event tx, call.stage = .commit event ∧ call.tx = some tx := by
  obtain ⟨event, done⟩ := inserted
  cases move_cases moved with
  | run ran =>
      cases ran with
      | committed stage opened => exact .inr ⟨_, _, stage, opened⟩
      | closed stage =>
          have told := origin.stage
          cases done
          rw [stage] at told
          exact absurd rfl told.1
      | _ => cases done
  | aborted => exact .inl ⟨event, done⟩
  | _ => cases done

end Origin

section Runs

variable {Caller : Type} {clocks : Stamp → Prop} {columns : Columns} {inputs : Caller → Input}
  {state after : State Caller}

/-- Where the rows and the events of the calls come from. -/
structure OriginsKnown (clocks : Stamp → Prop) (columns : Columns) (inputs : Caller → Input)
    (state : State Caller) : Prop where
  store : StoreSound inputs state
  contents : ContentsSound columns inputs state
  rows : ∀ row ∈ state.db.messages, Stamped clocks columns row
  calls : ∀ caller, CallOrigin clocks columns (inputs caller) state.db (state.calls caller)

theorem initial_origins : OriginsKnown clocks columns inputs initial where
  store := initial_sound inputs
  contents := initial_contents
  rows := fun _ listed => nomatch listed
  calls := fun _ => origin_closed trivial

theorem writes_key {message : MessageRow} {entry : OutboxRelayModel.Entry} {input : Input}
    {event : Event} (writes : Writes columns input message entry event) :
    clientKey message = inputKey input := by
  obtain ⟨id, payload, drafted, _, rfl⟩ := writes.message
  obtain ⟨roomSeq, random, clock, rfl⟩ := drafted.made
  rfl

/-- A call that commits is the first of its key. -/
theorem commit_first {caller : Caller} {event : Event} {tx : Transaction}
    (known : OriginsKnown clocks columns inputs state)
    (stage : (state.calls caller).stage = .commit event)
    (opened : (state.calls caller).tx = some tx) {row : MessageRow}
    (listed : row ∈ state.db.messages) : clientKey row ≠ inputKey (inputs caller) := by
  have content := known.contents.calls caller
  unfold ContentSound at content
  rw [stage] at content
  obtain ⟨message, _, inserted, _, writes⟩ := content tx opened
  have fresh := (((known.store.transactions caller tx opened).message message inserted).2
    row listed).2
  intro same
  rw [← writes_key writes] at same
  simp only [clientKey, Prod.mk.injEq] at same
  simp [sameClientKey, same.1, same.2] at fresh

theorem inserted_listed {caller : Caller} (known : OriginsKnown clocks columns inputs state)
    (inserted : Inserted (state.calls caller)) :
    ∃ row ∈ state.db.messages, clientKey row = inputKey (inputs caller) := by
  obtain ⟨event, stage⟩ := inserted
  have content := known.contents.calls caller
  unfold ContentSound at content
  rw [stage] at content
  obtain ⟨message, listed, _, _, writes⟩ := content
  exact ⟨message, listed, writes_key writes⟩

variable [Fintype Caller] [DecidableEq Caller]

theorem step_origins {action : Action Caller} (read : ReadsFrom clocks action.move)
    (known : OriginsKnown clocks columns inputs state)
    (stepped : step columns inputs state action = some after) :
    OriginsKnown clocks columns inputs after := by
  have sound := step_sound known.store stepped
  have contents := store_step_contents known.store known.contents stepped
  obtain ⟨effect, moved, rfl⟩ := Option.map_eq_some_iff.mp stepped
  obtain ⟨grows, own⟩ := move_origin read (known.calls action.caller) moved
  refine ⟨sound, contents, ?_, ?_⟩
  · dsimp only
    rcases move_database known.store moved with unchanged | ⟨_, tx, _, opened, applied, _⟩
    · rw [unchanged]
      exact known.rows
    · rw [applied]
      exact commit_origin (known.calls action.caller) opened known.rows
  · intro other
    by_cases same : other = action.caller
    · subst same
      simpa only [Function.update_self] using own
    · simp only [Function.update_of_ne same]
      exact ⟨stage_origin_grows grows (known.calls other).stage, (known.calls other).message⟩

theorem reachable_origins {allowed : State Caller → Action Caller → Prop}
    (reads : ∀ state action, allowed state action → ReadsFrom clocks action.move)
    (reached : Reachable (step columns inputs) allowed initial state) :
    OriginsKnown clocks columns inputs state :=
  reachable_invariant (OriginsKnown clocks columns inputs) initial_origins
    (fun before action _ known permitted stepped =>
      step_origins (reads before action permitted) known stepped) reached

/-- Whatever a call accepts has a time that is read back from its text: it was
read from the clock or from the column. -/
theorem accepted_spelled {allowed : State Caller → Action Caller → Prop}
    (reached : Reachable (step columns inputs) allowed initial state) {caller : Caller}
    {path : Path} {event : Event}
    (done : (state.calls caller).stage = .done (.accepted path event)) :
    event.createdAt.isExact = true := by
  have known : OriginsKnown (fun _ => True) columns inputs state :=
    reachable_origins (fun _ action _ => by cases action.move <;> trivial) reached
  by_cases inserted : path = .inserted
  · have content := known.contents.calls caller
    unfold ContentSound at content
    rw [done, inserted] at content
    obtain ⟨_, _, _, _, writes⟩ := content
    obtain ⟨_, _, drafted, _, _⟩ := writes.message
    obtain ⟨_, _, clock, rfl⟩ := drafted.made
    exact clock.time.spelled
  · have origin := (known.calls caller).stage
    rw [done] at origin
    obtain ⟨row, _, _, rfl⟩ := origin inserted
    exact row.createdAt.spelled

/-- No two calls insert a message of one key. -/
theorem inserted_once {allowed : State Caller → Action Caller → Prop}
    (reached : Reachable (step columns inputs) allowed initial state) {left right : Caller}
    (leftInserted : Inserted (state.calls left)) (rightInserted : Inserted (state.calls right))
    (same : inputKey (inputs left) = inputKey (inputs right)) : left = right := by
  revert left right
  refine reachable_induction (fun state : State Caller => ∀ {left right : Caller},
    Inserted (state.calls left) → Inserted (state.calls right) →
      inputKey (inputs left) = inputKey (inputs right) → left = right) ?_ ?_ reached
  · intro left right leftInserted
    obtain ⟨_, done⟩ := leftInserted
    cases done
  · intro before action after prior induction permitted stepped
    have known : OriginsKnown (fun _ => True) columns inputs before :=
      reachable_origins (fun _ action _ => by cases action.move <;> trivial) prior
    obtain ⟨effect, moved, rfl⟩ := Option.map_eq_some_iff.mp stepped
    -- a call that is new among them has a key that none of the others has
    have newcomer {other : Caller} (own : Inserted effect.2)
        (earlier : Inserted (before.calls other))
        (same : inputKey (inputs action.caller) = inputKey (inputs other)) :
        action.caller = other := by
      rcases move_inserted (known.calls action.caller) moved own with
        already | ⟨event, tx, stage, opened⟩
      · exact induction already earlier same
      · obtain ⟨row, listed, key⟩ := inserted_listed known earlier
        exact absurd (key.trans same.symm) (commit_first known stage opened listed)
    intro left right leftInserted rightInserted same
    by_cases leftOwn : left = action.caller
    · subst leftOwn
      by_cases rightOwn : right = action.caller
      · exact rightOwn.symm
      · simp only [Function.update_self] at leftInserted
        simp only [Function.update_of_ne rightOwn] at rightInserted
        exact newcomer leftInserted rightInserted same
    · simp only [Function.update_of_ne leftOwn] at leftInserted
      by_cases rightOwn : right = action.caller
      · subst rightOwn
        simp only [Function.update_self] at rightInserted
        exact (newcomer rightInserted leftInserted same.symm).symm
      · simp only [Function.update_of_ne rightOwn] at rightInserted
        exact induction leftInserted rightInserted same

end Runs

section Replays

variable {Caller : Type} [Fintype Caller] [DecidableEq Caller]

/-- Two acknowledgements of one message, apart from its time. -/
structure SameMessage (left right : AcceptedAck) : Prop where
  type : left.type = right.type
  version : left.version = right.version
  messageID : left.messageID = right.messageID
  clientMessageID : left.clientMessageID = right.clientMessageID
  roomID : left.roomID = right.roomID
  roomSeq : left.roomSeq = right.roomSeq

/-- The outbox holds the live event of the message with the time of the
acknowledgement. -/
def LiveAt (db : Database) (ack : AcceptedAck) : Prop :=
  ∃ row ∈ db.outbox, row.messageID.text = ack.messageID ∧
    ∃ live, unmarshalEvent row.event = some live ∧
      live.createdAt.instant = ack.createdAt.instant

/-- A retried client gets the acknowledgement it has lost, and both have the
time of the live event. -/
structure Faithful (db : Database) (first later : AcceptedAck) : Prop where
  message : SameMessage first later
  createdAt : first.createdAt.instant = later.createdAt.instant
  firstLive : LiveAt db first
  laterLive : LiveAt db later

theorem stored_live {columns : Columns} {input : Input} {db : Database} {event : Event}
    (json : KeepsJson columns) (stored : Stored columns input db event) :
    LiveAt db (acceptedAck event) := by
  obtain ⟨message, _, row, listed, writes⟩ := stored
  obtain ⟨raw, decoded, _⟩ := stored_event_decoded json writes
  obtain ⟨_, _, _, _, entry⟩ := writes.entry
  have named : (entryOf row).messageID = event.messageID := by rw [entry]
  exact ⟨row, listed, named, _, decoded, rfl⟩

theorem stored_reading {columns : Columns} {input : Input} {db : Database} {event : Event}
    (stored : Stored columns input db event) : ∃ time : Stamp, event.createdAt = time.toTime := by
  obtain ⟨_, _, _, _, writes⟩ := stored
  obtain ⟨_, _, drafted, _, _⟩ := writes.message
  obtain ⟨_, _, clock, rfl⟩ := drafted.made
  exact ⟨clock.time, rfl⟩

/-- A later call answers with the row that the first has written. -/
theorem replayed_row {columns : Columns} {inputs : Caller → Input} {state : State Caller}
    (reached : Reachable (step columns inputs) anyStep initial state) {first later : Caller}
    (different : first ≠ later) (same : inputKey (inputs first) = inputKey (inputs later))
    {event other : Event} {path : Path}
    (inserted : (state.calls first).stage = .done (.accepted .inserted event))
    (replayed : (state.calls later).stage = .done (.accepted path other)) :
    Stored columns (inputs first) state.db event ∧
      ∃ id payload, event.messageID = id.text ∧
        other = readRow (messageRow columns (inputs first) event id payload) := by
  have known : OriginsKnown (fun _ => True) columns inputs state :=
    reachable_origins (fun _ action _ => by cases action.move <;> trivial) reached
  have content := known.contents.calls first
  unfold ContentSound at content
  rw [inserted] at content
  have stored : Stored columns (inputs first) state.db event := content
  have origin := (known.calls later).stage
  rw [replayed] at origin
  have read : path ≠ .inserted := by
    rintro rfl
    exact different (inserted_once reached ⟨event, inserted⟩ ⟨other, replayed⟩ same)
  obtain ⟨row, rowListed, key, rfl⟩ := origin read
  obtain ⟨message, messageListed, _, _, writes⟩ := content
  obtain rfl : message = row :=
    row_of_key known.store.database messageListed rowListed
      ((writes_key writes).trans (same.trans key.symm))
  obtain ⟨id, payload, drafted, _, rfl⟩ := writes.message
  exact ⟨stored, id, payload, drafted.named, rfl⟩

/-- Every call of a key acknowledges one message. The acknowledgements have one
time, that of the live event, exactly if the clock of the inserting call read
whole microseconds. -/
theorem replay_faithful_iff (columns : Columns) (inputs : Caller → Input)
    (micros : KeepsMicroseconds columns) (json : KeepsJson columns) (state : State Caller)
    (reached : Reachable (step columns inputs) anyStep initial state) (first later : Caller)
    (different : first ≠ later) (same : inputKey (inputs first) = inputKey (inputs later))
    (event other : Event) (path : Path)
    (inserted : (state.calls first).stage = .done (.accepted .inserted event))
    (replayed : (state.calls later).stage = .done (.accepted path other)) :
    SameMessage (acceptedAck event) (acceptedAck other) ∧
      LiveAt state.db (acceptedAck event) ∧
      (Faithful state.db (acceptedAck event) (acceptedAck other) ↔
        event.createdAt.instant % 1000 = 0) := by
  obtain ⟨stored, id, payload, named, rfl⟩ :=
    replayed_row reached different same inserted replayed
  have live := stored_live json stored
  have message : SameMessage (acceptedAck event)
      (acceptedAck (readRow (messageRow columns (inputs first) event id payload))) :=
    ⟨rfl, rfl, named, rfl, rfl, rfl⟩
  refine ⟨message, live, ?_⟩
  obtain ⟨time, read⟩ := stored_reading stored
  have kept := kept_instant_iff micros time
  rw [← read] at kept
  rw [← kept]
  constructor
  · intro faithful
    exact faithful.createdAt.symm
  · intro kept
    obtain ⟨row, listed, its, shown, decoded, time⟩ := live
    exact ⟨message, kept.symm, ⟨row, listed, its, shown, decoded, time⟩,
      row, listed, its.trans named, shown, decoded, time.trans kept.symm⟩

/-- The column as the driver fills it: nanoseconds are cut. -/
def truncateMicros (time : Time) : Time where
  civil := { time.civil with nanos := time.civil.nanos / 1000 * 1000 }
  wellFormed := by
    obtain ⟨month, day, hour, minute, second, nanos⟩ := time.wellFormed
    exact ⟨month, day, hour, minute, second, by dsimp only; omega⟩

def microColumns : Columns := ⟨jsonColumns.jsonb, fun time => (truncateMicros time).stamp⟩

theorem stamp_truncated (time : Stamp) :
    (truncateMicros time.toTime).stamp.toTime = truncateMicros time.toTime := by
  have spelled : (truncateMicros time.toTime).isExact = true := time.spelled
  rw [Time.stamp, dif_pos spelled]

theorem micro_columns_keep : KeepsMicroseconds microColumns := by
  constructor
  · intro time
    simp only [microColumns, stamp_truncated]
    simp only [truncateMicros, Time.instant]
    omega
  · intro time
    rw [abs_lt]
    simp only [microColumns, stamp_truncated]
    simp only [truncateMicros, Time.instant]
    omega

/-- One client sends one request twice. -/
def sentTwice (_ : Fin 2) : Input := twoClients firstOfTwo

/-- The first call inserts the message, the second finds it. -/
def insertThenFind (clock : ClockReading) : List (Action (Fin 2)) :=
  List.replicate 9 ⟨firstOfTwo, .run (randomBytes 1) clock⟩ ++
    List.replicate 3 ⟨secondOfTwo, .run (randomBytes 2) clock⟩

def insertedEvent (clock : ClockReading) : Event :=
  acceptedEvent (twoClients firstOfTwo) 1 (randomBytes 1) clock

def foundEvent (clock : ClockReading) : Event :=
  { insertedEvent clock with createdAt := truncateMicros clock.time.toTime }

theorem whole_reading_faithful :
    ∃ state : State (Fin 2), Reachable (step microColumns sentTwice) anyStep initial state ∧
      state.db.outbox.length = 1 ∧
      Faithful state.db (acceptedAck (insertedEvent noon)) (acceptedAck (foundEvent noon)) := by
  have ran : (runActions (step microColumns sentTwice) anyStep initial
      (insertThenFind noon)).map (fun state => (state.db.outbox.length,
        (state.calls firstOfTwo).stage, (state.calls secondOfTwo).stage)) =
      some (1, .done (.accepted .inserted (insertedEvent noon)),
        .done (.accepted .poolRead (foundEvent noon))) := by decide +kernel
  obtain ⟨state, reached, stages⟩ := Option.map_eq_some_iff.mp ran
  have reachable := reachable_run_actions reachable_start reached
  simp only [Prod.mk.injEq] at stages
  refine ⟨state, reachable, stages.1, ?_⟩
  exact (replay_faithful_iff microColumns sentTwice micro_columns_keep json_columns_keep state
    reachable firstOfTwo secondOfTwo (by decide) rfl _ _ _ stages.2.1 stages.2.2).2.2.mpr
    (by decide +kernel)

/-- One nanosecond past noon. -/
def pastNoon : ClockReading where
  time := ⟨⟨⟨2024, 5, 1, 12, 0, 0, 1, 0⟩, by decide⟩, by decide⟩
  started := by decide +kernel

theorem cut_reading_unfaithful :
    KeepsMicroseconds microColumns ∧ KeepsJson microColumns ∧
      ∃ state : State (Fin 2), Reachable (step microColumns sentTwice) anyStep initial state ∧
        (state.calls firstOfTwo).stage = .done (.accepted .inserted (insertedEvent pastNoon)) ∧
        (state.calls secondOfTwo).stage = .done (.accepted .poolRead (foundEvent pastNoon)) ∧
        ¬Faithful state.db (acceptedAck (insertedEvent pastNoon))
          (acceptedAck (foundEvent pastNoon)) := by
  refine ⟨micro_columns_keep, json_columns_keep, ?_⟩
  have ran : (runActions (step microColumns sentTwice) anyStep initial
      (insertThenFind pastNoon)).map (fun state =>
        ((state.calls firstOfTwo).stage, (state.calls secondOfTwo).stage)) =
      some (.done (.accepted .inserted (insertedEvent pastNoon)),
        .done (.accepted .poolRead (foundEvent pastNoon))) := by decide +kernel
  obtain ⟨state, reached, stages⟩ := Option.map_eq_some_iff.mp ran
  have reachable := reachable_run_actions reachable_start reached
  simp only [Prod.mk.injEq] at stages
  refine ⟨state, reachable, stages.1, stages.2, ?_⟩
  intro faithful
  have differ : ¬(acceptedAck (insertedEvent pastNoon)).createdAt.instant =
      (acceptedAck (foundEvent pastNoon)).createdAt.instant := by decide +kernel
  exact differ faithful.createdAt

end Replays

end ChatScale.MessageStoreReplay
