import ChatScale.DeliveryPipeline
import ChatScale.IdSequence
import ChatScale.RoomOutboxHandover

/-!
# A message and its outbox row

`HandleIncoming` writes a message and its outbox row in one transaction, so the
two tables hold the same messages, one row each. The payload of an outbox row is
the JSON text of the message as the call knows it, in the spelling of the ids the
client has sent, and a relay decodes it to that message whatever the body is. No
row can make a batch fail with a decode error.
-/

namespace ChatScale.RoomRows

open ChatScale.ByteText ChatScale.ByteEncodings ChatScale.CivilTime ChatScale.JsonText
open ChatScale.JsonValue ChatScale.JsonFields ChatScale.TransitionSystem ChatScale.IdSequence
open ChatScale.MessageContract (decodes_int decodes_string decodes_time stored_int stored_string
  stored_time)
open ChatScale.MessageStoreModel (isText ClockReading)
open ChatScale.RoomHubModel (Variant)
open ChatScale.RoomOutboxModel ChatScale.RoomOutboxClaims ChatScale.RoomOutboxHandover

set_option autoImplicit false

section Payload

/-- What is assumed of the columns: a `uuid` column takes texts only, a `jsonb`
column takes JSON texts only and gives one of the same value back. -/
structure ColumnsKeep (columns : Columns) : Prop where
  uuid : ∀ text id, columns.uuid text = some id → isValidUtf8 text = true
  jsonb : ∀ text stored, columns.jsonb text = some stored →
    ∃ tree kept, parse text = some tree ∧ parse stored = some kept ∧ StoredAs tree kept

def chatFieldNames : List String := ["id", "room_id", "user_id", "body", "created_at"]

def chatFields (message : ChatMessage) : List (String × Json) :=
  [("id", encodeInt message.id), ("room_id", encodeString message.roomID),
    ("user_id", encodeString message.userID), ("body", encodeString message.body),
    ("created_at", encodeTime message.createdAt)]

theorem chat_names_valid : ∀ name ∈ chatFieldNames, isValidUtf8 (ascii name) = true := by
  decide +kernel

theorem chat_names_distinct : (chatFieldNames.map ascii).Nodup := by decide +kernel

theorem chat_names_apart : FoldDistinct (chatFieldNames.map ascii) := by decide +kernel

/-- Texts that JSON carries unchanged, an id that fits 64 bits, and a time that is
read back. -/
structure ChatEncodable (message : ChatMessage) : Prop where
  id : minInt64 ≤ message.id ∧ message.id ≤ maxInt64
  roomID : isValidUtf8 message.roomID = true
  userID : isValidUtf8 message.userID = true
  body : isValidUtf8 message.body = true
  createdAt : message.createdAt.isExact = true

theorem chat_field_names (message : ChatMessage) :
    (chatFields message).map Prod.fst = chatFieldNames := rfl

theorem chat_member (message : ChatMessage) (index : Nat) (name : String) (value : Json)
    (placed : (chatFields message)[index]? = some (name, value)) :
    lastMember ((chatFields message).map fun field => (fieldName field.1, field.2))
      (ascii name) = some value :=
  struct_member (chat_field_names message) chat_names_valid chat_names_distinct index placed

/-- What a column of JSON gives back for a marshalled message decodes to that
message. -/
theorem unmarshal_stored_chat {message : ChatMessage} {text : Bytes} {tree : Json}
    (encodable : ChatEncodable message) (parsed : parse text = some tree)
    (kept : StoredAs (structTree (chatFields message)) tree) :
    unmarshalChatMessage text = some message := by
  unfold structTree at kept
  cases kept with
  | object entries stored distinct keys each =>
      have whole := StoredAs.object _ stored distinct keys each
      have member := chat_member message
      have fills := fills_stored parsed whole (struct_fills (chat_field_names message)
        chat_names_valid chat_names_distinct).known
      obtain ⟨members, found, decides, _⟩ := fills_members fills chat_names_apart
      obtain ⟨idText, idLast, idRead⟩ :=
        stored_int whole (member 0 "id" _ rfl) encodable.id.1 encodable.id.2
      obtain ⟨roomText, roomLast, roomRead⟩ :=
        stored_string whole (member 1 "room_id" _ rfl) encodable.roomID
      obtain ⟨userText, userLast, userRead⟩ :=
        stored_string whole (member 2 "user_id" _ rfl) encodable.userID
      obtain ⟨bodyText, bodyLast, bodyRead⟩ :=
        stored_string whole (member 3 "body" _ rfl) encodable.body
      obtain ⟨timeText, timeLast, timeRead⟩ :=
        stored_time whole (member 4 "created_at" _ rfl) encodable.createdAt
      obtain ⟨_, id⟩ := decides _ (by simp [chatFieldNames]) _ idLast
      obtain ⟨_, roomID⟩ := decides _ (by simp [chatFieldNames]) _ roomLast
      obtain ⟨_, userID⟩ := decides _ (by simp [chatFieldNames]) _ userLast
      obtain ⟨_, body⟩ := decides _ (by simp [chatFieldNames]) _ bodyLast
      obtain ⟨_, createdAt⟩ := decides _ (by simp [chatFieldNames]) _ timeLast
      simp only [unmarshalChatMessage, found, decodes_int id idRead, decodes_string roomID,
        decodes_string userID, decodes_string body, decodes_time createdAt timeRead, roomRead,
        userRead, bodyRead, Option.bind_eq_bind, Option.bind_some]

end Payload

section Pairs

variable {Left Right : Type} {relates : Left → Right → Prop} {key : Left → Nat}
  {lefts : List Left} {rights : List Right}

theorem paired_left (paired : List.Forall₂ relates lefts rights) {right : Right}
    (listed : right ∈ rights) : ∃ left ∈ lefts, relates left right := by
  induction paired with
  | nil => cases listed
  | cons related paired induction =>
      rcases List.mem_cons.mp listed with rfl | later
      · exact ⟨_, List.mem_cons_self, related⟩
      · obtain ⟨left, present, holds⟩ := induction later
        exact ⟨left, List.mem_cons_of_mem _ present, holds⟩

/-- Lists in step are in bijection if the relation determines the key of the left
side and no key stands there twice. -/
theorem paired_right (paired : List.Forall₂ relates lefts rights)
    (distinct : (lefts.map key).Nodup)
    (determined : ∀ left other right, relates left right → relates other right →
      key left = key other) {left : Left} (listed : left ∈ lefts) :
    ∃! right, right ∈ rights ∧ relates left right := by
  induction paired with
  | nil => cases listed
  | @cons first match_ lefts rights related paired induction =>
      rw [List.map_cons, List.nodup_cons] at distinct
      rcases List.mem_cons.mp listed with rfl | later
      · refine ⟨match_, ⟨List.mem_cons_self, related⟩, ?_⟩
        rintro right ⟨present, holds⟩
        rcases List.mem_cons.mp present with same | further
        · exact same
        · obtain ⟨other, otherListed, otherHolds⟩ := paired_left paired further
          have same := determined left other right holds otherHolds
          exact absurd (same ▸ List.mem_map_of_mem otherListed) distinct.1
      · obtain ⟨right, ⟨present, holds⟩, unique⟩ := induction distinct.2 later
        refine ⟨right, ⟨List.mem_cons_of_mem _ present, holds⟩, ?_⟩
        rintro other ⟨otherPresent, otherHolds⟩
        rcases List.mem_cons.mp otherPresent with rfl | further
        · have same := determined left first other otherHolds related
          exact absurd (same ▸ List.mem_map_of_mem later) distinct.1
        · exact unique other ⟨further, otherHolds⟩

end Pairs

section Rows

structure BodySound (body : Bytes) : Prop where
  trimmed : trimSpace body = body
  nonempty : body ≠ []
  short : body.length ≤ maxBodyLen

/-- The outbox row holds the message of the row, as a relay decodes it. -/
structure Carries (columns : Columns) (message : MessageRow) (row : OutboxRow) : Prop where
  room : row.roomID = message.roomID
  decodes : ∃ event, outboxEvent row = some event ∧ event.message.id = message.id ∧
    event.message.body = message.body ∧ event.message.createdAt = message.createdAt.toTime ∧
    columns.uuid event.message.roomID = some message.roomID ∧
    columns.uuid event.message.userID = some message.userID

structure RowSound (row : MessageRow) : Prop where
  body : BodySound row.body
  serial : row.id ≤ maxSerial

/-- The message of an open transaction and the row it has inserted. -/
structure Drafts (columns : Columns) (request : Request) (row : MessageRow)
    (message : ChatMessage) : Prop where
  sound : RowSound row
  text : isText row.body = true
  id : message.id = row.id
  body : message.body = row.body
  createdAt : message.createdAt = row.createdAt.toTime
  spelled : message.roomID = request.roomID
  room : columns.uuid message.roomID = some row.roomID
  user : columns.uuid message.userID = some row.userID

theorem validated_body {incoming : Incoming} {body : Bytes}
    (valid : incoming.validate = .ok body) : BodySound body := by
  simp only [Incoming.validate] at valid
  split_ifs at valid with empty long missing
  cases valid
  exact ⟨trim_space_idempotent _, empty, Nat.le_of_not_lt long⟩

variable {columns : Columns} {request : Request} {db : Database}

theorem inserted_drafts {body : Bytes} {clock : ClockReading} {row : MessageRow}
    {message : ChatMessage} (sound : BodySound body)
    (inserted : insertMessage columns db request body clock = some (row, message)) :
    Drafts columns request row message ∧ row.id = db.nextMessage := by
  simp only [insertMessage, Option.bind_eq_bind, Option.bind_eq_some_iff,
    Option.ite_none_right_eq_some] at inserted
  obtain ⟨roomID, room, userID, user, ⟨text, serial⟩, same⟩ := inserted
  cases same
  exact ⟨⟨⟨sound, serial⟩, text, rfl, rfl, rfl, rfl, room, user⟩, rfl⟩

theorem drafts_encodable (keeps : ColumnsKeep columns) {row : MessageRow}
    {message : ChatMessage} (drafts : Drafts columns request row message) :
    ChatEncodable message where
  id := by
    have serial := drafts.sound.serial
    rw [drafts.id]
    simp only [minInt64, maxInt64, maxSerial] at *
    omega
  roomID := keeps.uuid _ _ drafts.room
  userID := keeps.uuid _ _ drafts.user
  body := by
    have text := drafts.text
    rw [isText, Bool.and_eq_true] at text
    rw [drafts.body]
    exact text.1
  createdAt := by
    rw [drafts.createdAt]
    exact row.createdAt.spelled

/-- What is enqueued is the message of the row. -/
theorem enqueued_carries (keeps : ColumnsKeep columns) {row : MessageRow} {message : ChatMessage}
    {event : OutboxRow} (drafts : Drafts columns request row message)
    (enqueued : enqueueOutbox columns db request.roomID message.marshal = some event) :
    Carries columns row event := by
  simp only [enqueueOutbox, Option.bind_eq_bind, Option.bind_eq_some_iff,
    Option.ite_none_right_eq_some] at enqueued
  obtain ⟨roomID, room, payload, stored, _, same⟩ := enqueued
  cases same
  obtain ⟨tree, kept, parsed, keptParsed, keptAs⟩ := keeps.jsonb _ _ stored
  cases (parse_render _).symm.trans parsed
  have decoded := unmarshal_stored_chat (drafts_encodable keeps drafts) keptParsed keptAs
  refine ⟨?_, ⟨db.nextOutbox, roomID, message⟩, ?_, drafts.id, drafts.body, drafts.createdAt,
    drafts.room, drafts.user⟩
  · rw [← drafts.spelled, drafts.room] at room
    exact (Option.some.inj room).symm
  · rw [outboxEvent, decoded]
    rfl

theorem carries_stamped {message : MessageRow} {row : OutboxRow}
    (carries : Carries columns message row) (dispatched : Bool) :
    Carries columns message { row with dispatched := dispatched } :=
  ⟨carries.room, carries.decodes⟩

theorem carries_id {message other : MessageRow} {row : OutboxRow}
    (carries : Carries columns message row) (otherCarries : Carries columns other row) :
    message.id = other.id := by
  obtain ⟨event, read, id, _⟩ := carries.decodes
  obtain ⟨again, otherRead, otherID, _⟩ := otherCarries.decodes
  cases read.symm.trans otherRead
  exact Int.ofNat.inj (id.symm.trans otherID)

end Rows

section Calls

/-- The row an open transaction has inserted into `messages`. -/
def insertedRow : WriterStage → Option MessageRow
  | .enqueue row _ => some row
  | .commit row _ => some row
  | _ => none

/-- All a move of a call can do. -/
inductive WriterMoves (columns : Columns) (request : Request) (db : Database) :
    WriterStage → WriterMove → Database → WriterStage → Prop where
  | opened {body : Bytes} (valid : request.incoming.validate = .ok body) :
      WriterMoves columns request db .start .validate db (.begin body)
  | begun (body : Bytes) :
      WriterMoves columns request db (.begin body) .begin db (.insertMessage body)
  | inserted {body : Bytes} {clock : ClockReading} {row : MessageRow} {message : ChatMessage}
      (drawn : insertMessage columns db request body clock = some (row, message)) :
      WriterMoves columns request db (.insertMessage body) (.insertMessage clock)
        { db with nextMessage := db.nextMessage + 1 } (.enqueue row message)
  | enqueued {row : MessageRow} {message : ChatMessage} {event : OutboxRow}
      (drawn : enqueueOutbox columns db request.roomID message.marshal = some event) :
      WriterMoves columns request db (.enqueue row message) .enqueue
        { db with nextOutbox := db.nextOutbox + 1 } (.commit row event)
  | committed (row : MessageRow) (event : OutboxRow) :
      WriterMoves columns request db (.commit row event) .commit (commitRows db row event)
        (.returned none)
  | lost (row : MessageRow) (event : OutboxRow) :
      WriterMoves columns request db (.commit row event) .commitLost (commitRows db row event)
        (.returned (some .commit))
  | failed (stage : WriterStage) (move : WriterMove) (error : WriteError) :
      WriterMoves columns request db stage move db (.returned (some error))

variable {columns : Columns} {request : Request} {db after : Database}
  {stage next : WriterStage} {move : WriterMove}

theorem writer_step_moves
    (stepped : writerStep columns request db stage move = some (after, next)) :
    WriterMoves columns request db stage move after next := by
  unfold writerStep at stepped
  split at stepped
  · split at stepped
    · cases stepped
      exact .failed _ _ _
    · rename_i valid
      cases stepped
      exact .opened valid
  · cases stepped
    exact .begun _
  · split at stepped
    · cases stepped
      exact .failed _ _ _
    · rename_i drawn
      cases stepped
      exact .inserted drawn
  · split at stepped
    · cases stepped
      exact .failed _ _ _
    · rename_i drawn
      cases stepped
      exact .enqueued drawn
  · cases stepped
    exact .committed _ _
  · cases stepped
    exact .lost _ _
  · obtain ⟨error, _, same⟩ := Option.map_eq_some_iff.mp stepped
    cases same
    exact .failed _ _ _
  · cases stepped

/-- A call that has returned does nothing more. -/
theorem returned_final {error : Option WriteError} :
    writerStep columns request db (.returned error) move = none := by
  cases move <;> rfl

/-- What holds of a call between two of its statements. -/
def StageRows (columns : Columns) (request : Request) : WriterStage → Prop
  | .begin body => BodySound body
  | .insertMessage body => BodySound body
  | .enqueue row message => Drafts columns request row message
  | .commit row event => RowSound row ∧ Carries columns row event
  | _ => True

theorem moves_stage_rows (keeps : ColumnsKeep columns) (known : StageRows columns request stage)
    (moves : WriterMoves columns request db stage move after next) :
    StageRows columns request next := by
  cases moves with
  | opened valid => exact validated_body valid
  | begun body => exact known
  | inserted drawn => exact (inserted_drafts known drawn).1
  | enqueued drawn => exact ⟨known.sound, enqueued_carries keeps known drawn⟩
  | committed row event => trivial
  | lost row event => trivial
  | failed stage move error => trivial

/-- A move leaves both tables as they are, or appends the two rows of the call. -/
theorem moves_tables (moves : WriterMoves columns request db stage move after next) :
    (after.messages = db.messages ∧ after.outbox = db.outbox) ∨
      ∃ row event, stage = .commit row event ∧ commitsRows move = true ∧
        after.messages = db.messages ++ [row] ∧ after.outbox = db.outbox ++ [event] ∧
        (move = .commit → next = .returned none) := by
  cases moves with
  | committed row event => exact .inr ⟨row, event, rfl, rfl, rfl, rfl, fun _ => rfl⟩
  | lost row event => exact .inr ⟨row, event, rfl, rfl, rfl, rfl, fun same => by cases same⟩
  | opened valid => exact .inl ⟨rfl, rfl⟩
  | begun body => exact .inl ⟨rfl, rfl⟩
  | inserted drawn => exact .inl ⟨rfl, rfl⟩
  | enqueued drawn => exact .inl ⟨rfl, rfl⟩
  | failed stage move error => exact .inl ⟨rfl, rfl⟩

end Calls

section System

variable {Writer Relay : Type}

/-- The id of the row each open transaction has inserted. -/
def heldIds (writers : Writer → WriterStage) (writer : Writer) : Option Nat :=
  (insertedRow (writers writer)).map MessageRow.id

structure RowsSound (columns : Columns) (requests : Writer → Request)
    (state : State Writer Relay) : Prop where
  paired : List.Forall₂ (Carries columns) state.db.messages state.db.outbox
  rows : ∀ row ∈ state.db.messages, RowSound row
  sequence : Drawn 1 state.db.nextMessage (state.db.messages.map MessageRow.id)
    (heldIds state.writers)
  stages : ∀ writer, StageRows columns (requests writer) (state.writers writer)

theorem started_rows_sound (columns : Columns) (requests : Writer → Request) :
    RowsSound columns requests (started emptyDatabase : State Writer Relay) where
  paired := .nil
  rows := by simp [started, emptyDatabase]
  sequence := drawn_start 1
  stages _ := trivial

theorem relay_rows_sound [DecidableEq Relay] {columns : Columns} {requests : Writer → Request}
    {state : State Writer Relay} (sound : RowsSound columns requests state) (relay : Relay)
    (effect : Effect) : RowsSound columns requests (applyEffect state relay effect) where
  paired := by
    rw [applyEffect, markDispatched, List.forall₂_map_right_iff]
    apply sound.paired.imp
    intro message row carries
    split_ifs
    · exact carries_stamped carries true
    · exact carries
  rows := sound.rows
  sequence := sound.sequence
  stages := sound.stages

/-- Every row a relay has claimed can be decoded. -/
theorem claimed_rows_decode {columns : Columns} {requests : Writer → Request}
    {state : State Writer Relay} (rows : RowsSound columns requests state)
    (claims : ClaimsSound state) {relay : Relay} {candidates claimed : List OutboxRow}
    (at_ : state.relays relay = .claiming candidates claimed) :
    (claimed.mapM outboxEvent).isSome = true := by
  apply decodable_rows
  intro row listed
  have known := (claims.stages relay).known
  rw [at_] at known
  obtain ⟨dispatched, current⟩ := known row (List.mem_append_left _ listed)
  obtain ⟨_, _, carries⟩ := paired_left rows.paired current
  obtain ⟨event, read, _⟩ := carries.decodes
  exact Option.isSome_iff_exists.mpr ⟨event, read⟩

variable [DecidableEq Writer]

theorem held_ids_update (writers : Writer → WriterStage) (writer : Writer) (stage : WriterStage) :
    heldIds (Function.update writers writer stage) =
      Function.update (heldIds writers) writer ((insertedRow stage).map MessageRow.id) :=
  Function.comp_update (fun held => (insertedRow held).map MessageRow.id) writers writer stage

variable {columns : Columns} {requests : Writer → Request} {state : State Writer Relay}

theorem writer_sequence {writer : Writer} {stage : WriterStage} {move : WriterMove}
    {after : Database} {next : WriterStage}
    (drawn : Drawn 1 state.db.nextMessage (state.db.messages.map MessageRow.id)
      (heldIds state.writers)) (at_ : state.writers writer = stage)
    (known : StageRows columns (requests writer) stage)
    (moves : WriterMoves columns (requests writer) state.db stage move after next) :
    Drawn 1 after.nextMessage (after.messages.map MessageRow.id)
      (heldIds (Function.update state.writers writer next)) := by
  rw [held_ids_update]
  cases moves with
  | opened valid => exact drawn_release drawn writer
  | begun body => exact drawn_release drawn writer
  | inserted inserts =>
      rw [insertedRow, Option.map_some, (inserted_drafts known inserts).2]
      exact drawn_draw drawn writer
  | @enqueued row message event enqueues =>
      have same : Function.update (heldIds state.writers) writer (some row.id) =
          heldIds state.writers := by
        rw [Function.update_eq_self_iff, heldIds, at_]
        rfl
      rw [insertedRow, Option.map_some, same]
      exact drawn
  | committed row event =>
      rw [commitRows, List.map_append]
      exact drawn_commit drawn (by rw [heldIds, at_]; rfl)
  | lost row event =>
      rw [commitRows, List.map_append]
      exact drawn_commit drawn (by rw [heldIds, at_]; rfl)
  | failed stage move error => exact drawn_release drawn writer

theorem writer_rows_sound (keeps : ColumnsKeep columns) (sound : RowsSound columns requests state)
    {writer : Writer} {move : WriterMove} {after : Database} {next : WriterStage}
    (moves : WriterMoves columns (requests writer) state.db (state.writers writer) move after
      next) :
    RowsSound columns requests
      { state with db := after, writers := Function.update state.writers writer next } where
  paired := by
    rcases moves_tables moves with ⟨messages, outbox⟩ | ⟨row, event, at_, _, messages, outbox, _⟩
    · rw [messages, outbox]
      exact sound.paired
    · have known := sound.stages writer
      rw [at_] at known
      rw [messages, outbox]
      exact List.rel_append sound.paired (.cons known.2 .nil)
  rows := by
    rcases moves_tables moves with ⟨messages, _⟩ | ⟨row, event, at_, _, messages, _⟩
    · rw [messages]
      exact sound.rows
    · have known := sound.stages writer
      rw [at_] at known
      rw [messages]
      intro other listed
      rcases List.mem_append.mp listed with earlier | last
      · exact sound.rows other earlier
      · rw [List.mem_singleton.mp last]
        exact known.1
  sequence := writer_sequence sound.sequence rfl (sound.stages writer) moves
  stages := by
    intro other
    by_cases same : other = writer
    · subst same
      simp only [Function.update_self]
      exact moves_stage_rows keeps (sound.stages other) moves
    · simp only [Function.update_of_ne same]
      exact sound.stages other

variable [Fintype Relay] [DecidableEq Relay] {variant : Variant}

theorem step_rows_sound (keeps : ColumnsKeep columns) {action : Action Writer Relay}
    {next : State Writer Relay} (sound : RowsSound columns requests state)
    (stepped : step variant columns requests state action = some next) :
    RowsSound columns requests next := by
  cases action with
  | writer writer move =>
      obtain ⟨⟨after, stage⟩, moved, rfl⟩ := Option.map_eq_some_iff.mp stepped
      exact writer_rows_sound keeps sound (writer_step_moves moved)
  | relay relay move =>
      obtain ⟨effect, _, rfl⟩ := Option.map_eq_some_iff.mp stepped
      exact relay_rows_sound sound relay effect

theorem reachable_rows_sound (keeps : ColumnsKeep columns)
    {allowed : State Writer Relay → Action Writer Relay → Prop}
    (reached : Reachable (step variant columns requests) allowed (started emptyDatabase) state) :
    RowsSound columns requests state := by
  apply reachable_invariant (RowsSound columns requests) (started_rows_sound columns requests) _
    reached
  intro before action after sound _ stepped
  exact step_rows_sound keeps sound stepped

end System

section Results

variable {Writer Relay : Type}

/-- A commit that takes effect although its call is told that it has failed. -/
def losesReply : Action Writer Relay → Bool
  | .writer _ .commitLost => true
  | _ => false

/-- A failed transaction of a call has no effect. -/
def failsWithoutEffect (_ : State Writer Relay) (action : Action Writer Relay) : Prop :=
  losesReply action = false

instance (state : State Writer Relay) (action : Action Writer Relay) :
    Decidable (failsWithoutEffect state action) :=
  inferInstanceAs (Decidable (_ = _))

/-- A step that adds no row to either table. -/
def AddsNothing (taken : Transition (State Writer Relay) (Action Writer Relay)) : Prop :=
  taken.after.db.messages = taken.before.db.messages ∧
    taken.after.db.outbox = taken.before.db.outbox

theorem commit_reported {state : State Writer Relay} {writer : Writer} {move : WriterMove}
    (permitted : failsWithoutEffect state (.writer writer move))
    (commits : commitsRows move = true) : move = .commit := by
  cases move <;> simp_all [failsWithoutEffect, losesReply, commitsRows]

variable [DecidableEq Writer] [Fintype Relay] [DecidableEq Relay] {variant : Variant}
  {columns : Columns} {requests : Writer → Request} {state : State Writer Relay}

/-- Only its own moves change where a call is. -/
theorem step_keeps_call {writer : Writer} {action : Action Writer Relay}
    {next : State Writer Relay} (own : ¬∃ move, action = .writer writer move)
    (stepped : step variant columns requests state action = some next) :
    next.writers writer = state.writers writer := by
  cases action with
  | writer other move =>
      obtain ⟨⟨after, stage⟩, _, rfl⟩ := Option.map_eq_some_iff.mp stepped
      have apart : writer ≠ other := by
        rintro rfl
        exact own ⟨move, rfl⟩
      simp only [Function.update_of_ne apart]
  | relay relay move =>
      obtain ⟨effect, _, rfl⟩ := Option.map_eq_some_iff.mp stepped
      rfl

/-- A call has added nothing so far, or it has returned without an error. -/
theorem call_adds_nothing {db : Database} {trace : List (Transition (State Writer Relay)
    (Action Writer Relay))}
    (run : Run (step variant columns requests) failsWithoutEffect (started db) trace state)
    (writer : Writer) :
    (∀ taken ∈ trace, ∀ move, taken.action = .writer writer move → AddsNothing taken) ∨
      state.writers writer = .returned none := by
  induction run with
  | nil => exact .inl (by simp)
  | @snoc trace middle next action prior permitted stepped induction =>
      by_cases own : ∃ move, action = .writer writer move
      · obtain ⟨move, rfl⟩ := own
        obtain ⟨⟨after, stage⟩, moved, rfl⟩ := Option.map_eq_some_iff.mp stepped
        rcases induction with before | returned
        · rcases moves_tables (writer_step_moves moved) with same | ⟨_, _, _, commits, _, _, ends⟩
          · left
            intro taken listed other action
            rcases List.mem_append.mp listed with earlier | last
            · exact before taken earlier other action
            · rw [List.mem_singleton.mp last]
              exact same
          · right
            simp only [Function.update_self]
            exact ends (commit_reported permitted commits)
        · rw [returned, returned_final] at moved
          cases moved
      · have kept := step_keeps_call own stepped
        rcases induction with before | returned
        · left
          intro taken listed move named
          rcases List.mem_append.mp listed with earlier | last
          · exact before taken earlier move named
          · rw [List.mem_singleton.mp last] at named
            exact absurd ⟨move, named⟩ own
        · exact .inr (kept.trans returned)

/-- In every run from empty tables in which a failed transaction of a call has no
effect: each message has one outbox row and each outbox row one message, which is
what a relay decodes from it; every stored body is trimmed, not empty and at most
4000 bytes long; a call that returned an error has added no row; and the rows a
relay has claimed can be decoded. -/
theorem rows_in_bijection (variant : Variant) (columns : Columns) (keeps : ColumnsKeep columns)
    (requests : Writer → Request) (state : State Writer Relay)
    (trace : List (Transition (State Writer Relay) (Action Writer Relay)))
    (run : Run (step variant columns requests) failsWithoutEffect (started emptyDatabase) trace
      state) :
    (state.db.messages.Nodup ∧ state.db.outbox.Nodup ∧
      (∀ message ∈ state.db.messages,
        ∃! row, row ∈ state.db.outbox ∧ Carries columns message row) ∧
      ∀ row ∈ state.db.outbox,
        ∃! message, message ∈ state.db.messages ∧ Carries columns message row) ∧
    (∀ message ∈ state.db.messages, BodySound message.body) ∧
    (∀ writer error, state.writers writer = .returned (some error) →
      ∀ taken ∈ trace, ∀ move, taken.action = .writer writer move → AddsNothing taken) ∧
    ∀ relay candidates claimed, state.relays relay = .claiming candidates claimed →
      (claimed.mapM outboxEvent).isSome = true := by
  have rows := reachable_rows_sound keeps ⟨trace, run⟩
  have claims := reachable_claims_sound empty_database_untouched ⟨trace, run⟩
  refine ⟨⟨?_, ?_, ?_, ?_⟩, ?_, ?_, ?_⟩
  · exact List.Nodup.of_map MessageRow.id rows.sequence.distinct
  · exact List.Nodup.of_map OutboxRow.id claims.sequence.distinct
  · intro message listed
    exact paired_right rows.paired rows.sequence.distinct (fun _ _ _ => carries_id) listed
  · intro row listed
    obtain ⟨message, present, carries⟩ := paired_left rows.paired listed
    refine ⟨message, ⟨present, carries⟩, ?_⟩
    rintro other ⟨otherPresent, otherCarries⟩
    exact List.inj_on_of_nodup_map rows.sequence.distinct otherPresent present
      (carries_id otherCarries carries)
  · intro message listed
    exact (rows.rows message listed).body
  · intro writer error returned
    rcases call_adds_nothing run writer with nothing | reported
    · exact nothing
    · rw [reported] at returned
      cases returned
  · intro relay candidates claimed at_
    exact claimed_rows_decode rows claims at_

/-- Columns that take the canonical spelling of an id and keep JSON values. -/
def keptColumns : Columns := ⟨canonicalColumns.uuid, DeliveryPipeline.jsonColumns.jsonb⟩

theorem kept_columns_keep : ColumnsKeep keptColumns where
  uuid := by
    intro text id accepted
    obtain ⟨read, cast, _⟩ := Option.map_eq_some_iff.mp accepted
    obtain ⟨_, same⟩ := Option.filter_eq_some_iff.mp cast
    rw [← eq_of_beq same]
    exact (plain_text (MessageId.text_plain read)).2.2
  jsonb := DeliveryPipeline.json_columns_keep

/-- A body with characters that JSON escapes, and blanks around it. -/
def markedGreeting : Request :=
  { greeting with incoming := { greeting.incoming with body := ascii " a < \"b\"\t\n" } }

theorem marked_greeting_paired :
    ∃ state : State Unit Unit,
      Reachable (step .singleInstance keptColumns fun _ => markedGreeting) failsWithoutEffect
        (started emptyDatabase) state ∧
      state.db.messages.map MessageRow.body = [ascii "a < \"b\""] ∧
      ∀ message ∈ state.db.messages,
        ∃! row, row ∈ state.db.outbox ∧ Carries keptColumns message row := by
  have ran : (runActions (step .singleInstance keptColumns fun _ => markedGreeting)
      failsWithoutEffect (started emptyDatabase : State Unit Unit) (incoming ())).map
      (fun state => state.db.messages.map MessageRow.body) = some [ascii "a < \"b\""] := by
    decide +kernel
  obtain ⟨state, reached, bodies⟩ := Option.map_eq_some_iff.mp ran
  have reachable : Reachable (step .singleInstance keptColumns fun _ => markedGreeting)
      failsWithoutEffect (started emptyDatabase) state :=
    reachable_run_actions reachable_start reached
  obtain ⟨trace, run⟩ := reachable
  exact ⟨state, ⟨trace, run⟩, bodies, (rows_in_bijection .singleInstance keptColumns
    kept_columns_keep (fun _ => markedGreeting) state trace run).1.2.2.1⟩

end Results

end ChatScale.RoomRows
