import ChatScale.MessageStoreModel
import ChatScale.RoomHubModel
import Mathlib.Data.List.Sort

/-!
# The outbox of the earlier stages

`HandleIncoming` inserts a message and its outbox row in one transaction; the
id of the row is drawn from a sequence at the insert and the row is seen by
others from the commit on. A relay drains the outbox with `DispatchBatch`: one
transaction that claims undispatched rows, hands each to the hub and stamps
them. The claiming `SELECT` works on the rows committed when it starts, locks
them one after the other in the order of their ids, and looks at the latest
committed version of a row when it locks it. Under `SKIP LOCKED` a row that an
open transaction of another relay has locked is left out, without it the
`SELECT` waits. Any statement may fail, a process may die anywhere, and the
reply to a commit may be lost after the commit took effect.
-/

namespace ChatScale.RoomOutboxModel

open ChatScale.ByteText ChatScale.CivilTime ChatScale.JsonText ChatScale.JsonFields
open ChatScale.MessageStoreModel (isText ClockReading)
open ChatScale.RoomHubModel (Variant)

set_option autoImplicit false

section Messages

/-- `models.Message`. -/
structure ChatMessage where
  id : Int
  roomID : Bytes
  userID : Bytes
  body : Bytes
  createdAt : Time
  deriving DecidableEq

/-- The text of a message whose time has one. -/
def ChatMessage.marshal (message : ChatMessage) : Bytes :=
  render (structTree [("id", encodeInt message.id), ("room_id", encodeString message.roomID),
    ("user_id", encodeString message.userID), ("body", encodeString message.body),
    ("created_at", encodeTime message.createdAt)])

def unmarshalChatMessage (text : Bytes) : Option ChatMessage := do
  let members ← structMembers text
  let id ← decodeField decodeInt 0 (ascii "id") members
  let roomID ← decodeField decodeString [] (ascii "room_id") members
  let userID ← decodeField decodeString [] (ascii "user_id") members
  let body ← decodeField decodeString [] (ascii "body") members
  let createdAt ← decodeField decodeTime zeroTime (ascii "created_at") members
  some ⟨id, roomID, userID, body, createdAt⟩

structure Incoming where
  userID : Bytes
  body : Bytes

def maxBodyLen : Nat := 4000

/-- The checks of `HandleIncoming`; the result is the trimmed body. -/
def Incoming.validate (incoming : Incoming) : Except String Bytes :=
  let body := trimSpace incoming.body
  if body = [] then .error "invalid message: empty body"
  else if maxBodyLen < body.length then .error "invalid message: body exceeds 4000 bytes"
  else if incoming.userID = [] then .error "invalid message: missing user_id"
  else .ok body

end Messages

section Tables

structure MessageRow where
  id : Nat
  roomID : Bytes
  userID : Bytes
  body : Bytes
  createdAt : Stamp
  deriving DecidableEq

structure OutboxRow where
  id : Nat
  roomID : Bytes
  payload : Bytes
  /-- Whether `dispatched_at` is set. -/
  dispatched : Bool
  deriving DecidableEq

/-- How the database stores values: a `uuid` column refuses a text or gives it
back in its canonical spelling, a `jsonb` column refuses a text or gives it back
in its own. -/
structure Columns where
  uuid : Bytes → Option Bytes
  jsonb : Bytes → Option Bytes

structure OutboxEvent where
  id : Nat
  roomID : Bytes
  message : ChatMessage
  deriving DecidableEq

/-- A row as the relay decodes it; `none` is the decode error. -/
def outboxEvent (row : OutboxRow) : Option OutboxEvent :=
  (unmarshalChatMessage row.payload).map fun message => ⟨row.id, row.roomID, message⟩

/-- `WHERE dispatched_at IS NULL ORDER BY id`. -/
def undispatched (outbox : List OutboxRow) : List OutboxRow :=
  (outbox.filter fun row => !row.dispatched).insertionSort fun left right => left.id ≤ right.id

/-- Whether the latest committed version of the row is undispatched. -/
def isPending (outbox : List OutboxRow) (id : Nat) : Bool :=
  outbox.any fun row => row.id == id && !row.dispatched

/-- `UPDATE outbox SET dispatched_at = now() WHERE id = any(ids)`. -/
def markDispatched (outbox : List OutboxRow) (ids : List Nat) : List OutboxRow :=
  outbox.map fun row => if row.id ∈ ids then { row with dispatched := true } else row

end Tables

/-- The committed rows, and the next values of the two id sequences. A value is
drawn at the insert and is not given back by a rollback. -/
structure Database where
  messages : List MessageRow
  outbox : List OutboxRow
  nextMessage : Nat
  nextOutbox : Nat

section HandleIncoming

structure Request where
  roomID : Bytes
  incoming : Incoming

inductive WriteError where
  | invalid (message : String)
  | begin
  | insertMessage
  | enqueue
  | commit
  deriving DecidableEq

def WriteError.text : WriteError → String
  | .invalid message => message
  | .begin => "begin tx"
  | .insertMessage => "insert message"
  | .enqueue => "enqueue outbox"
  | .commit => "commit tx"

/-- The next statement of a `HandleIncoming` call, with what its transaction has
written so far. -/
inductive WriterStage where
  | start
  | begin (body : Bytes)
  | insertMessage (body : Bytes)
  | enqueue (row : MessageRow) (message : ChatMessage)
  | commit (row : MessageRow) (event : OutboxRow)
  | returned (error : Option WriteError)
  deriving DecidableEq

inductive WriterMove where
  | validate
  | begin
  | insertMessage (clock : ClockReading)
  | enqueue
  | commit
  | commitLost
  | fail

/-- The outbox row an open transaction has inserted. -/
def WriterStage.written : WriterStage → Option OutboxRow
  | .commit _ event => some event
  | _ => none

/-- How a call ends whose next statement fails. -/
def WriterStage.failed : WriterStage → Option WriteError
  | .begin _ => some .begin
  | .insertMessage _ => some .insertMessage
  | .enqueue _ _ => some .enqueue
  | .commit _ _ => some .commit
  | _ => none

/-- The largest value of a `bigserial` column; `nextval` fails after it. -/
def maxSerial : Nat := 2 ^ 63 - 1

/-- The row and the message `InsertMessage` leaves; the message keeps the
spelling of the ids that the client sent. -/
def insertMessage (columns : Columns) (db : Database) (request : Request) (body : Bytes)
    (clock : ClockReading) : Option (MessageRow × ChatMessage) := do
  let roomID ← columns.uuid request.roomID
  let userID ← columns.uuid request.incoming.userID
  if isText body ∧ db.nextMessage ≤ maxSerial then
    some (⟨db.nextMessage, roomID, userID, body, clock.time⟩,
      ⟨db.nextMessage, request.roomID, request.incoming.userID, body, clock.time.toTime⟩)
  else none

def enqueueOutbox (columns : Columns) (db : Database) (roomID payload : Bytes) :
    Option OutboxRow := do
  let roomID ← columns.uuid roomID
  let payload ← columns.jsonb payload
  if db.nextOutbox ≤ maxSerial then some ⟨db.nextOutbox, roomID, payload, false⟩ else none

def commitRows (db : Database) (row : MessageRow) (event : OutboxRow) : Database :=
  { db with messages := db.messages ++ [row], outbox := db.outbox ++ [event] }

def writerStep (columns : Columns) (request : Request) (db : Database) :
    WriterStage → WriterMove → Option (Database × WriterStage)
  | .start, .validate =>
      match request.incoming.validate with
      | .error message => some (db, .returned (some (.invalid message)))
      | .ok body => some (db, .begin body)
  | .begin body, .begin => some (db, .insertMessage body)
  | .insertMessage body, .insertMessage clock =>
      match insertMessage columns db request body clock with
      | none => some (db, .returned (some .insertMessage))
      | some (row, message) =>
          some ({ db with nextMessage := db.nextMessage + 1 }, .enqueue row message)
  | .enqueue row message, .enqueue =>
      match enqueueOutbox columns db request.roomID message.marshal with
      | none => some (db, .returned (some .enqueue))
      | some event => some ({ db with nextOutbox := db.nextOutbox + 1 }, .commit row event)
  | .commit row event, .commit => some (commitRows db row event, .returned none)
  | .commit row event, .commitLost => some (commitRows db row event, .returned (some .commit))
  | stage, .fail => stage.failed.map fun error => (db, .returned (some error))
  | _, _ => none

end HandleIncoming

section DispatchBatch

def batchSize : Nat := 100

/-- One call of the dispatch callback: `Broadcast` of the event. `published`
says whether `PUBLISH` returned without an error, which the callback does not
look at. -/
structure Handover where
  event : OutboxEvent
  published : Bool
  deriving DecidableEq

/-- Where a relay is: waiting for the next poll, before a batch, locking the
rows its `SELECT` found, handing over the events of a batch, and before the
commit of a batch it has marked. -/
inductive RelayStage where
  | idle
  | draining
  | claiming (candidates claimed : List OutboxRow)
  | dispatching (handed : List Handover) (waiting : List OutboxEvent)
  | marked (batch : List Handover)
  deriving DecidableEq

inductive RelayMove where
  | poll
  | select
  | lock
  | materialise
  | dispatch (published : Bool)
  | mark
  | commit
  | commitLost
  | fail
  deriving DecidableEq

def Handover.id (handover : Handover) : Nat := handover.event.id

/-- The ids of the rows the open transaction of a relay has claimed. -/
def RelayStage.claimed : RelayStage → List Nat
  | .idle => []
  | .draining => []
  | .claiming _ rows => rows.map OutboxRow.id
  | .dispatching handed waiting => handed.map Handover.id ++ waiting.map OutboxEvent.id
  | .marked batch => batch.map Handover.id

/-- What a move of a relay leaves behind: its stage, the events it handed over
and the ids it stamped. -/
structure Effect where
  stage : RelayStage
  handed : List Handover
  stamped : List Nat

def goto (stage : RelayStage) : Effect := ⟨stage, [], []⟩

/-- The next candidate is locked, unless another transaction holds it. -/
def lockNext (variant : Variant) (outbox : List OutboxRow) (elsewhere : Nat → Bool)
    (row : OutboxRow) (rest claimed : List OutboxRow) : Option Effect :=
  if elsewhere row.id then
    match variant with
    | .naiveScale => some (goto (.claiming rest claimed))
    | .singleInstance => none
  else if isPending outbox row.id then some (goto (.claiming rest (claimed ++ [row])))
  else some (goto (.claiming rest claimed))

/-- The claimed rows are decoded; a decode error rolls the batch back, and an
empty batch ends the drain. -/
def materialise (claimed : List OutboxRow) : RelayStage :=
  match claimed.mapM outboxEvent with
  | none => .idle
  | some [] => .idle
  | some (event :: events) => .dispatching [] (event :: events)

def relayEffect (variant : Variant) (outbox : List OutboxRow) (elsewhere : Nat → Bool) :
    RelayStage → RelayMove → Option Effect
  | .idle, .poll => some (goto .draining)
  | .draining, .select => some (goto (.claiming (undispatched outbox) []))
  | .claiming (row :: rest) claimed, .lock =>
      if claimed.length = batchSize then none
      else lockNext variant outbox elsewhere row rest claimed
  | .claiming candidates claimed, .materialise =>
      if candidates = [] ∨ claimed.length = batchSize then some (goto (materialise claimed))
      else none
  | .dispatching handed (event :: waiting), .dispatch published =>
      some ⟨.dispatching (handed ++ [⟨event, published⟩]) waiting, [⟨event, published⟩], []⟩
  | .dispatching handed [], .mark => some (goto (.marked handed))
  | .marked batch, .commit =>
      some ⟨if batch.length < batchSize then .idle else .draining, [], batch.map Handover.id⟩
  | .marked batch, .commitLost => some ⟨.idle, [], batch.map Handover.id⟩
  | _, .fail => some (goto .idle)
  | _, _ => none

end DispatchBatch

/-- The database, the calls and the relays, with every call of the dispatch
callback and every id a committed transaction has stamped, in the order they
happened. -/
structure State (Writer Relay : Type) where
  db : Database
  writers : Writer → WriterStage
  relays : Relay → RelayStage
  handovers : List Handover
  stamps : List Nat

inductive Action (Writer Relay : Type) where
  | writer (writer : Writer) (move : WriterMove)
  | relay (relay : Relay) (move : RelayMove)

section Steps

variable {Writer Relay : Type}

def started (db : Database) : State Writer Relay :=
  ⟨db, fun _ => .start, fun _ => .idle, [], []⟩

def emptyDatabase : Database := ⟨[], [], 1, 1⟩

variable [DecidableEq Writer] [Fintype Relay] [DecidableEq Relay]

/-- Whether another relay's open transaction holds the row. -/
def lockedElsewhere (relays : Relay → RelayStage) (relay : Relay) (id : Nat) : Bool :=
  decide (∃ other, other ≠ relay ∧ id ∈ (relays other).claimed)

def applyEffect (state : State Writer Relay) (relay : Relay) (effect : Effect) :
    State Writer Relay where
  db := { state.db with outbox := markDispatched state.db.outbox effect.stamped }
  writers := state.writers
  relays := Function.update state.relays relay effect.stage
  handovers := state.handovers ++ effect.handed
  stamps := state.stamps ++ effect.stamped

def step (variant : Variant) (columns : Columns) (requests : Writer → Request)
    (state : State Writer Relay) : Action Writer Relay → Option (State Writer Relay)
  | .writer writer move =>
      (writerStep columns (requests writer) state.db (state.writers writer) move).map fun result =>
        { state with db := result.1, writers := Function.update state.writers writer result.2 }
  | .relay relay move =>
      (relayEffect variant state.db.outbox (lockedElsewhere state.relays relay)
        (state.relays relay) move).map (applyEffect state relay)

end Steps

end ChatScale.RoomOutboxModel
