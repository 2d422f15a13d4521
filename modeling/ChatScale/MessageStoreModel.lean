import ChatScale.MessageId
import ChatScale.TransitionSystem
import Mathlib.Data.Fintype.Basic
import Mathlib.Data.Fintype.Sets
import Mathlib.Logic.Function.Basic

/-!
# Accepting a message

`Store.Accept` as the sequence of its statements, run by any number of callers
against one database under READ COMMITTED. A transaction keeps what it has
written to itself until it commits. The counter upsert waits while another open
transaction holds the counter row of the room, an insert waits while another
open transaction has inserted a row with the same unique key, and a committed
row with the same key is a unique violation. Every statement may fail, the
server may drop a transaction at any time, and the reply to a commit may be
lost after the commit took effect.
-/

namespace ChatScale.MessageStoreModel

open ChatScale.ByteText ChatScale.ByteEncodings ChatScale.CivilTime
open ChatScale.MessageContract ChatScale.MessageId

set_option autoImplicit false

structure MessageRow where
  messageID : Uuid
  clientID : Bytes
  clientMessageID : Bytes
  roomID : Bytes
  roomSeq : Int
  createdAt : Stamp
  payload : Bytes
  deriving DecidableEq

structure OutboxRow where
  messageID : Uuid
  roomID : Bytes
  roomSeq : Int
  event : Bytes
  createdAt : Stamp
  /-- Whether `published_at` is set. -/
  published : Bool
  deriving DecidableEq

/-- The committed tables: `room_counters`, `messages` and `message_outbox`. -/
structure Database where
  counters : Bytes → Option Int
  messages : List MessageRow
  outbox : List OutboxRow

/-- What an open transaction has written. It writes to each table at most once. -/
structure Transaction where
  counter : Option (Bytes × Int)
  message : Option MessageRow
  outbox : Option OutboxRow
  deriving DecidableEq

/-- How the database stores values: a `jsonb` column refuses a text or gives it
back in its own spelling, a `timestamptz` column rounds. -/
structure Columns where
  jsonb : Bytes → Option Bytes
  timestamptz : Time → Stamp

/-- What a `text` column and a text parameter accept. -/
def isText (text : Bytes) : Bool := isValidUtf8 text && !text.contains 0

structure Input where
  clientID : Bytes
  request : SendRequest

/-- A reading of the wall clock, which is never the zero time. -/
structure ClockReading where
  time : Stamp
  started : time.isZero = false

inductive Failure where
  | clientRequired
  | invalidRequest (message : String)
  | findAccepted
  | beginTransaction
  | commitRead
  | findInTransaction
  | allocate
  | generate
  | parseId
  | validateEvent (message : String)
  | insertHistory
  | marshal
  | insertOutbox
  | commit
  deriving DecidableEq

def Failure.text : Failure → String
  | .clientRequired => "client_id is required"
  | .invalidRequest message => message
  | .findAccepted => "find accepted message"
  | .beginTransaction => "begin message transaction"
  | .commitRead => "commit idempotent read"
  | .findInTransaction => "find accepted message in transaction"
  | .allocate => "allocate room sequence"
  | .generate => "generate message id"
  | .parseId => "parse message id"
  | .validateEvent message => "validate accepted event: " ++ message
  | .insertHistory => "insert message history"
  | .marshal => "marshal message event"
  | .insertOutbox => "insert message outbox"
  | .commit => "commit message transaction"

/-- Where a returned event comes from. -/
inductive Path where
  | poolRead
  | transactionRead
  | conflictRead
  | inserted
  deriving DecidableEq

inductive Outcome where
  | accepted (path : Path) (event : Event)
  | failed (failure : Failure)
  deriving DecidableEq

/-- The next statement of a call. `closing` is the deferred rollback. -/
inductive Stage where
  | start
  | findPool
  | begin
  | findTransaction
  | commitRead (event : Event)
  | allocate
  | generate (roomSeq : Int)
  | insertMessage (event : Event) (id : Uuid)
  | rollback
  | reread
  | insertOutbox (event : Event) (id : Uuid)
  | commit (event : Event)
  | closing (outcome : Outcome)
  | done (outcome : Outcome)
  deriving DecidableEq

structure Call where
  stage : Stage
  tx : Option Transaction

def newCall : Call := ⟨.start, none⟩

def emptyTransaction : Transaction := ⟨none, none, none⟩

def emptyDatabase : Database := ⟨fun _ => none, [], []⟩

def findRow (db : Database) (clientID clientMessageID : Bytes) : Option MessageRow :=
  db.messages.find? fun row => row.clientID == clientID && row.clientMessageID == clientMessageID

/-- The event `findEvent` scans a row into. -/
def readRow (row : MessageRow) : Event where
  version := version
  messageID := row.messageID.text
  clientMessageID := row.clientMessageID
  roomID := row.roomID
  roomSeq := row.roomSeq
  createdAt := row.createdAt.toTime
  payload := row.payload

def findEvent (db : Database) (clientID clientMessageID : Bytes) : Option Event :=
  (findRow db clientID clientMessageID).map readRow

def lastSeq (db : Database) (room : Bytes) : Int := (db.counters room).getD 0

/-- A commit makes the writes of the transaction visible. -/
def applyTransaction (db : Database) (tx : Transaction) : Database where
  counters := match tx.counter with
    | some (room, seq) => Function.update db.counters room (some seq)
    | none => db.counters
  messages := db.messages ++ tx.message.toList
  outbox := db.outbox ++ tx.outbox.toList

def acceptedEvent (input : Input) (roomSeq : Int) (random : Uuid) (clock : ClockReading) :
    Event where
  version := version
  messageID := newMessageID random
  clientMessageID := input.request.clientMessageID
  roomID := input.request.roomID
  roomSeq := roomSeq
  createdAt := clock.time.toTime
  payload := input.request.payload

def messageRow (columns : Columns) (input : Input) (event : Event) (id : Uuid)
    (payload : Bytes) : MessageRow :=
  ⟨id, input.clientID, event.clientMessageID, event.roomID, event.roomSeq,
    columns.timestamptz event.createdAt, payload⟩

def outboxRow (columns : Columns) (event : Event) (id : Uuid) (stored : Bytes) : OutboxRow :=
  ⟨id, event.roomID, event.roomSeq, stored, columns.timestamptz event.createdAt, false⟩

/-- Two rows of `messages` that the primary key or the room sequence keeps
apart. -/
def sameMessageKey (left right : MessageRow) : Bool :=
  left.messageID == right.messageID ||
    (left.roomID == right.roomID && left.roomSeq == right.roomSeq)

/-- The key of `messages_client_idempotency_unique`. -/
def sameClientKey (left right : MessageRow) : Bool :=
  left.clientID == right.clientID && left.clientMessageID == right.clientMessageID

def sameOutboxKey (left right : OutboxRow) : Bool :=
  left.messageID == right.messageID ||
    (left.roomID == right.roomID && left.roomSeq == right.roomSeq)

section Statements

variable (columns : Columns) (input : Input) (db : Database)
  (held : (Transaction → Bool) → Bool)

def Call.goto (call : Call) (stage : Stage) : Call := { call with stage := stage }

def Call.fail (call : Call) (failure : Failure) : Call := call.goto (.closing (.failed failure))

def startCall (call : Call) : Call :=
  if isBlank input.clientID then call.fail .clientRequired
  else match input.request.validate with
    | .error message => call.fail (.invalidRequest message)
    | .ok () => call.goto .findPool

def findPool (call : Call) : Call :=
  if isText input.clientID && isText input.request.clientMessageID then
    match findEvent db input.clientID input.request.clientMessageID with
    | some event => call.goto (.closing (.accepted .poolRead event))
    | none => call.goto .begin
  else call.fail .findAccepted

def findInTransaction (call : Call) : Call :=
  match findEvent db input.clientID input.request.clientMessageID with
  | some event => call.goto (.commitRead event)
  | none => call.goto .allocate

/-- The counter upsert; `none` while another transaction holds the row. -/
def allocate (call : Call) (tx : Transaction) : Option Call :=
  let room := input.request.roomID
  if !isText room then some (call.fail .allocate)
  else if held fun other => other.counter.any fun row => row.1 == room then none
  else
    let seq := lastSeq db room + 1
    if maxInt64 < seq then some (call.fail .allocate)
    else some ⟨.generate seq, some { tx with counter := some (room, seq) }⟩

def generate (call : Call) (roomSeq : Int) (random : Uuid) (clock : ClockReading) : Call :=
  match parseMessageID (newMessageID random) with
  | none => call.fail .parseId
  | some id =>
      let event := acceptedEvent input roomSeq random clock
      match event.validate with
      | .error message => call.fail (.validateEvent message)
      | .ok () => call.goto (.insertMessage event id)

def insertMessage (call : Call) (tx : Transaction) (event : Event) (id : Uuid) : Option Call :=
  match columns.jsonb event.payload with
  | none => some (call.fail .insertHistory)
  | some payload =>
      let row := messageRow columns input event id payload
      if held fun other => other.message.any fun its =>
          sameMessageKey row its || sameClientKey row its then none
      else if db.messages.any (sameMessageKey row) then some (call.fail .insertHistory)
      else if db.messages.any (sameClientKey row) then some (call.goto .rollback)
      else some ⟨.insertOutbox event id, some { tx with message := some row }⟩

def reread (call : Call) : Call :=
  match findEvent db input.clientID input.request.clientMessageID with
  | some event => call.goto (.closing (.accepted .conflictRead event))
  | none => call.fail .insertHistory

def insertOutbox (call : Call) (tx : Transaction) (event : Event) (id : Uuid) : Option Call :=
  match event.marshal with
  | none => some (call.fail .marshal)
  | some serialized =>
      match columns.jsonb serialized with
      | none => some (call.fail .insertOutbox)
      | some stored =>
          let row := outboxRow columns event id stored
          if held fun other => other.outbox.any (sameOutboxKey row) then none
          else if db.outbox.any (sameOutboxKey row) then some (call.fail .insertOutbox)
          else some ⟨.commit event, some { tx with outbox := some row }⟩

/-- The next statement of a call; `none` when it has to wait, and when its
transaction is gone. -/
def runStatement (call : Call) (random : Uuid) (clock : ClockReading) :
    Option (Database × Call) :=
  match call.stage, call.tx with
  | .start, _ => some (db, startCall input call)
  | .findPool, _ => some (db, findPool input db call)
  | .begin, _ => some (db, ⟨.findTransaction, some emptyTransaction⟩)
  | .findTransaction, some _ => some (db, findInTransaction input db call)
  | .commitRead event, some tx =>
      some (applyTransaction db tx, ⟨.done (.accepted .transactionRead event), none⟩)
  | .allocate, some tx => (allocate input db held call tx).map fun call => (db, call)
  | .generate roomSeq, _ => some (db, generate input call roomSeq random clock)
  | .insertMessage event id, some tx =>
      (insertMessage columns input db held call tx event id).map fun call => (db, call)
  | .rollback, _ => some (db, ⟨.reread, none⟩)
  | .reread, _ => some (db, reread input db call)
  | .insertOutbox event id, some tx =>
      (insertOutbox columns db held call tx event id).map fun call => (db, call)
  | .commit event, some tx =>
      some (applyTransaction db tx, ⟨.done (.accepted .inserted event), none⟩)
  | .closing outcome, _ => some (db, ⟨.done outcome, none⟩)
  | _, _ => none

end Statements

/-- The error of a statement that fails for a reason of its own. The error of
the explicit rollback is ignored. -/
def failStatement (call : Call) : Option Call :=
  match call.stage with
  | .findPool => some (call.fail .findAccepted)
  | .begin => some (call.fail .beginTransaction)
  | .findTransaction => some (call.fail .findInTransaction)
  | .commitRead _ => some (call.fail .commitRead)
  | .allocate => some (call.fail .allocate)
  | .generate _ => some (call.fail .generate)
  | .insertMessage _ _ => some (call.fail .insertHistory)
  | .rollback => some (call.goto .reread)
  | .reread => some (call.fail .insertHistory)
  | .insertOutbox _ _ => some (call.fail .insertOutbox)
  | .commit _ => some (call.fail .commit)
  | .start => none
  | .closing _ => none
  | .done _ => none

inductive Move where
  | run (random : Uuid) (clock : ClockReading)
  | fail
  | abort
  | loseCommit

def Move.isRun : Move → Bool
  | .run _ _ => true
  | _ => false

structure State (Caller : Type) where
  db : Database
  calls : Caller → Call

structure Action (Caller : Type) where
  caller : Caller
  move : Move

section Steps

variable {Caller : Type} [Fintype Caller] [DecidableEq Caller]

def initial : State Caller := ⟨emptyDatabase, fun _ => newCall⟩

/-- Whether another caller's open transaction is in the way. -/
def heldByOther (calls : Caller → Call) (caller : Caller) (clash : Transaction → Bool) : Bool :=
  decide (∃ other, other ≠ caller ∧ (calls other).tx.any clash = true)

/-- What a move of a call does to the database and to the call. -/
def moveEffect (columns : Columns) (input : Input) (db : Database)
    (held : (Transaction → Bool) → Bool) (call : Call) : Move → Option (Database × Call)
  | .run random clock => runStatement columns input db held call random clock
  | .fail => (failStatement call).map fun call => (db, call)
  | .abort => if call.tx.isSome then some (db, { call with tx := none }) else none
  | .loseCommit =>
      match call.stage, call.tx with
      | .commit _, some tx =>
          some (applyTransaction db tx, ⟨.closing (.failed .commit), none⟩)
      | _, _ => none

def step (columns : Columns) (inputs : Caller → Input) (state : State Caller)
    (action : Action Caller) : Option (State Caller) :=
  (moveEffect columns (inputs action.caller) state.db (heldByOther state.calls action.caller)
    (state.calls action.caller) action.move).map fun effect =>
      ⟨effect.1, Function.update state.calls action.caller effect.2⟩

end Steps

end ChatScale.MessageStoreModel
