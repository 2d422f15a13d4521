import ChatScale.MessageStoreInvariants

/-!
# The outbox relay

Any number of relay processes next to the calls of the message store. A relay
fetches the pending head rows of some rooms, publishes them one after the other
and marks what was published. A publish attempt hands a record to the broker,
which appends it while the attempt is under way or not at all, unless the
attempt failed or its process died: then the record may still be appended
later. Marking may take effect and still report a failure, and a process may be
cancelled or die anywhere.
-/

namespace ChatScale.OutboxRelayModel

open ChatScale.ByteText ChatScale.MessageContract ChatScale.MessageId
open ChatScale.MessageStoreModel (Database OutboxRow Columns Input)

set_option autoImplicit false

/-- What `NextPending` scans a row into. -/
structure Entry where
  messageID : Bytes
  roomID : Bytes
  roomSeq : Int
  event : Bytes
  deriving DecidableEq

/-- A record of the topic, under the room as its key. -/
structure Record where
  key : Bytes
  value : Bytes
  deriving DecidableEq

structure RelayConfig where
  batchSize : Nat
  maxRetries : Nat
  batchPositive : 1 ≤ batchSize
  retriesPositive : 1 ≤ maxRetries

/-- One entry at a time, tried once. -/
def smallConfig : RelayConfig := ⟨1, 1, le_refl 1, le_refl 1⟩

def entryOf (row : OutboxRow) : Entry := ⟨row.messageID.text, row.roomID, row.roomSeq, row.event⟩

def recordOf (entry : Entry) : Record := ⟨entry.roomID, entry.event⟩

section Repository

/-- No earlier row of the room is pending. -/
def isHead (outbox : List OutboxRow) (pending : OutboxRow) : Bool :=
  !outbox.any fun previous => previous.roomID == pending.roomID && !previous.published &&
    decide (previous.roomSeq < pending.roomSeq)

/-- `ORDER BY created_at, room_id, room_seq`, texts in the order of the
database's collation. -/
def rowOrder (collation : Bytes → Bytes → Bool) (left right : OutboxRow) : Bool :=
  if left.createdAt.instant ≠ right.createdAt.instant then
    decide (left.createdAt.instant < right.createdAt.instant)
  else if left.roomID ≠ right.roomID then collation left.roomID right.roomID
  else decide (left.roomSeq ≤ right.roomSeq)

def pendingHeads (db : Database) : List OutboxRow :=
  db.outbox.filter fun row => !row.published && isHead db.outbox row

def nextPending (collation : Bytes → Bytes → Bool) (db : Database) (limit : Nat) : List Entry :=
  (((pendingHeads db).mergeSort (rowOrder collation)).take limit).map entryOf

/-- The row of this id becomes published if it is still pending. -/
def markPublished (db : Database) (messageID : Bytes) : Database :=
  match castUuid messageID with
  | none => db
  | some id => { db with outbox := db.outbox.map fun row =>
      if row.messageID = id then { row with published := true } else row }

end Repository

def validateEntry (entry : Entry) : Except String Unit :=
  match unmarshalEvent entry.event with
  | none => .error "decode event"
  | some event =>
      match event.validate with
      | .error message => .error ("validate event: " ++ message)
      | .ok () =>
          if event.messageID ≠ entry.messageID ∨ event.roomID ≠ entry.roomID ∨
              event.roomSeq ≠ entry.roomSeq then
            .error "event fields do not match outbox row"
          else .ok ()

/-- Where a relay process is. `batch` is the head of the loop over the fetched
entries; `publishing` knows whether the broker has taken the record of the
current attempt. -/
inductive RelayStage where
  | down
  | idle
  | batch (entries : List Entry)
  | publishing (entry : Entry) (attempt : Nat) (appended : Bool) (rest : List Entry)
  | backoff (entry : Entry) (attempt : Nat) (rest : List Entry)
  | marking (entry : Entry) (rest : List Entry)

/-- `late` says that the broker may still append the record afterwards. -/
inductive RelayMove where
  | start
  | fetch
  | next
  | append
  | succeed
  | fail (late : Bool)
  | retry
  | mark
  | markFail
  | halt (late : Bool)

def RelayMove.isLate : RelayMove → Bool
  | .fail late => late
  | .halt late => late
  | _ => false

structure System (Caller Relay : Type) where
  store : MessageStoreModel.State Caller
  relays : Relay → RelayStage
  log : List Record
  inflight : List Record

inductive Action (Caller Relay : Type) where
  | store (action : MessageStoreModel.Action Caller)
  | relay (relay : Relay) (move : RelayMove)
  | late (record : Record)

structure Environment (Relay : Type) where
  columns : Columns
  collation : Bytes → Bytes → Bool
  configs : Relay → RelayConfig

/-- What a move of a relay leaves behind. -/
structure Effect where
  db : Database
  stage : RelayStage
  log : List Record
  inflight : List Record

/-- The record of an attempt that ends without having been taken. -/
def leftover (late : Bool) : RelayStage → List Record
  | .publishing entry _ false _ => if late then [recordOf entry] else []
  | _ => []

def relayEffect (collation : Bytes → Bytes → Bool) (config : RelayConfig) (db : Database)
    (log inflight : List Record) (stage : RelayStage) (move : RelayMove) : Option Effect :=
  match move, stage with
  | .start, .down => some ⟨db, .idle, log, inflight⟩
  | .fetch, .idle => some ⟨db, .batch (nextPending collation db config.batchSize), log, inflight⟩
  | .next, .batch [] => some ⟨db, .idle, log, inflight⟩
  | .next, .batch (entry :: rest) =>
      match validateEntry entry with
      | .error _ => some ⟨db, .batch rest, log, inflight⟩
      | .ok () => some ⟨db, .publishing entry 1 false rest, log, inflight⟩
  | .append, .publishing entry attempt false rest =>
      some ⟨db, .publishing entry attempt true rest, log ++ [recordOf entry], inflight⟩
  | .succeed, .publishing entry _ true rest => some ⟨db, .marking entry rest, log, inflight⟩
  | .fail late, .publishing entry attempt appended rest =>
      let left := inflight ++ leftover late (.publishing entry attempt appended rest)
      if config.maxRetries ≤ attempt then some ⟨db, .batch rest, log, left⟩
      else some ⟨db, .backoff entry attempt rest, log, left⟩
  | .retry, .backoff entry attempt rest =>
      some ⟨db, .publishing entry (attempt + 1) false rest, log, inflight⟩
  | .mark, .marking entry rest =>
      some ⟨markPublished db entry.messageID, .batch rest, log, inflight⟩
  | .markFail, .marking _ rest => some ⟨db, .batch rest, log, inflight⟩
  | .halt late, stage => some ⟨db, .down, log, inflight ++ leftover late stage⟩
  | _, _ => none

section Steps

variable {Caller Relay : Type} [Fintype Caller] [DecidableEq Caller] [DecidableEq Relay]

def initial : System Caller Relay := ⟨MessageStoreModel.initial, fun _ => .down, [], []⟩

def step (environment : Environment Relay) (inputs : Caller → Input)
    (system : System Caller Relay) : Action Caller Relay → Option (System Caller Relay)
  | .store action =>
      (MessageStoreModel.step environment.columns inputs system.store action).map fun store =>
        { system with store := store }
  | .relay relay move =>
      (relayEffect environment.collation (environment.configs relay) system.store.db system.log
        system.inflight (system.relays relay) move).map fun effect =>
          { store := { system.store with db := effect.db }
            relays := Function.update system.relays relay effect.stage
            log := effect.log
            inflight := effect.inflight }
  | .late record =>
      if record ∈ system.inflight then
        some { system with log := system.log ++ [record]
                           inflight := system.inflight.erase record }
      else none

end Steps

/-- The sequence number a consumer reads from a record. -/
def recordSeq (record : Record) : Option Int := (unmarshalEvent record.value).map Event.roomSeq

/-- The records of a room, in the order of the log. -/
def roomRecords (log : List Record) (room : Bytes) : List Record :=
  log.filter fun record => record.key == room

end ChatScale.OutboxRelayModel
