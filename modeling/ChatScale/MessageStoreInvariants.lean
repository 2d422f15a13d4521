import ChatScale.MessageStoreStatements

/-!
# What holds of the message tables in every reachable state

The committed rows of a room carry the numbers from 1 up to its counter, in the
order in which they were committed, and the outbox has one row for each message
row. The proof follows the open transactions: what each of them has written
would still fit the committed tables, and no two of them are in each other's
way.
-/

namespace ChatScale.MessageStoreInvariants

open ChatScale.ByteText ChatScale.ByteEncodings ChatScale.MessageContract
open ChatScale.MessageId ChatScale.MessageStoreModel ChatScale.MessageStoreStatements
open ChatScale.TransitionSystem

set_option autoImplicit false

section Numbering

/-- The numbers from 1 to `count`. -/
def firstSeqs (count : Nat) : List Int :=
  (List.range count).map fun (index : Nat) => (index : Int) + 1

theorem first_seqs_succ (count : Nat) :
    firstSeqs (count + 1) = firstSeqs count ++ [(count : Int) + 1] := by
  rw [firstSeqs, List.range_succ, List.map_append]
  rfl

theorem mem_first_seqs {count : Nat} {seq : Int} :
    seq ∈ firstSeqs count ↔ 1 ≤ seq ∧ seq ≤ count := by
  constructor
  · intro member
    obtain ⟨index, bound, rfl⟩ := List.mem_map.mp member
    have small := List.mem_range.mp bound
    omega
  · rintro ⟨lower, upper⟩
    refine List.mem_map.mpr ⟨(seq - 1).toNat, List.mem_range.mpr (by omega), by omega⟩

theorem first_seqs_nodup (count : Nat) : (firstSeqs count).Nodup := by
  refine List.Nodup.map ?_ List.nodup_range
  intro left right same
  simpa using same

end Numbering

/-- The sequence numbers of a room, in the order of the table. -/
def roomSeqs (messages : List MessageRow) (room : Bytes) : List Int :=
  (messages.filter fun row => row.roomID == room).map MessageRow.roomSeq

def messageKey (row : MessageRow) : Uuid × Bytes × Int := (row.messageID, row.roomID, row.roomSeq)

def outboxKey (row : OutboxRow) : Uuid × Bytes × Int := (row.messageID, row.roomID, row.roomSeq)

def clientKey (row : MessageRow) : Bytes × Bytes := (row.clientID, row.clientMessageID)

structure DatabaseSound (db : Database) : Prop where
  rooms : ∀ room, ∃ count : Nat, lastSeq db room = count ∧
    roomSeqs db.messages room = firstSeqs count
  outboxKeys : db.outbox.map outboxKey = db.messages.map messageKey
  ids : (db.messages.map MessageRow.messageID).Nodup
  clientKeys : (db.messages.map clientKey).Nodup

/-- What an open transaction has written still fits the committed tables. -/
structure TransactionSound (db : Database) (tx : Transaction) : Prop where
  counter : ∀ room seq, tx.counter = some (room, seq) → seq = lastSeq db room + 1
  message : ∀ row, tx.message = some row → tx.counter = some (row.roomID, row.roomSeq) ∧
    ∀ other ∈ db.messages, sameMessageKey row other = false ∧ sameClientKey row other = false
  outbox : ∀ row, tx.outbox = some row → ∃ message, tx.message = some message ∧
    outboxKey row = messageKey message

/-- Two open transactions that do not get in each other's way. -/
structure TransactionsApart (left right : Transaction) : Prop where
  counter : ∀ room seq other, left.counter = some (room, seq) →
    right.counter ≠ some (room, other)
  message : ∀ row other, left.message = some row → right.message = some other →
    sameMessageKey row other = false ∧ sameClientKey row other = false

/-- The writes of a call at each of its stages, as far as a later statement
depends on them. -/
def StageShape (input : Input) (call : Call) : Prop :=
  match call.stage with
  | .start => call.tx = none
  | .findPool => call.tx = none
  | .begin => call.tx = none
  | .findTransaction => ∀ tx, call.tx = some tx → tx = emptyTransaction
  | .commitRead _ => ∀ tx, call.tx = some tx → tx = emptyTransaction
  | .allocate => ∀ tx, call.tx = some tx → tx = emptyTransaction
  | .generate roomSeq => ∀ tx, call.tx = some tx →
      tx = ⟨some (input.request.roomID, roomSeq), none, none⟩
  | .insertMessage event _ => ∀ tx, call.tx = some tx →
      tx = ⟨some (event.roomID, event.roomSeq), none, none⟩
  | .insertOutbox event id => ∀ tx, call.tx = some tx → ∃ row,
      tx = ⟨some (event.roomID, event.roomSeq), some row, none⟩ ∧
        messageKey row = (id, event.roomID, event.roomSeq)
  | .commit event => ∀ tx, call.tx = some tx → ∃ row stored,
      tx = ⟨some (event.roomID, event.roomSeq), some row, some stored⟩ ∧
        outboxKey stored = messageKey row ∧ stored.published = false
  | .done _ => call.tx = none
  | _ => True

structure StoreSound {Caller : Type} (inputs : Caller → Input) (state : State Caller) :
    Prop where
  database : DatabaseSound state.db
  transactions : ∀ caller tx, (state.calls caller).tx = some tx → TransactionSound state.db tx
  apart : ∀ left right leftTx rightTx, left ≠ right → (state.calls left).tx = some leftTx →
    (state.calls right).tx = some rightTx → TransactionsApart leftTx rightTx
  shape : ∀ caller, StageShape (inputs caller) (state.calls caller)

section Tables

theorem same_message_key_comm (left right : MessageRow) :
    sameMessageKey left right = sameMessageKey right left := by
  unfold sameMessageKey
  rw [BEq.comm, @BEq.comm _ _ _ left.roomID, @BEq.comm _ _ _ left.roomSeq]

theorem same_client_key_comm (left right : MessageRow) :
    sameClientKey left right = sameClientKey right left := by
  unfold sameClientKey
  rw [BEq.comm, @BEq.comm _ _ _ left.clientMessageID]

theorem transactions_apart_symm {left right : Transaction}
    (apart : TransactionsApart left right) : TransactionsApart right left where
  counter := by
    intro room seq other rightHolds leftHolds
    exact apart.counter room other seq leftHolds rightHolds
  message := by
    intro row other rightWrites leftWrites
    rw [same_message_key_comm, same_client_key_comm]
    exact apart.message other row leftWrites rightWrites

theorem apply_empty (db : Database) : applyTransaction db emptyTransaction = db := by
  simp [applyTransaction, emptyTransaction]

theorem empty_database_sound : DatabaseSound emptyDatabase where
  rooms := fun _ => ⟨0, rfl, rfl⟩
  outboxKeys := rfl
  ids := List.nodup_nil
  clientKeys := List.nodup_nil

theorem last_seq_apply (db : Database) (room : Bytes) (seq : Int) (message : Option MessageRow)
    (outbox : Option OutboxRow) (other : Bytes) :
    lastSeq (applyTransaction db ⟨some (room, seq), message, outbox⟩) other =
      if other = room then seq else lastSeq db other := by
  by_cases same : other = room
  · simp [lastSeq, applyTransaction, same]
  · simp [lastSeq, applyTransaction, same]

theorem room_seqs_append (messages : List MessageRow) (row : MessageRow) (room : Bytes) :
    roomSeqs (messages ++ [row]) room =
      if row.roomID = room then roomSeqs messages room ++ [row.roomSeq]
      else roomSeqs messages room := by
  by_cases same : row.roomID = room
  · simp [roomSeqs, List.filter_append, same]
  · simp [roomSeqs, List.filter_append, same]

/-- A commit of a counter, its message and its outbox row keeps the tables
sound. -/
theorem commit_database {db : Database} (sound : DatabaseSound db) {row : MessageRow}
    {stored : OutboxRow} {tx : Transaction}
    (written : tx = ⟨some (row.roomID, row.roomSeq), some row, some stored⟩)
    (fits : TransactionSound db tx) (keys : outboxKey stored = messageKey row) :
    DatabaseSound (applyTransaction db tx) := by
  subst written
  have next := fits.counter _ _ rfl
  have fresh := (fits.message row rfl).2
  refine ⟨?_, ?_, ?_, ?_⟩
  · intro room
    obtain ⟨count, last, seqs⟩ := sound.rooms room
    rw [last_seq_apply, show (applyTransaction db _).messages = db.messages ++ [row] from rfl,
      room_seqs_append]
    by_cases same : row.roomID = room
    · subst same
      rw [if_pos rfl, if_pos rfl, seqs, next, last]
      exact ⟨count + 1, by push_cast; rfl, (first_seqs_succ count).symm⟩
    · rw [if_neg (Ne.symm same), if_neg same]
      exact ⟨count, last, seqs⟩
  · change (db.outbox ++ [stored]).map outboxKey = (db.messages ++ [row]).map messageKey
    rw [List.map_append, List.map_append, sound.outboxKeys, List.map_singleton,
      List.map_singleton, keys]
  · change ((db.messages ++ [row]).map MessageRow.messageID).Nodup
    rw [List.map_append, List.map_singleton, ← List.concat_eq_append, List.nodup_concat]
    refine ⟨?_, sound.ids⟩
    intro member
    rcases List.mem_map.mp member with ⟨other, listed, same⟩
    have clash := (fresh other listed).1
    simp [sameMessageKey, same] at clash
  · change ((db.messages ++ [row]).map clientKey).Nodup
    rw [List.map_append, List.map_singleton, ← List.concat_eq_append, List.nodup_concat]
    refine ⟨?_, sound.clientKeys⟩
    intro member
    rcases List.mem_map.mp member with ⟨other, listed, same⟩
    have clash := (fresh other listed).2
    simp only [clientKey, Prod.mk.injEq] at same
    simp [sameClientKey, same.1, same.2] at clash

/-- Another transaction still fits after a commit that is not in its way. -/
theorem commit_keeps_transaction {db : Database} {tx other : Transaction} {row : MessageRow}
    {stored : Option OutboxRow}
    (written : tx = ⟨some (row.roomID, row.roomSeq), some row, stored⟩)
    (fits : TransactionSound db other) (apart : TransactionsApart tx other) :
    TransactionSound (applyTransaction db tx) other := by
  subst written
  refine ⟨?_, ?_, fits.outbox⟩
  · intro room seq holds
    have different : room ≠ row.roomID := by
      rintro rfl
      exact apart.counter _ _ _ rfl holds
    rw [last_seq_apply, if_neg different]
    exact fits.counter room seq holds
  · intro message writes
    obtain ⟨counter, fresh⟩ := fits.message message writes
    refine ⟨counter, fun other listed => ?_⟩
    rcases List.mem_append.mp listed with old | new
    · exact fresh other old
    · obtain rfl : other = row := by simpa using new
      rw [same_message_key_comm, same_client_key_comm]
      exact apart.message other message rfl writes

end Tables

theorem initial_sound {Caller : Type} (inputs : Caller → Input) :
    StoreSound inputs (initial : State Caller) where
  database := empty_database_sound
  transactions := by rintro caller tx ⟨⟩
  apart := by rintro left right leftTx rightTx _ ⟨⟩
  shape := fun _ => rfl

section Steps

variable {Caller : Type} {inputs : Caller → Input} {state : State Caller} {caller : Caller}

/-- The transaction of an idempotent read has written nothing. -/
theorem commit_read_unchanged (sound : StoreSound inputs state) {event : Event}
    {tx : Transaction} (stage : (state.calls caller).stage = .commitRead event)
    (opened : (state.calls caller).tx = some tx) : applyTransaction state.db tx = state.db := by
  have shape := sound.shape caller
  unfold StageShape at shape
  rw [stage] at shape
  rw [shape tx opened, apply_empty]

variable [DecidableEq Caller]

/-- A step of one caller keeps the invariant when its new call fits the new
tables and the other transactions still do. -/
theorem store_sound_update (sound : StoreSound inputs state) {db : Database} {call : Call}
    (database : DatabaseSound db)
    (own : ∀ tx, call.tx = some tx → TransactionSound db tx ∧
      ∀ other otherTx, other ≠ caller → (state.calls other).tx = some otherTx →
        TransactionsApart tx otherTx)
    (others : ∀ other otherTx, other ≠ caller → (state.calls other).tx = some otherTx →
      TransactionSound db otherTx)
    (shape : StageShape (inputs caller) call) :
    StoreSound inputs ⟨db, Function.update state.calls caller call⟩ where
  database := database
  transactions := by
    intro other tx opened
    by_cases same : other = caller
    · subst same
      simp only [Function.update_self] at opened
      exact (own tx opened).1
    · simp only [Function.update_of_ne same] at opened
      exact others other tx same opened
  apart := by
    intro left right leftTx rightTx different leftOpen rightOpen
    by_cases leftSame : left = caller
    · subst leftSame
      simp only [Function.update_self] at leftOpen
      simp only [Function.update_of_ne (Ne.symm different)] at rightOpen
      exact (own leftTx leftOpen).2 right rightTx (Ne.symm different) rightOpen
    · simp only [Function.update_of_ne leftSame] at leftOpen
      by_cases rightSame : right = caller
      · subst rightSame
        simp only [Function.update_self] at rightOpen
        exact transactions_apart_symm ((own rightTx rightOpen).2 left leftTx leftSame leftOpen)
      · simp only [Function.update_of_ne rightSame] at rightOpen
        exact sound.apart left right leftTx rightTx different leftOpen rightOpen
  shape := by
    intro other
    by_cases same : other = caller
    · subst same
      simpa only [Function.update_self] using shape
    · simpa only [Function.update_of_ne same] using sound.shape other

/-- A step that writes nothing and at most gives its transaction up. -/
theorem store_sound_quiet (sound : StoreSound inputs state) {call : Call}
    (kept : call.tx = none ∨ call.tx = (state.calls caller).tx)
    (shape : StageShape (inputs caller) call) :
    StoreSound inputs ⟨state.db, Function.update state.calls caller call⟩ := by
  refine store_sound_update sound sound.database ?_ ?_ shape
  · intro tx opened
    rcases kept with gone | same
    · rw [gone] at opened
      cases opened
    · rw [same] at opened
      refine ⟨sound.transactions caller tx opened, fun other otherTx different otherOpen => ?_⟩
      exact sound.apart caller other tx otherTx (Ne.symm different) opened otherOpen
  · intro other otherTx _ otherOpen
    exact sound.transactions other otherTx otherOpen

theorem store_sound_insert_outbox (sound : StoreSound inputs state) {tx : Transaction}
    {event : Event} {row : MessageRow} {stored : OutboxRow}
    (opened : (state.calls caller).tx = some tx)
    (written : tx = ⟨some (event.roomID, event.roomSeq), some row, none⟩)
    (keys : outboxKey stored = messageKey row) (pending : stored.published = false) :
    StoreSound inputs ⟨state.db, Function.update state.calls caller
      ⟨.commit event, some { tx with outbox := some stored }⟩⟩ := by
  have fits := sound.transactions caller tx opened
  have apart := sound.apart caller
  subst written
  refine store_sound_update sound sound.database ?_ ?_ ?_
  · rintro _ ⟨⟩
    refine ⟨⟨fits.counter, fits.message, ?_⟩, fun other otherTx different otherOpen => ?_⟩
    · rintro outbox ⟨⟩
      exact ⟨row, rfl, keys⟩
    · have before := apart other _ otherTx (Ne.symm different) opened otherOpen
      exact ⟨before.counter, before.message⟩
  · intro other otherTx _ otherOpen
    exact sound.transactions other otherTx otherOpen
  · rintro tx ⟨⟩
    exact ⟨row, stored, rfl, keys, pending⟩

theorem store_sound_begin (sound : StoreSound inputs state) :
    StoreSound inputs ⟨state.db, Function.update state.calls caller
      ⟨.findTransaction, some emptyTransaction⟩⟩ := by
  refine store_sound_update sound sound.database ?_
    (fun other otherTx _ live => sound.transactions other otherTx live) fun tx same => ?_
  · rintro tx ⟨⟩
    exact ⟨⟨by rintro _ _ ⟨⟩, by rintro _ ⟨⟩, by rintro _ ⟨⟩⟩,
      fun _ _ _ _ => ⟨by rintro _ _ _ ⟨⟩, by rintro _ _ ⟨⟩⟩⟩
  · exact (Option.some.inj same).symm

/-- A commit publishes the writes of the transaction and ends it. -/
theorem store_sound_commit (sound : StoreSound inputs state) {tx : Transaction} {event : Event}
    {row : MessageRow} {stored : OutboxRow} {call : Call}
    (opened : (state.calls caller).tx = some tx)
    (written : tx = ⟨some (event.roomID, event.roomSeq), some row, some stored⟩)
    (keys : outboxKey stored = messageKey row) (ended : call.tx = none)
    (shape : StageShape (inputs caller) call) :
    StoreSound inputs ⟨applyTransaction state.db tx, Function.update state.calls caller call⟩ := by
  have fits := sound.transactions caller tx opened
  have counter : tx.counter = some (row.roomID, row.roomSeq) :=
    (fits.message row (by rw [written])).1
  have own : tx = ⟨some (row.roomID, row.roomSeq), some row, some stored⟩ := by
    rw [← counter, written]
  refine store_sound_update sound (commit_database sound.database own fits keys) ?_ ?_ shape
  · intro other live
    rw [ended] at live
    cases live
  · intro other otherTx different otherOpen
    exact commit_keeps_transaction own (sound.transactions other otherTx otherOpen)
      (sound.apart caller other tx otherTx (Ne.symm different) opened otherOpen)

variable [Fintype Caller]

theorem not_held {calls : Caller → Call} {clash : Transaction → Bool}
    (free : heldByOther calls caller clash = false) {other : Caller} {tx : Transaction}
    (different : other ≠ caller) (opened : (calls other).tx = some tx) : clash tx = false := by
  rw [heldByOther, decide_eq_false_iff_not, not_exists] at free
  have passes := free other
  rw [not_and, opened] at passes
  simpa using passes different

theorem shape_dropped (input : Input) (call : Call) :
    StageShape input { call with tx := none } := by
  unfold StageShape
  cases stage : call.stage <;> simp

theorem store_sound_allocate (sound : StoreSound inputs state) {tx : Transaction}
    (opened : (state.calls caller).tx = some tx) (empty : tx = emptyTransaction)
    (free : heldByOther state.calls caller (fun other =>
      other.counter.any fun row => row.1 == (inputs caller).request.roomID) = false) :
    StoreSound inputs ⟨state.db, Function.update state.calls caller
      ⟨.generate (lastSeq state.db (inputs caller).request.roomID + 1),
        some { tx with counter := some ((inputs caller).request.roomID,
          lastSeq state.db (inputs caller).request.roomID + 1) }⟩⟩ := by
  subst empty
  refine store_sound_update sound sound.database ?_ ?_ ?_
  · rintro _ ⟨⟩
    refine ⟨⟨?_, ?_, ?_⟩, fun other otherTx different otherOpen => ⟨?_, ?_⟩⟩
    · rintro room seq ⟨⟩
      rfl
    · rintro row ⟨⟩
    · rintro row ⟨⟩
    · rintro room seq taken ⟨⟩ holds
      have clash := not_held free different otherOpen
      simp [holds] at clash
    · rintro row other ⟨⟩
  · intro other otherTx _ otherOpen
    exact sound.transactions other otherTx otherOpen
  · rintro tx ⟨⟩
    rfl

theorem store_sound_insert_message (sound : StoreSound inputs state) {tx : Transaction}
    {event : Event} {id : Uuid} {row : MessageRow}
    (opened : (state.calls caller).tx = some tx)
    (counter : tx = ⟨some (event.roomID, event.roomSeq), none, none⟩)
    (key : messageKey row = (id, event.roomID, event.roomSeq))
    (free : heldByOther state.calls caller (fun other => other.message.any fun its =>
      sameMessageKey row its || sameClientKey row its) = false)
    (fresh : ∀ other ∈ state.db.messages,
      sameMessageKey row other = false ∧ sameClientKey row other = false) :
    StoreSound inputs ⟨state.db, Function.update state.calls caller
      ⟨.insertOutbox event id, some { tx with message := some row }⟩⟩ := by
  have fits := sound.transactions caller tx opened
  have apart := sound.apart caller
  subst counter
  simp only [messageKey, Prod.mk.injEq] at key
  refine store_sound_update sound sound.database ?_ ?_ ?_
  · rintro _ ⟨⟩
    refine ⟨⟨fits.counter, ?_, ?_⟩, fun other otherTx different otherOpen => ⟨?_, ?_⟩⟩
    · rintro written ⟨⟩
      exact ⟨by rw [key.2.1, key.2.2], fresh⟩
    · rintro stored ⟨⟩
    · exact (apart other _ otherTx (Ne.symm different) opened otherOpen).counter
    · rintro written its ⟨⟩ writes
      have clash := not_held free different otherOpen
      simpa [writes] using clash
  · intro other otherTx _ otherOpen
    exact sound.transactions other otherTx otherOpen
  · rintro tx ⟨⟩
    exact ⟨row, rfl, by simp [messageKey, key]⟩

theorem ran_sound {columns : Columns} (sound : StoreSound inputs state) {random : Uuid}
    {clock : ClockReading} {effect : Database × Call}
    (ran : Ran columns (inputs caller) state.db (heldByOther state.calls caller)
      (state.calls caller) random clock effect) :
    StoreSound inputs ⟨effect.1, Function.update state.calls caller effect.2⟩ := by
  have shape := sound.shape caller
  unfold StageShape at shape
  cases ran with
  | failed => exact store_sound_quiet sound (.inr rfl) trivial
  | started stage =>
      rw [stage] at shape
      exact store_sound_quiet sound (.inr rfl) shape
  | poolRead => exact store_sound_quiet sound (.inr rfl) trivial
  | poolMissed stage =>
      rw [stage] at shape
      exact store_sound_quiet sound (.inr rfl) shape
  | began => exact store_sound_begin sound
  | transactionRead stage =>
      rw [stage] at shape
      exact store_sound_quiet sound (.inr rfl) shape
  | transactionMissed stage =>
      rw [stage] at shape
      exact store_sound_quiet sound (.inr rfl) shape
  | committedRead stage opened =>
      rw [commit_read_unchanged sound stage opened]
      exact store_sound_quiet sound (.inl rfl) rfl
  | allocated stage opened _ free =>
      rw [stage] at shape
      exact store_sound_allocate sound opened (shape _ opened) free
  | generated stage =>
      rw [stage] at shape
      exact store_sound_quiet sound (.inr rfl) shape
  | insertedMessage stage opened _ free fresh =>
      rw [stage] at shape
      exact store_sound_insert_message sound opened (shape _ opened) rfl free fresh
  | conflicted => exact store_sound_quiet sound (.inr rfl) trivial
  | rolledBack => exact store_sound_quiet sound (.inl rfl) trivial
  | conflictRead => exact store_sound_quiet sound (.inr rfl) trivial
  | insertedOutbox stage opened =>
      rw [stage] at shape
      obtain ⟨row, written, key⟩ := shape _ opened
      exact store_sound_insert_outbox sound opened written (by rw [key]; rfl) rfl
  | committed stage opened =>
      rw [stage] at shape
      obtain ⟨row, stored, written, keys, _⟩ := shape _ opened
      exact store_sound_commit sound opened written keys rfl rfl
  | closed => exact store_sound_quiet sound (.inl rfl) rfl

/-- Every move of every caller keeps the invariant. -/
theorem step_sound {columns : Columns} (sound : StoreSound inputs state) {action : Action Caller}
    {after : State Caller} (stepped : step columns inputs state action = some after) :
    StoreSound inputs after := by
  obtain ⟨caller, move⟩ := action
  obtain ⟨effect, moved, rfl⟩ := Option.map_eq_some_iff.mp stepped
  cases move_cases moved with
  | run ran => exact ran_sound sound ran
  | failed => exact store_sound_quiet sound (.inr rfl) trivial
  | ignored => exact store_sound_quiet sound (.inr rfl) trivial
  | aborted => exact store_sound_quiet sound (.inl rfl) (shape_dropped _ _)
  | lostCommit stage opened =>
      have shape := sound.shape caller
      unfold StageShape at shape
      rw [stage] at shape
      obtain ⟨row, stored, written, keys, _⟩ := shape _ opened
      exact store_sound_commit sound opened written keys rfl trivial

/-- Only a commit changes the tables. -/
theorem move_database {columns : Columns} {move : Move} {effect : Database × Call}
    (sound : StoreSound inputs state)
    (moved : moveEffect columns (inputs caller) state.db (heldByOther state.calls caller)
      (state.calls caller) move = some effect) :
    effect.1 = state.db ∨ ∃ event tx, (state.calls caller).stage = .commit event ∧
      (state.calls caller).tx = some tx ∧ effect.1 = applyTransaction state.db tx ∧
      (effect.2.stage = .done (.accepted .inserted event) ∨
        effect.2.stage = .closing (.failed .commit)) := by
  cases move_cases moved with
  | run ran =>
      cases ran with
      | committedRead stage opened => exact .inl (commit_read_unchanged sound stage opened)
      | committed stage opened => exact .inr ⟨_, _, stage, opened, rfl, .inl rfl⟩
      | _ => exact .inl rfl
  | lostCommit stage opened => exact .inr ⟨_, _, stage, opened, rfl, .inr rfl⟩
  | _ => exact .inl rfl

theorem outbox_ids {db : Database} (sound : DatabaseSound db) :
    (db.outbox.map OutboxRow.messageID).Nodup := by
  have first := congrArg (List.map Prod.fst) sound.outboxKeys
  rw [List.map_map, List.map_map] at first
  have sameIds : db.outbox.map OutboxRow.messageID = db.messages.map MessageRow.messageID := first
  exact sameIds ▸ sound.ids

/-- The numbers of the outbox rows of a room are those of its messages. -/
theorem outbox_room_seqs {db : Database} (sound : DatabaseSound db) (room : Bytes) :
    (db.outbox.filter fun row => row.roomID == room).map OutboxRow.roomSeq =
      roomSeqs db.messages room := by
  have keys := congrArg (fun list : List (Uuid × Bytes × Int) =>
    (list.filter fun key => key.2.1 == room).map fun key => key.2.2) sound.outboxKeys
  simp only [List.filter_map, List.map_map] at keys
  exact keys

theorem outbox_row_unique {db : Database} (sound : DatabaseSound db) {left right : OutboxRow}
    (leftListed : left ∈ db.outbox) (rightListed : right ∈ db.outbox)
    (sameRoom : left.roomID = right.roomID) (sameSeq : left.roomSeq = right.roomSeq) :
    left = right := by
  obtain ⟨count, _, seqs⟩ := sound.rooms right.roomID
  have distinct := first_seqs_nodup count
  rw [← seqs, ← outbox_room_seqs sound] at distinct
  apply List.inj_on_of_nodup_map distinct _ _ sameSeq
  · exact List.mem_filter.mpr ⟨leftListed, beq_iff_eq.mpr sameRoom⟩
  · exact List.mem_filter.mpr ⟨rightListed, beq_self_eq_true _⟩

/-- The numbers of a room's outbox rows do not exceed its counter. -/
theorem outbox_seq_le {db : Database} (sound : DatabaseSound db) {row : OutboxRow}
    (listed : row ∈ db.outbox) : 1 ≤ row.roomSeq ∧ row.roomSeq ≤ lastSeq db row.roomID := by
  obtain ⟨count, last, seqs⟩ := sound.rooms row.roomID
  have member : row.roomSeq ∈ roomSeqs db.messages row.roomID := by
    rw [← outbox_room_seqs sound]
    exact List.mem_map_of_mem (List.mem_filter.mpr ⟨listed, beq_self_eq_true _⟩)
  rw [seqs, mem_first_seqs] at member
  rw [last]
  exact member

theorem outbox_row_of_seq {db : Database} (sound : DatabaseSound db) {room : Bytes} {seq : Int}
    (lower : 1 ≤ seq) (upper : seq ≤ lastSeq db room) :
    ∃ row ∈ db.outbox, row.roomID = room ∧ row.roomSeq = seq := by
  obtain ⟨count, last, seqs⟩ := sound.rooms room
  have member : seq ∈ (db.outbox.filter fun row => row.roomID == room).map OutboxRow.roomSeq := by
    rw [outbox_room_seqs sound, seqs, mem_first_seqs]
    exact ⟨lower, last ▸ upper⟩
  obtain ⟨row, kept, same⟩ := List.mem_map.mp member
  obtain ⟨listed, sameRoom⟩ := List.mem_filter.mp kept
  exact ⟨row, listed, eq_of_beq sameRoom, same⟩

/-- The outbox grows by pending rows at the end of their room. -/
theorem step_outbox {columns : Columns} (sound : StoreSound inputs state)
    {action : Action Caller} {after : State Caller}
    (stepped : step columns inputs state action = some after) :
    after.db.outbox = state.db.outbox ∨ ∃ row, after.db.outbox = state.db.outbox ++ [row] ∧
      row.published = false ∧
      ∀ old ∈ state.db.outbox, old.roomID = row.roomID → old.roomSeq < row.roomSeq := by
  obtain ⟨effect, moved, rfl⟩ := Option.map_eq_some_iff.mp stepped
  rcases move_database sound moved with unchanged | ⟨event, tx, stage, opened, applied, _⟩
  · exact .inl (by rw [unchanged])
  · have shape := sound.shape action.caller
    unfold StageShape at shape
    rw [stage] at shape
    obtain ⟨row, stored, written, keys, pending⟩ := shape tx opened
    have next := (sound.transactions action.caller tx opened).counter event.roomID event.roomSeq
      (by rw [written])
    have counter := ((sound.transactions action.caller tx opened).message row (by rw [written])).1
    simp only [written, Option.some.injEq, Prod.mk.injEq] at counter
    simp only [messageKey, outboxKey, Prod.mk.injEq] at keys
    refine .inr ⟨stored, by rw [applied, written]; rfl, pending, fun old listed sameRoom => ?_⟩
    have bound := (outbox_seq_le sound.database listed).2
    rw [sameRoom, keys.2.1, ← counter.1] at bound
    rw [keys.2.2, ← counter.2, next]
    omega

theorem reachable_sound {columns : Columns} {allowed : State Caller → Action Caller → Prop}
    (reached : Reachable (step columns inputs) allowed initial state) :
    StoreSound inputs state :=
  reachable_invariant (StoreSound inputs) (initial_sound inputs)
    (fun _ _ _ sound _ stepped => step_sound sound stepped) reached

end Steps

section Results

variable {Caller : Type} [Fintype Caller] [DecidableEq Caller]

/-- The numbers of a room are 1 up to its counter, each once, and every message
row has its outbox row. -/
theorem rooms_numbered_and_outbox_complete (columns : Columns) (inputs : Caller → Input)
    (state : State Caller) (reached : Reachable (step columns inputs) anyStep initial state) :
    (∀ room, (roomSeqs state.db.messages room).Nodup ∧
      (∀ seq, seq ∈ roomSeqs state.db.messages room ↔ 1 ≤ seq ∧ seq ≤ lastSeq state.db room) ∧
      (state.db.counters room = none → roomSeqs state.db.messages room = [])) ∧
    (state.db.messages.map MessageRow.messageID).Nodup ∧
    (state.db.outbox.map OutboxRow.messageID).Nodup ∧
    ∀ key, (∃ row ∈ state.db.messages, messageKey row = key) ↔
      ∃ row ∈ state.db.outbox, outboxKey row = key := by
  have sound := (reachable_sound reached).database
  refine ⟨fun room => ?_, sound.ids, outbox_ids sound, fun key => ?_⟩
  · obtain ⟨count, last, seqs⟩ := sound.rooms room
    refine ⟨seqs ▸ first_seqs_nodup count, fun seq => ?_, fun absent => ?_⟩
    · rw [seqs, last, mem_first_seqs]
    · have zero : count = 0 := by
        rw [lastSeq, absent, Option.getD_none] at last
        omega
      rw [seqs, zero]
      rfl
  · rw [← List.mem_map, ← List.mem_map, sound.outboxKeys]

def firstOfTwo : Fin 2 := 0

def secondOfTwo : Fin 2 := 1

/-- Two clients that post into one room. -/
def twoClients (caller : Fin 2) : Input where
  clientID := if caller = firstOfTwo then ascii "ann" else ascii "bob"
  request := ⟨ascii "send", 1, ascii "m-1", ascii "lobby", ascii "\"hi\""⟩

def plainColumns : Columns := ⟨some, CivilTime.Time.stamp⟩

def noon : ClockReading := ⟨CivilTime.sampleTime, by decide +kernel⟩

def randomBytes (byte : UInt8) : Uuid := ⟨List.replicate 16 byte, by simp⟩

def runOf {Caller : Type} (caller : Caller) (byte : UInt8) (count : Nat) : List (Action Caller) :=
  List.replicate count ⟨caller, .run (randomBytes byte) noon⟩

/-- The two calls take turns up to the counter, then one after the other. -/
def twoAccepts : List (Action (Fin 2)) :=
  runOf firstOfTwo 1 4 ++ runOf secondOfTwo 2 4 ++ runOf firstOfTwo 1 5 ++ runOf secondOfTwo 2 5

theorem two_accepts_numbered :
    ∃ state, Reachable (step plainColumns twoClients) anyStep initial state ∧
      state.db.messages.length = 2 ∧ lastSeq state.db (ascii "lobby") = 2 ∧
      ∀ seq, seq ∈ roomSeqs state.db.messages (ascii "lobby") ↔ 1 ≤ seq ∧ seq ≤ 2 := by
  have ran : (runActions (step plainColumns twoClients) anyStep initial twoAccepts).map
      (fun state => (state.db.messages.length, lastSeq state.db (ascii "lobby"))) =
        some (2, 2) := by decide +kernel
  obtain ⟨state, reached, counts⟩ := Option.map_eq_some_iff.mp ran
  have reachable := reachable_run_actions reachable_start reached
  simp only [Prod.mk.injEq] at counts
  refine ⟨state, reachable, counts.1, counts.2, fun seq => ?_⟩
  rw [((rooms_numbered_and_outbox_complete plainColumns twoClients state reachable).1
    (ascii "lobby")).2.1 seq, counts.2]

end Results

end ChatScale.MessageStoreInvariants
