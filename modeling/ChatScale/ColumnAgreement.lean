import ChatScale.DeliveryPipeline
import ChatScale.JsonbStrings
import ChatScale.MessageStoreProgress

/-!
# What the columns refuse of a valid request

`Validate` and the schema check a request independently of each other. Here one
call of `Accept` runs alone, nothing fails by itself, and every row it writes has
to pass the CHECK constraints of its table. The constraints never fail: what is
not blank for `Validate` has a character that `btrim` keeps, and the rows number
from 1. The types of the columns do refuse what `Validate` lets through, zero
bytes and invalid UTF-8 in a text and some strings inside a payload, and so do
the limits of the server, on a number inside a payload or on the key of an index.
-/

namespace ChatScale.ColumnAgreement

open ChatScale.ByteText ChatScale.ByteEncodings ChatScale.CivilTime
open ChatScale.TransitionSystem
open ChatScale.JsonLiterals ChatScale.JsonTokens ChatScale.JsonText ChatScale.JsonValue
open ChatScale.JsonFields ChatScale.JsonbStrings ChatScale.MessageContract ChatScale.MessageId
open ChatScale.MessageStoreModel ChatScale.MessageStoreInvariants
open ChatScale.MessageStoreIdempotency ChatScale.MessageStoreProgress
open ChatScale.DeliveryPipeline (KeepsJson jsonColumns json_columns_keep repeatedKey)

set_option autoImplicit false

section Schema

/-- `btrim`, which strips spaces only. -/
def btrim (text : Bytes) : Bytes :=
  (text.dropWhile fun byte => byte == 32).rdropWhile fun byte => byte == 32

/-- `length(btrim(text)) > 0`. -/
def hasText (text : Bytes) : Bool := !(btrim text).isEmpty

def counterChecks (row : Bytes × Int) : Bool := hasText row.1 && decide (0 ≤ row.2)

def messageChecks (row : MessageRow) : Bool :=
  hasText row.clientID && hasText row.clientMessageID && decide (0 < row.roomSeq)

/-- `event->>'version'` of an object, where it is a number or a string. -/
def versionText (event : Bytes) : Option Bytes :=
  match parse event with
  | some (.object members) =>
      match lastMember members (ascii "version") with
      | some (.number literal) => some literal.text
      | some (.string literal) => some literal.value
      | _ => none
  | _ => none

def outboxChecks (row : OutboxRow) : Bool := versionText row.event == some (ascii "1")

/-- The CHECK constraints of `room_counters`, `messages` and `message_outbox`. -/
def transactionChecks (tx : Transaction) : Bool :=
  tx.counter.all counterChecks && tx.message.all messageChecks && tx.outbox.all outboxChecks

/-- The limits of the server that the schema does not name: the ranges, the depth
and the sizes of a `jsonb` value, and the keys that fit an entry of an index. -/
structure Limits where
  json : Bytes → Bool
  /-- The primary key of `room_counters`. -/
  room : Bytes → Bool
  /-- A room and a number, the key of three indexes. -/
  place : Bytes → Int → Bool
  /-- The key of `messages_client_idempotency_unique`. -/
  client : Bytes → Bytes → Bool

/-- The rows of a transaction fit the indexes. An id has a fixed size. -/
def transactionIndexed (limits : Limits) (tx : Transaction) : Bool :=
  tx.counter.all (fun row => limits.room row.1) &&
    tx.message.all (fun row => limits.place row.roomID row.roomSeq &&
      limits.client row.clientID row.clientMessageID) &&
    tx.outbox.all fun row => limits.place row.roomID row.roomSeq

def transactionPasses (limits : Limits) (tx : Transaction) : Bool :=
  transactionChecks tx && transactionIndexed limits tx

/-- What is assumed of a `jsonb` column: it keeps the value, and within the
limits of the server it refuses a text only for the characters of its strings. -/
structure JsonbColumn (columns : Columns) (limits : Limits) : Prop where
  keeps : KeepsJson columns
  takes : ∀ text, (columns.jsonb text).isSome = (isStorable text && limits.json text)

end Schema

section Accept

variable (columns : Columns) (limits : Limits) (input : Input) (random : Uuid)
  (clock : ClockReading)

/-- The next statement of a call that has the database for itself. It fails if a
row it has written does not pass. -/
def checkedStatement (db : Database) (call : Call) : Option (Database × Call) :=
  match runStatement columns input db (fun _ => false) call random clock with
  | none => none
  | some effect =>
      if effect.2.tx.all (transactionPasses limits) then some effect
      else (failStatement call).map fun call => (db, call)

def acceptFrom : Nat → Database × Call → Database × Call
  | 0, reached => reached
  | fuel + 1, reached =>
      match checkedStatement columns limits input random clock reached.1 reached.2 with
      | none => reached
      | some next => acceptFrom fuel next

/-- The tables after the call, and the call. No call has more than twelve
statements. -/
def accept (db : Database) : Database × Call :=
  acceptFrom columns limits input random clock 12 (db, newCall)

variable {columns limits input random clock}

theorem accept_step {fuel : Nat} {db next : Database} {call after : Call}
    (ran : runStatement columns input db (fun _ => false) call random clock = some (next, after))
    (passes : after.tx.all (transactionPasses limits) = true) :
    acceptFrom columns limits input random clock (fuel + 1) (db, call) =
      acceptFrom columns limits input random clock fuel (next, after) := by
  simp only [acceptFrom, checkedStatement, ran, passes, if_true]

theorem accept_returned (fuel : Nat) (db : Database) (outcome : Outcome) :
    acceptFrom columns limits input random clock fuel (db, ⟨.done outcome, none⟩) =
      (db, ⟨.done outcome, none⟩) := by
  cases fuel <;> rfl

theorem accept_closing (fuel : Nat) (db : Database) (outcome : Outcome)
    (tx : Option Transaction) :
    acceptFrom columns limits input random clock (fuel + 1) (db, ⟨.closing outcome, tx⟩) =
      (db, ⟨.done outcome, none⟩) := by
  have ran : runStatement columns input db (fun _ => false) ⟨.closing outcome, tx⟩ random clock =
      some (db, ⟨.done outcome, none⟩) := by
    cases tx <;> rfl
  rw [accept_step ran rfl, accept_returned]

/-- A statement whose rows do not pass fails, and nothing is kept. -/
theorem statement_refused (fuel : Nat) {db next : Database} {call after : Call}
    {failure : Failure}
    (ran : runStatement columns input db (fun _ => false) call random clock = some (next, after))
    (refused : after.tx.all (transactionPasses limits) = false)
    (failing : failStatement call = some (call.fail failure)) :
    acceptFrom columns limits input random clock (fuel + 2) (db, call) =
      (db, ⟨.done (.failed failure), none⟩) := by
  have failed : acceptFrom columns limits input random clock (fuel + 2) (db, call) =
      acceptFrom columns limits input random clock (fuel + 1)
        (db, ⟨.closing (.failed failure), call.tx⟩) := by
    rw [acceptFrom, checkedStatement, ran]
    simp only [refused, Bool.false_eq_true, if_false, failing, Option.map_some]
    rfl
  rw [failed, accept_closing]

end Accept

section Checks

theorem has_text_of_not_blank {text : Bytes} (given : isBlank text = false) :
    hasText text = true := by
  cases trimmed : (btrim text).isEmpty with
  | false => rw [hasText, trimmed]; rfl
  | true =>
      -- only spaces are left, and `TrimSpace` strips these as well
      have spaces : ∀ byte ∈ text, byte = 32 := by
        rw [List.isEmpty_iff, btrim, List.rdropWhile_eq_nil_iff] at trimmed
        have dropped : text.dropWhile (fun byte => byte == 32) = [] := by
          cases left : text.dropWhile (fun byte => byte == 32) with
          | nil => rfl
          | cons first others =>
              have space := trimmed first (by rw [left]; exact List.mem_cons_self)
              have kept : (text.dropWhile fun byte => byte == 32) ≠ [] := by
                rw [left]
                exact List.cons_ne_nil _ _
              have head := List.head_dropWhile_not (fun byte => byte == 32) kept
              simp only [left, List.head_cons, space] at head
              cases head
        intro byte listed
        simpa using List.dropWhile_eq_nil_iff.mp dropped byte listed
      have blank : ∀ rune ∈ runes text, rune.isSpace = true := by
        clear given trimmed
        induction text with
        | nil => simp [runes]
        | cons byte text induction =>
            have same := spaces byte List.mem_cons_self
            subst same
            have others := induction fun other listed =>
              spaces other (List.mem_cons_of_mem _ listed)
            intro rune listed
            rw [runes_ascii_append (by decide), List.mem_cons] at listed
            rcases listed with rfl | later
            · rfl
            · exact others rune later
      rw [isBlank, trimSpace, List.dropWhile_eq_nil_iff.mpr blank] at given
      cases given

theorem zero_free {text : Bytes} (accepted : isText text = true) : 0 ∉ text := by
  rw [isText, Bool.and_eq_true, Bool.not_eq_true'] at accepted
  simpa using accepted.2

theorem id_zero_free (id : Uuid) : 0 ∉ id.text := by
  intro listed
  have plain := List.all_eq_true.mp (text_plain id) 0 listed
  cases plain

/-- The event of a storable payload and texts is storable. -/
theorem event_storable {event : Event} {id : Uuid} (named : event.messageID = id.text)
    (client : isText event.clientMessageID = true) (room : isText event.roomID = true)
    (encodes : event.createdAt.encodes = true) (payload : isStorable event.payload = true) :
    ∃ serialized, event.marshal = some serialized ∧ isStorable serialized = true := by
  rw [isStorable, Option.any_eq_true] at payload
  obtain ⟨tree, parsed, storable⟩ := payload
  refine ⟨render (structTree (eventFields event (htmlEscaped tree))), ?_, ?_⟩
  · rw [Event.marshal, if_pos encodes, encodeRaw, parsed]
    rfl
  · apply render_storable
    apply struct_storable
    · have names : ∀ name ∈ eventFieldNames, (0 : UInt8) ∉ ascii name := by decide +kernel
      intro field listed
      apply names field.1
      exact (List.mem_map_of_mem listed : field.1 ∈ (eventFields event (htmlEscaped tree)).map
        Prod.fst)
    · simp only [eventFields, List.forall_mem_cons, List.not_mem_nil, false_imp_iff, implies_true,
        and_true]
      refine ⟨rfl, ?_, ?_, ?_, rfl, ?_, tree_html_escaped storable⟩
      · rw [encodeString, treeStorable, named]
        exact of_bytes_storable (id_zero_free id)
      · rw [encodeString, treeStorable]
        exact of_bytes_storable (zero_free client)
      · rw [encodeString, treeStorable]
        exact of_bytes_storable (zero_free room)
      · rw [encodeTime, treeStorable]
        exact plain_literal_storable _

/-- A stored event has the version as a plain number. -/
theorem stored_version {columns : Columns} (keeps : KeepsJson columns) {event : Event}
    {serialized stored : Bytes} (versioned : event.version = version)
    (marshalled : event.marshal = some serialized) (kept : columns.jsonb serialized = some stored) :
    versionText stored = some (ascii "1") := by
  obtain ⟨_, payload, _, rfl⟩ := marshal_some marshalled
  obtain ⟨tree, storedTree, parsed, storedParsed, same⟩ := keeps _ stored kept
  cases (parse_render _).symm.trans parsed
  have member := struct_member
    (rfl : (eventFields event (htmlEscaped payload)).map Prod.fst = eventFieldNames)
    event_names_valid event_names_distinct 0 rfl
  cases same with
  | object _ members distinct keys each =>
      have present := keys (ascii "version")
      rw [member] at present
      obtain ⟨after, found⟩ := Option.isSome_iff_exists.mp present
      have number := each _ _ _ member found
      rw [versionText, storedParsed]
      simp only [found]
      cases number with
      | number literal stored value plain =>
          have spelled : formatInt event.version = ascii "1" := by
            rw [versioned]
            decide +kernel
          have integer : isPlainInteger (formatInt event.version) = true := by
            rw [spelled]
            decide +kernel
          exact congrArg some ((plain integer).trans spelled)

end Checks

section Phases

variable {columns : Columns} {limits : Limits} {input : Input} {random : Uuid}
  {clock : ClockReading} {db : Database}

theorem accept_started (valid : ValidInput input) :
    accept columns limits input random clock db =
      acceptFrom columns limits input random clock 11 (db, ⟨.findPool, none⟩) := by
  apply accept_step
  · simp [runStatement, newCall, startCall, valid.1, valid.2, Call.goto]
  · rfl

theorem find_pool_refused (fuel : Nat)
    (texts : (isText input.clientID && isText input.request.clientMessageID) = false) :
    acceptFrom columns limits input random clock (fuel + 2) (db, ⟨.findPool, none⟩) =
      (db, ⟨.done (.failed .findAccepted), none⟩) := by
  have ran : runStatement columns input db (fun _ => false) ⟨.findPool, none⟩ random clock =
      some (db, ⟨.closing (.failed .findAccepted), none⟩) := by
    simp [runStatement, findPool, texts, Call.fail, Call.goto]
  rw [accept_step ran rfl, accept_closing]

theorem find_pool_found (fuel : Nat) {event : Event}
    (texts : (isText input.clientID && isText input.request.clientMessageID) = true)
    (found : findEvent db input.clientID input.request.clientMessageID = some event) :
    acceptFrom columns limits input random clock (fuel + 2) (db, ⟨.findPool, none⟩) =
      (db, ⟨.done (.accepted .poolRead event), none⟩) := by
  have ran : runStatement columns input db (fun _ => false) ⟨.findPool, none⟩ random clock =
      some (db, ⟨.closing (.accepted .poolRead event), none⟩) := by
    simp [runStatement, findPool, texts, found, Call.goto]
  rw [accept_step ran rfl, accept_closing]

theorem find_pool_missed (fuel : Nat)
    (texts : (isText input.clientID && isText input.request.clientMessageID) = true)
    (absent : findEvent db input.clientID input.request.clientMessageID = none) :
    acceptFrom columns limits input random clock (fuel + 3) (db, ⟨.findPool, none⟩) =
      acceptFrom columns limits input random clock fuel
        (db, ⟨.allocate, some emptyTransaction⟩) := by
  have missed : runStatement columns input db (fun _ => false) ⟨.findPool, none⟩ random clock =
      some (db, ⟨.begin, none⟩) := by
    simp [runStatement, findPool, texts, absent, Call.goto]
  have again : runStatement columns input db (fun _ => false)
      ⟨.findTransaction, some emptyTransaction⟩ random clock =
        some (db, ⟨.allocate, some emptyTransaction⟩) := by
    simp [runStatement, findInTransaction, absent, Call.goto]
  have began : runStatement columns input db (fun _ => false) ⟨.begin, none⟩ random clock =
      some (db, ⟨.findTransaction, some emptyTransaction⟩) := rfl
  rw [accept_step missed rfl, accept_step began rfl, accept_step again rfl]

/-- The transaction once it has its number. -/
def numbered (input : Input) (roomSeq : Int) : Transaction :=
  ⟨some (input.request.roomID, roomSeq), none, none⟩

theorem allocate_runs (text : isText input.request.roomID = true)
    (bound : lastSeq db input.request.roomID + 1 ≤ maxInt64) :
    runStatement columns input db (fun _ => false) ⟨.allocate, some emptyTransaction⟩ random
      clock = some (db, ⟨.generate (lastSeq db input.request.roomID + 1),
        some (numbered input (lastSeq db input.request.roomID + 1))⟩) := by
  simp [runStatement, allocate, text, Int.not_lt.mpr bound, numbered, emptyTransaction]

theorem allocate_refused (fuel : Nat)
    (refused : ¬(isText input.request.roomID = true ∧
      lastSeq db input.request.roomID + 1 ≤ maxInt64 ∧ limits.room input.request.roomID = true)) :
    acceptFrom columns limits input random clock (fuel + 2)
      (db, ⟨.allocate, some emptyTransaction⟩) = (db, ⟨.done (.failed .allocate), none⟩) := by
  by_cases numbers : isText input.request.roomID = true ∧
      lastSeq db input.request.roomID + 1 ≤ maxInt64
  · obtain ⟨text, bound⟩ := numbers
    have large : limits.room input.request.roomID = false :=
      Bool.eq_false_iff.mpr fun fits => refused ⟨text, bound, fits⟩
    apply statement_refused fuel (allocate_runs text bound) _ rfl
    simp [transactionPasses, transactionIndexed, numbered, large]
  · have ran : runStatement columns input db (fun _ => false) ⟨.allocate, some emptyTransaction⟩
        random clock = some (db, ⟨.closing (.failed .allocate), some emptyTransaction⟩) := by
      cases text : isText input.request.roomID with
      | false => simp [runStatement, allocate, text, Call.fail, Call.goto]
      | true =>
          have overflow : maxInt64 < lastSeq db input.request.roomID + 1 :=
            Int.not_le.mp fun bound => numbers ⟨text, bound⟩
          simp [runStatement, allocate, text, overflow, Call.fail, Call.goto]
    rw [accept_step ran rfl, accept_closing]

theorem numbered_passes (valid : ValidInput input) {roomSeq : Int} (positive : 1 ≤ roomSeq)
    (fits : limits.room input.request.roomID = true) :
    transactionPasses limits (numbered input roomSeq) = true := by
  have room := has_text_of_not_blank (request_validate_ok.mp valid.2).2.2.2.1
  have counted : (0 : Int) ≤ roomSeq := by omega
  simp [transactionPasses, transactionChecks, transactionIndexed, numbered, counterChecks, room,
    fits, counted]

theorem allocated (fuel : Nat) (valid : ValidInput input)
    (text : isText input.request.roomID = true)
    (positive : 1 ≤ lastSeq db input.request.roomID + 1)
    (bound : lastSeq db input.request.roomID + 1 ≤ maxInt64)
    (fits : limits.room input.request.roomID = true) :
    acceptFrom columns limits input random clock (fuel + 2)
        (db, ⟨.allocate, some emptyTransaction⟩) =
      acceptFrom columns limits input random clock fuel (db, ⟨.insertMessage
        (acceptedEvent input (lastSeq db input.request.roomID + 1) random clock) (stamped random),
        some (numbered input (lastSeq db input.request.roomID + 1))⟩) := by
  have passes := numbered_passes valid positive fits
  have event := accepted_event_valid valid positive random clock
  have allocates := @allocate_runs columns input random clock db text bound
  generalize lastSeq db input.request.roomID + 1 = roomSeq at *
  have generates : runStatement columns input db (fun _ => false)
      ⟨.generate roomSeq, some (numbered input roomSeq)⟩ random clock =
        some (db, ⟨.insertMessage (acceptedEvent input roomSeq random clock) (stamped random),
          some (numbered input roomSeq)⟩) := by
    simp [runStatement, generate, newMessageID, parse_message_id_text, event, Call.goto]
  rw [accept_step allocates passes, accept_step generates passes]

variable {event : Event} {id : Uuid} {tx : Transaction}

/-- No committed row has one of the keys of the rows that are to be written. -/
structure Unused (columns : Columns) (input : Input) (db : Database) (event : Event) (id : Uuid) :
    Prop where
  messages : ∀ payload, ∀ other ∈ db.messages,
    sameMessageKey (messageRow columns input event id payload) other = false ∧
      sameClientKey (messageRow columns input event id payload) other = false
  outbox : ∀ stored, ∀ other ∈ db.outbox,
    sameOutboxKey (outboxRow columns event id stored) other = false

theorem none_matches {Row : Type} {matching : Row → Bool} {rows : List Row}
    (free : ∀ row ∈ rows, matching row = false) : rows.any matching = false := by
  rw [List.any_eq_false]
  intro row listed
  rw [free row listed]
  exact Bool.false_ne_true

/-- The transaction with the row of the message, and with that of the outbox. -/
def withMessage (columns : Columns) (input : Input) (event : Event) (id : Uuid)
    (payload : Bytes) (tx : Transaction) : Transaction :=
  { tx with message := some (messageRow columns input event id payload) }

def withOutbox (columns : Columns) (event : Event) (id : Uuid) (stored : Bytes)
    (tx : Transaction) : Transaction :=
  { tx with outbox := some (outboxRow columns event id stored) }

theorem insert_runs {payload : Bytes} (unused : Unused columns input db event id)
    (kept : columns.jsonb event.payload = some payload) :
    runStatement columns input db (fun _ => false) ⟨.insertMessage event id, some tx⟩ random
      clock = some (db, ⟨.insertOutbox event id,
        some (withMessage columns input event id payload tx)⟩) := by
  have noMessage : (db.messages.any
      (sameMessageKey (messageRow columns input event id payload))) = false :=
    none_matches fun other listed => (unused.messages payload other listed).1
  have noClient : (db.messages.any
      (sameClientKey (messageRow columns input event id payload))) = false :=
    none_matches fun other listed => (unused.messages payload other listed).2
  simp [runStatement, insertMessage, kept, noMessage, noClient, withMessage]

theorem insert_refused (fuel : Nat) (passes : transactionPasses limits tx = true)
    (refused : columns.jsonb event.payload = none) :
    acceptFrom columns limits input random clock (fuel + 2)
      (db, ⟨.insertMessage event id, some tx⟩) =
        (db, ⟨.done (.failed .insertHistory), none⟩) := by
  have ran : runStatement columns input db (fun _ => false) ⟨.insertMessage event id, some tx⟩
      random clock = some (db, ⟨.closing (.failed .insertHistory), some tx⟩) := by
    simp [runStatement, insertMessage, refused, Call.fail, Call.goto]
  rw [accept_step ran passes, accept_closing]

/-- The keys of the message do not fit the indexes. -/
theorem keys_refused (fuel : Nat) {payload : Bytes} (unused : Unused columns input db event id)
    (kept : columns.jsonb event.payload = some payload)
    (large : (limits.place event.roomID event.roomSeq &&
      limits.client input.clientID event.clientMessageID) = false) :
    acceptFrom columns limits input random clock (fuel + 2)
      (db, ⟨.insertMessage event id, some tx⟩) =
        (db, ⟨.done (.failed .insertHistory), none⟩) := by
  apply statement_refused fuel (insert_runs unused kept) _ rfl
  simp [transactionPasses, transactionIndexed, withMessage, messageRow, large]

/-- The event of the message is not taken. -/
theorem outbox_refused (fuel : Nat) {serialized : Bytes}
    (passes : transactionPasses limits tx = true)
    (marshalled : event.marshal = some serialized) (refused : columns.jsonb serialized = none) :
    acceptFrom columns limits input random clock (fuel + 2)
      (db, ⟨.insertOutbox event id, some tx⟩) =
        (db, ⟨.done (.failed .insertOutbox), none⟩) := by
  have ran : runStatement columns input db (fun _ => false) ⟨.insertOutbox event id, some tx⟩
      random clock = some (db, ⟨.closing (.failed .insertOutbox), some tx⟩) := by
    simp [runStatement, insertOutbox, marshalled, refused, Call.fail, Call.goto]
  rw [accept_step ran passes, accept_closing]

theorem outbox_inserted (fuel : Nat) {serialized stored : Bytes}
    (unused : Unused columns input db event id) (marshalled : event.marshal = some serialized)
    (kept : columns.jsonb serialized = some stored)
    (passes : transactionPasses limits (withOutbox columns event id stored tx) = true) :
    ∃ after, acceptFrom columns limits input random clock (fuel + 2)
      (db, ⟨.insertOutbox event id, some tx⟩) =
        (after, ⟨.done (.accepted .inserted event), none⟩) := by
  have noOutbox : (db.outbox.any (sameOutboxKey (outboxRow columns event id stored))) = false :=
    none_matches (unused.outbox stored)
  have lists : runStatement columns input db (fun _ => false)
      ⟨.insertOutbox event id, some tx⟩ random clock =
        some (db, ⟨.commit event, some (withOutbox columns event id stored tx)⟩) := by
    simp [runStatement, insertOutbox, marshalled, kept, noOutbox, withOutbox]
  have commits : runStatement columns input db (fun _ => false)
      ⟨.commit event, some (withOutbox columns event id stored tx)⟩ random clock =
        some (applyTransaction db (withOutbox columns event id stored tx),
          ⟨.done (.accepted .inserted event), none⟩) := rfl
  rw [accept_step lists passes, accept_step commits rfl, accept_returned]
  exact ⟨_, rfl⟩

end Phases

section Fresh

variable {columns : Columns} {input : Input} {db : Database} {random : Uuid}

theorem next_positive (sound : DatabaseSound db) (room : Bytes) : 1 ≤ lastSeq db room + 1 := by
  obtain ⟨count, last, _⟩ := sound.rooms room
  omega

/-- The next number of a room and a new id are not in use. -/
theorem message_key_unused (room : Bytes) (sound : DatabaseSound db)
    (fresh : ∀ row ∈ db.messages, row.messageID ≠ stamped random) {row : MessageRow}
    (listed : row ∈ db.messages) :
    stamped random ≠ row.messageID ∧
      ¬(room = row.roomID ∧ lastSeq db room + 1 = row.roomSeq) := by
  refine ⟨(fresh row listed).symm, ?_⟩
  rintro ⟨sameRoom, sameSeq⟩
  obtain ⟨count, last, seqs⟩ := sound.rooms room
  have member : row.roomSeq ∈ roomSeqs db.messages room :=
    List.mem_map_of_mem (List.mem_filter.mpr ⟨listed, beq_iff_eq.mpr sameRoom.symm⟩)
  rw [seqs, mem_first_seqs] at member
  omega

theorem keys_unused (sound : DatabaseSound db) (clock : ClockReading)
    (fresh : ∀ row ∈ db.messages, row.messageID ≠ stamped random)
    (absent : findEvent db input.clientID input.request.clientMessageID = none) :
    Unused columns input db
      (acceptedEvent input (lastSeq db input.request.roomID + 1) random clock)
      (stamped random) where
  messages := by
    intro payload other listed
    obtain ⟨id, place⟩ := message_key_unused input.request.roomID sound fresh listed
    constructor
    · simp only [sameMessageKey, messageRow, acceptedEvent, Bool.or_eq_false_iff,
        Bool.and_eq_false_iff, beq_eq_false_iff_ne]
      exact ⟨id, not_and_or.mp place⟩
    · cases clash : sameClientKey (messageRow columns input _ (stamped random) payload) other with
      | false => rfl
      | true =>
          simp only [sameClientKey, messageRow, acceptedEvent, Bool.and_eq_true,
            beq_iff_eq] at clash
          have key : clientKey other = inputKey input := by
            rw [clientKey, inputKey, ← clash.1, ← clash.2]
          obtain ⟨event, found⟩ := find_event_of_row ⟨other, listed, key⟩
          cases absent.symm.trans found
  outbox := by
    intro stored other listed
    have key : outboxKey other ∈ db.messages.map messageKey := by
      rw [← sound.outboxKeys]
      exact List.mem_map_of_mem listed
    obtain ⟨row, rowListed, same⟩ := List.mem_map.mp key
    simp only [messageKey, outboxKey, Prod.mk.injEq] at same
    obtain ⟨id, place⟩ := message_key_unused input.request.roomID sound fresh rowListed
    rw [same.1] at id
    rw [same.2.1, same.2.2] at place
    simp only [sameOutboxKey, outboxRow, acceptedEvent, Bool.or_eq_false_iff,
      Bool.and_eq_false_iff, beq_eq_false_iff_ne]
    exact ⟨id, not_and_or.mp place⟩

end Fresh

section Results

/-- The event a call makes of a message that is not stored. -/
def nextEvent (db : Database) (input : Input) (random : Uuid) (clock : ClockReading) : Event :=
  acceptedEvent input (lastSeq db input.request.roomID + 1) random clock

/-- The keys, the payload and the event of a message that is not stored are
within the limits of the server. -/
structure WithinLimits (limits : Limits) (db : Database) (input : Input) (random : Uuid)
    (clock : ClockReading) : Prop where
  room : limits.room input.request.roomID = true
  place : limits.place input.request.roomID (lastSeq db input.request.roomID + 1) = true
  client : limits.client input.clientID input.request.clientMessageID = true
  payload : limits.json input.request.payload = true
  event : (nextEvent db input random clock).marshal.all limits.json = true

/-- What the database asks of a request beyond its checks: texts a `text` column
takes, and, if the message is not stored already, a payload with strings a
`jsonb` column takes, a number left in the room, and nothing past the limits of
the server. -/
def FitsColumns (limits : Limits) (db : Database) (input : Input) (random : Uuid)
    (clock : ClockReading) : Prop :=
  isText input.clientID = true ∧ isText input.request.clientMessageID = true ∧
    ((findEvent db input.clientID input.request.clientMessageID).isSome = true ∨
      isText input.request.roomID = true ∧ isStorable input.request.payload = true ∧
        lastSeq db input.request.roomID < maxInt64 ∧
        WithinLimits limits db input random clock)

section NewMessage

variable {columns : Columns} {limits : Limits} {input : Input} {random : Uuid}
  {clock : ClockReading} {db : Database}

/-- The rows of a message whose keys fit pass. -/
theorem message_passes (valid : ValidInput input) (sound : DatabaseSound db) (payload : Bytes)
    (room : limits.room input.request.roomID = true)
    (keys : (limits.place input.request.roomID (lastSeq db input.request.roomID + 1) &&
      limits.client input.clientID input.request.clientMessageID) = true) :
    transactionPasses limits (withMessage columns input (nextEvent db input random clock)
      (stamped random) payload (numbered input (lastSeq db input.request.roomID + 1))) = true := by
  have positive := next_positive sound input.request.roomID
  have passes := numbered_passes valid positive room
  have request := request_validate_ok.mp valid.2
  have counted : (0 : Int) < lastSeq db input.request.roomID + 1 := by omega
  have checks : messageChecks (messageRow columns input (nextEvent db input random clock)
      (stamped random) payload) = true := by
    simp only [messageChecks, messageRow, nextEvent, acceptedEvent,
      has_text_of_not_blank request.2.2.1, has_text_of_not_blank valid.1, Bool.true_and]
    exact decide_eq_true counted
  simp only [transactionPasses, transactionChecks, transactionIndexed, numbered, Option.all_some,
    Option.all_none, Bool.and_true, Bool.and_eq_true] at passes
  simp only [transactionPasses, transactionChecks, transactionIndexed, withMessage, numbered,
    Option.all_some, Option.all_none, Bool.and_true, Bool.and_eq_true, passes, checks, true_and]
  exact (Bool.and_eq_true _ _).mp keys

theorem outbox_passes {event : Event} {id : Uuid} {stored : Bytes} {tx : Transaction}
    (passes : transactionPasses limits tx = true) (version : versionText stored = some (ascii "1"))
    (place : limits.place event.roomID event.roomSeq = true) :
    transactionPasses limits (withOutbox columns event id stored tx) = true := by
  simp only [transactionPasses, transactionChecks, transactionIndexed, Bool.and_eq_true] at passes
  obtain ⟨⟨⟨counter, message⟩, _⟩, ⟨room, keys⟩, _⟩ := passes
  simp [transactionPasses, transactionChecks, transactionIndexed, withOutbox, outboxChecks,
    outboxRow, counter, message, room, keys, version, place]

theorem next_event_storable (message : isText input.request.clientMessageID = true)
    (text : isText input.request.roomID = true)
    (payload : isStorable input.request.payload = true) {serialized : Bytes}
    (marshalled : (nextEvent db input random clock).marshal = some serialized) :
    isStorable serialized = true := by
  obtain ⟨other, same, taken⟩ := event_storable
    (rfl : (nextEvent db input random clock).messageID = (stamped random).text) message text
    (exact_encodes clock.time.spelled) payload
  cases marshalled.symm.trans same
  exact taken

/-- The statements after the number is taken. The message is inserted if its
payload and the limits allow it, and otherwise one of them fails. -/
theorem new_message_decided (fuel : Nat) (column : JsonbColumn columns limits)
    (valid : ValidInput input) (sound : DatabaseSound db)
    (fresh : ∀ row ∈ db.messages, row.messageID ≠ stamped random)
    (absent : findEvent db input.clientID input.request.clientMessageID = none)
    (message : isText input.request.clientMessageID = true)
    (text : isText input.request.roomID = true)
    (room : limits.room input.request.roomID = true) :
    let reached := acceptFrom columns limits input random clock (fuel + 3) (db, ⟨.insertMessage
      (nextEvent db input random clock) (stamped random),
      some (numbered input (lastSeq db input.request.roomID + 1))⟩)
    let fits := isStorable input.request.payload = true ∧
      WithinLimits limits db input random clock
    (fits ∧ ∃ after, reached =
        (after, ⟨.done (.accepted .inserted (nextEvent db input random clock)), none⟩)) ∨
      (¬fits ∧ ∃ failure, reached = (db, ⟨.done (.failed failure), none⟩)) := by
  intro reached fits
  have unused : Unused columns input db (nextEvent db input random clock) (stamped random) :=
    keys_unused sound clock fresh absent
  have passes := numbered_passes valid (next_positive sound input.request.roomID) room
  obtain ⟨serialized, marshalled⟩ :=
    Option.isSome_iff_exists.mp (accepted_event_marshals valid _ random clock)
  cases kept : columns.jsonb input.request.payload with
  | none =>
      refine .inr ⟨?_, .insertHistory, insert_refused (fuel + 1) passes kept⟩
      rintro ⟨payload, within⟩
      have taken := column.takes input.request.payload
      rw [kept, payload, within.payload] at taken
      cases taken
  | some payload =>
      cases keys : limits.place input.request.roomID (lastSeq db input.request.roomID + 1) &&
          limits.client input.clientID input.request.clientMessageID with
      | false =>
          refine .inr ⟨?_, .insertHistory, keys_refused (fuel + 1) unused kept keys⟩
          rintro ⟨_, within⟩
          rw [within.place, within.client] at keys
          cases keys
      | true =>
          have both : transactionPasses limits (withMessage columns input
              (nextEvent db input random clock) (stamped random) payload
              (numbered input (lastSeq db input.request.roomID + 1))) = true :=
            message_passes valid sound payload room keys
          have inserts : reached = _ := accept_step (insert_runs unused kept) both
          have payloadTaken := column.takes input.request.payload
          rw [kept, Option.isSome_some, eq_comm, Bool.and_eq_true] at payloadTaken
          have taken := column.takes serialized
          rw [next_event_storable message text payloadTaken.1 marshalled, Bool.true_and] at taken
          cases eventKept : columns.jsonb serialized with
          | none =>
              rw [eventKept] at taken
              refine .inr ⟨?_, .insertOutbox,
                inserts.trans (outbox_refused fuel both marshalled eventKept)⟩
              rintro ⟨_, within⟩
              have allowed := within.event
              rw [nextEvent, marshalled, Option.all_some, ← taken] at allowed
              cases allowed
          | some stored =>
              rw [eventKept] at taken
              obtain ⟨place, client⟩ := (Bool.and_eq_true _ _).mp keys
              have version := stored_version column.keeps rfl marshalled eventKept
              obtain ⟨after, ends⟩ := outbox_inserted fuel unused marshalled eventKept
                (outbox_passes both version place)
              refine .inl ⟨⟨payloadTaken.1, room, place, client, payloadTaken.2, ?_⟩, after,
                inserts.trans ends⟩
              rw [nextEvent, marshalled, Option.all_some, ← taken]
              rfl

theorem accept_decided (column : JsonbColumn columns limits) (valid : ValidInput input)
    (sound : DatabaseSound db) (fresh : ∀ row ∈ db.messages, row.messageID ≠ stamped random) :
    (FitsColumns limits db input random clock ∧
        ∃ after path event, accept columns limits input random clock db =
          (after, ⟨.done (.accepted path event), none⟩)) ∨
      (¬FitsColumns limits db input random clock ∧
        ∃ failure, accept columns limits input random clock db =
          (db, ⟨.done (.failed failure), none⟩)) := by
  rw [accept_started valid]
  cases texts : isText input.clientID && isText input.request.clientMessageID with
  | false =>
      refine .inr ⟨?_, .findAccepted, find_pool_refused 9 texts⟩
      rintro ⟨client, message, _⟩
      rw [client, message] at texts
      cases texts
  | true =>
      obtain ⟨client, message⟩ := (Bool.and_eq_true _ _).mp texts
      cases found : findEvent db input.clientID input.request.clientMessageID with
      | some event =>
          have stored : FitsColumns limits db input random clock :=
            ⟨client, message, .inl (by rw [found]; rfl)⟩
          exact .inl ⟨stored, db, .poolRead, event, find_pool_found 9 texts found⟩
      | none =>
          have news : FitsColumns limits db input random clock →
              isText input.request.roomID = true ∧ isStorable input.request.payload = true ∧
                lastSeq db input.request.roomID < maxInt64 ∧
                WithinLimits limits db input random clock := by
            rintro ⟨_, _, stored | fits⟩
            · rw [found] at stored
              cases stored
            · exact fits
          rw [find_pool_missed 8 texts found]
          by_cases numbers : isText input.request.roomID = true ∧
              lastSeq db input.request.roomID + 1 ≤ maxInt64 ∧
              limits.room input.request.roomID = true
          · obtain ⟨text, bound, room⟩ := numbers
            rw [allocated 6 valid text (next_positive sound _) bound room]
            rcases new_message_decided 3 column valid sound fresh found message text room with
              ⟨⟨payload, within⟩, after, ends⟩ | ⟨misfit, failure, ends⟩
            · exact .inl ⟨⟨client, message, .inr ⟨text, payload, by omega, within⟩⟩, after,
                .inserted, _, ends⟩
            · exact .inr ⟨fun fits => misfit ⟨(news fits).2.1, (news fits).2.2.2⟩, failure, ends⟩
          · refine .inr ⟨?_, .allocate, allocate_refused 6 numbers⟩
            intro fits
            obtain ⟨text, _, bound, within⟩ := news fits
            exact numbers ⟨text, by omega, within.room⟩

end NewMessage

/-- Whatever calls have run before, a call of `Accept` with a non-blank client id
and a valid request, a message id that no row has and nothing that fails by itself
returns. It succeeds exactly if the request fits the columns, and otherwise it
fails and leaves the tables as they were. -/
theorem accepted_iff_fits {Caller : Type} [Fintype Caller] [DecidableEq Caller]
    (columns : Columns) (limits : Limits) (inputs : Caller → Input) (state : State Caller)
    (input : Input) (random : Uuid) (clock : ClockReading) (column : JsonbColumn columns limits)
    (reached : Reachable (step columns inputs) anyStep initial state)
    (valid : ValidInput input)
    (fresh : ∀ row ∈ state.db.messages, row.messageID ≠ stamped random) :
    ((∃ path event, (accept columns limits input random clock state.db).2 =
        ⟨.done (.accepted path event), none⟩) ↔
          FitsColumns limits state.db input random clock) ∧
      (¬FitsColumns limits state.db input random clock →
        ∃ failure, accept columns limits input random clock state.db =
          (state.db, ⟨.done (.failed failure), none⟩)) := by
  rcases accept_decided column valid (reachable_sound reached).database fresh with
    ⟨fits, after, path, event, ends⟩ | ⟨misfit, failure, ends⟩
  · exact ⟨⟨fun _ => fits, fun _ => ⟨path, event, congrArg Prod.snd ends⟩⟩,
      fun misfit => absurd fits misfit⟩
  · refine ⟨⟨?_, fun fits => absurd fits misfit⟩, fun _ => ⟨failure, ends⟩⟩
    rintro ⟨path, event, succeeded⟩
    rw [ends] at succeeded
    cases succeeded

/-- A server that keeps short values and keys only. -/
def shortLimits : Limits where
  json text := decide (text.length ≤ 65536)
  room room := decide (room.length ≤ 2600)
  place room _ := decide (room.length ≤ 2600)
  client clientID clientMessageID :=
    decide (clientID.length + clientMessageID.length ≤ 2600)

/-- Columns that keep JSON values and take no more than `jsonb` does. -/
def strictColumns : Columns where
  jsonb text :=
    if isStorable text && shortLimits.json text then jsonColumns.jsonb text else none
  timestamptz := jsonColumns.timestamptz

theorem strict_columns_jsonb : JsonbColumn strictColumns shortLimits where
  keeps := by
    intro text stored kept
    simp only [strictColumns, Option.ite_none_right_eq_some] at kept
    exact json_columns_keep text stored kept.2
  takes := by
    intro text
    cases allowed : isStorable text && shortLimits.json text with
    | false => simp only [strictColumns, allowed, Bool.false_eq_true, if_false, Option.isSome_none]
    | true =>
        have parses := ((Bool.and_eq_true _ _).mp allowed).1
        rw [isStorable, Option.any_eq_true] at parses
        obtain ⟨tree, parsed, _⟩ := parses
        simp only [strictColumns, jsonColumns, allowed, if_true, parsed, Option.map_some,
          Option.isSome_some]

theorem repeated_key_fits :
    FitsColumns shortLimits emptyDatabase (repeatedKey ()) (randomBytes 1) noon ∧
      ∃ path event, (accept strictColumns shortLimits (repeatedKey ()) (randomBytes 1) noon
        emptyDatabase).2 = ⟨.done (.accepted path event), none⟩ := by
  have within : WithinLimits shortLimits emptyDatabase (repeatedKey ()) (randomBytes 1)
      noon :=
    ⟨by decide +kernel, by decide +kernel, by decide +kernel, by decide +kernel, by decide +kernel⟩
  have fits : FitsColumns shortLimits emptyDatabase (repeatedKey ()) (randomBytes 1) noon :=
    ⟨by decide +kernel, by decide +kernel,
      .inr ⟨by decide +kernel, by decide +kernel, by decide +kernel, within⟩⟩
  have valid : ValidInput (repeatedKey ()) := ⟨by decide +kernel, by decide +kernel⟩
  exact ⟨fits, (accepted_iff_fits strictColumns shortLimits repeatedKey initial (repeatedKey ())
    (randomBytes 1) noon strict_columns_jsonb reachable_start valid
    (by intro row listed; cases listed)).1.mpr fits⟩

/-- A frame whose payload is a string with the escape of the zero character. -/
def zeroFrame : Bytes :=
  ascii "\x7b\"type\":\"send\",\"version\":1,\"client_message_id\":\"m-1\"," ++
    ascii "\"room_id\":\"lobby\",\"payload\":\"\\u0000\"\x7d"

def zeroInput : Input where
  clientID := ascii "ann"
  request := ⟨ascii "send", 1, ascii "m-1", ascii "lobby", ascii "\"\\u0000\""⟩

theorem zero_escape_refused :
    unmarshalSendRequest zeroFrame = some zeroInput.request ∧
      isBlank zeroInput.clientID = false ∧ zeroInput.request.validate = .ok () ∧
      ∀ random clock, accept strictColumns shortLimits zeroInput random clock emptyDatabase =
        (emptyDatabase, ⟨.done (.failed .insertHistory), none⟩) := by
  have valid : ValidInput zeroInput := ⟨by decide +kernel, by decide +kernel⟩
  refine ⟨by decide +kernel, valid.1, valid.2, ?_⟩
  intro random clock
  have refused : strictColumns.jsonb zeroInput.request.payload = none := by decide +kernel
  rw [accept_started valid, find_pool_missed 8 (by decide +kernel) (by decide +kernel),
    allocated 6 valid (by decide +kernel) (by decide +kernel) (by decide +kernel)
      (by decide +kernel)]
  exact insert_refused 4 (numbered_passes valid (by decide +kernel) (by decide +kernel)) refused

end Results

end ChatScale.ColumnAgreement
