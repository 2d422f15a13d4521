import ChatScale.IngestAcceptance
import ChatScale.JsonbText

/-!
# How large the record of an accepted message is

The Kafka record of a message has its room as key and the stored text of its
event as value. The producer refuses a record that is larger than its limit,
which is also the limit for a frame; the event has fields that the frame has
not. A row whose record is refused keeps the later rows of its room from the
topic.
-/

namespace ChatScale.RecordSize

open ChatScale.ByteText ChatScale.ByteEncodings ChatScale.CivilTime ChatScale.TransitionSystem
open ChatScale.JsonLiterals ChatScale.JsonTokens ChatScale.JsonText ChatScale.JsonValue
open ChatScale.JsonFields ChatScale.JsonbText ChatScale.MessageContract ChatScale.MessageId
open ChatScale.MessageStoreModel (Columns Input MessageRow acceptedEvent messageRow outboxRow
  isText)
open ChatScale.MessageStoreInvariants ChatScale.MessageStoreContents
open ChatScale.MessageStoreReplay ChatScale.MessageStoreProgress
open ChatScale.IngestModel ChatScale.IngestReplies ChatScale.IngestAcceptance
open ChatScale.OutboxRelayModel (Entry Record Environment entryOf recordOf)
open ChatScale.OutboxRelayOrder

set_option autoImplicit false

/-- The read limit of a connection. -/
def maxMessageBytes : Nat := 2 ^ 20

/-- `Producer.MaxMessageBytes`, which `NewProducer` leaves at its default. -/
def maxRecordBytes : Nat := 1048576

/-- What is assumed of the size the producer counts for a record: it is that of
the key and the value, and a fixed number of bytes around them. -/
structure CountsBytes (byteSize : Record → Nat) (overhead : Nat) : Prop where
  counts : ∀ record, byteSize record = overhead + record.key.length + record.value.length

/-- The producer takes the record. -/
def Fits (byteSize : Record → Nat) (record : Record) : Prop := byteSize record ≤ maxRecordBytes

/-- What is assumed of a `jsonb` column: it gives the tree of a text back as it
prints trees, and integers are printed as they are. Which texts it refuses is
left open. -/
structure PrintsJsonb (number : NumberLiteral → Bytes) (columns : Columns) : Prop where
  prints : ∀ text stored, columns.jsonb text = some stored →
    ∃ tree, parse text = some tree ∧ stored = print number tree
  integers : ∀ value, number ⟨formatInt value, (format_int_literal value).1⟩ = formatInt value

section Events

variable {number : NumberLiteral → Bytes} {columns : Columns} {input : Input} {event : Event}

theorem event_names_size :
    (eventFieldNames.map fun name => (spellString (ascii name)).length + 4).sum = 108 := by
  decide +kernel

theorem print_string_length {text : Bytes} (valid : isValidUtf8 text = true) :
    (print number (encodeString text)).length = (spellString text).length := by
  rw [encodeString, print, value_of_valid valid]

theorem print_time_length (time : Time) :
    (print number (encodeTime time)).length = time.format.length + 2 := by
  rw [encodeTime, print, value_plain_literal, spell_plain_length (format_time_plain time)]

theorem print_int_length (prints : PrintsJsonb number columns) (value : Int) :
    (print number (encodeInt value)).length = (formatInt value).length := by
  rw [encodeInt, print, prints.integers]

/-- The text of an event, field by field. -/
theorem print_event_length (prints : PrintsJsonb number columns) (encodable : event.Encodable)
    (payload : Json) :
    (print number (structTree (eventFields event payload))).length =
      110 + (formatInt event.version).length + (spellString event.messageID).length +
        (spellString event.clientMessageID).length + (spellString event.roomID).length +
        (formatInt event.roomSeq).length + event.createdAt.format.length +
        (print number payload).length := by
  rw [print_struct_length number (@event_field_names event payload) (by decide) event_names_valid
    event_names_distinct, event_names_size]
  simp only [eventFields, List.map_cons, List.map_nil, List.sum_cons, List.sum_nil,
    print_int_length prints, print_time_length, print_string_length encodable.messageID,
    print_string_length encodable.clientMessageID, print_string_length encodable.roomID]
  omega

/-- The text of a stored event in terms of what was accepted and of the stored
payload. -/
theorem stored_event_length (prints : PrintsJsonb number columns) {message : MessageRow}
    {entry : Entry} (writes : Writes columns input message entry event) :
    entry.event.length = 149 + (spellString event.clientMessageID).length +
      (spellString event.roomID).length + (formatInt event.roomSeq).length +
      event.createdAt.format.length + message.payload.length := by
  obtain ⟨id, payload, drafted, kept, rfl⟩ := writes.message
  obtain ⟨serialized, stored, marshalled, storedKept, rfl⟩ := writes.entry
  obtain ⟨_, tree, parsed, rfl⟩ := marshal_some marshalled
  obtain ⟨payloadTree, payloadParsed, rfl⟩ := prints.prints _ _ kept
  obtain ⟨eventTree, eventParsed, rfl⟩ := prints.prints _ _ storedKept
  cases parsed.symm.trans payloadParsed
  cases (parse_render _).symm.trans eventParsed
  have named : (spellString event.messageID).length = 38 := by
    rw [drafted.named, spell_plain_length (text_plain id), text_length]
  have versioned : (formatInt event.version).length = 1 := by
    rw [(event_validate_ok.mp drafted.valid).1]
    decide +kernel
  dsimp only [messageRow]
  rw [print_event_length prints (DeliveryPipeline.drafted_encodable drafted), named, versioned,
    print_html_escaped]

end Events

section Records

variable {Caller : Type} [DecidableEq Caller] [Fintype Caller] {columns : Columns}
  {frames : Caller → Received} {system : System Caller}

/-- Whatever a handler has acknowledged stands in both tables. -/
theorem acknowledged_written (reached : Reachable (step columns frames) anyStep initial system)
    {caller : Caller} {ack : AcceptedAck} {text : Bytes}
    (answered : (Frame.accepted ack, text) ∈ system.sent caller) :
    ∃ origin event, ∃ message ∈ system.store.db.messages, ∃ row ∈ system.store.db.outbox,
      Writes columns (inputsOf frames origin) message (entryOf row) event ∧
        event.messageID = ack.messageID ∧ event.clientMessageID = ack.clientMessageID ∧
        event.roomID = ack.roomID ∧ event.roomSeq = ack.roomSeq := by
  have known : OriginsKnown (fun _ => True) columns (inputsOf frames) system.store :=
    reachable_origins (fun _ action _ => by cases action.move <;> trivial)
      (store_reachable reached)
  rcases sent_chosen (reachable_handlers reached) answered with
    ⟨rejecting, _⟩ | ⟨_, outcome, done, told⟩
  · rcases handle_message_cases (frames caller) with handled | ⟨_, handled⟩
    · rw [handled] at rejecting
      cases rejecting
    · rw [handled] at rejecting
      cases rejecting
  · rcases answer_cases (requestOf (frames caller)) outcome with
      ⟨path, event, rfl, _, answers⟩ | ⟨_, _, answers⟩
    · rw [answers] at told
      cases enqueue_eq told
      by_cases inserted : path = .inserted
      · have content := known.contents.calls caller
        unfold ContentSound at content
        rw [done, inserted] at content
        obtain ⟨message, messageListed, row, rowListed, writes⟩ := content
        exact ⟨caller, event, message, messageListed, row, rowListed, writes, rfl, rfl, rfl, rfl⟩
      · have origin := (known.calls caller).stage
        rw [done] at origin
        obtain ⟨message, messageListed, _, rfl⟩ := origin inserted
        obtain ⟨writer, event, row, rowListed, writes⟩ := row_written known messageListed
        obtain ⟨id, payload, drafted, _, rfl⟩ := writes.message
        exact ⟨writer, event, _, messageListed, row, rowListed, writes, drafted.named, rfl, rfl,
          rfl⟩
    · rw [answers] at told
      cases told

/-- The record of an acknowledged message fits exactly if its room, its client
message id, its number, its time and its stored payload leave room for the 149
bytes around them and those that the producer adds. -/
theorem accepted_record_fits_iff (byteSize : Record → Nat) (overhead : Nat)
    (producer : CountsBytes byteSize overhead) (number : NumberLiteral → Bytes) (columns : Columns)
    (prints : PrintsJsonb number columns) (frames : Caller → Received) (system : System Caller)
    (reached : Reachable (step columns frames) anyStep initial system) (caller : Caller)
    (ack : AcceptedAck) (text : Bytes)
    (answered : (Frame.accepted ack, text) ∈ system.sent caller) :
    ∃ origin event, ∃ message ∈ system.store.db.messages, ∃ row ∈ system.store.db.outbox,
      Writes columns (inputsOf frames origin) message (entryOf row) event ∧
      event.messageID = ack.messageID ∧
      (Fits byteSize (recordOf (entryOf row)) ↔
        overhead + 149 + ack.roomID.length + (spellString ack.clientMessageID).length +
          (spellString ack.roomID).length + (formatInt ack.roomSeq).length +
          event.createdAt.format.length + message.payload.length ≤ maxRecordBytes) := by
  obtain ⟨origin, event, message, messageListed, row, rowListed, writes, id, client, room, seq⟩ :=
    acknowledged_written reached answered
  refine ⟨origin, event, message, messageListed, row, rowListed, writes, id, ?_⟩
  have key : (entryOf row).roomID = event.roomID := by
    obtain ⟨_, _, _, _, entry⟩ := writes.entry
    rw [entry]
  have size : byteSize (recordOf (entryOf row)) =
      overhead + 149 + ack.roomID.length + (spellString ack.clientMessageID).length +
        (spellString ack.roomID).length + (formatInt ack.roomSeq).length +
        event.createdAt.format.length + message.payload.length := by
    have value := stored_event_length prints writes
    rw [client, room, seq] at value
    rw [producer.counts, recordOf, key, room]
    dsimp only
    omega
  rw [Fits, size]

end Records

section Blocking

variable {byteSize : Record → Nat} {Caller Relay : Type} {inputs : Caller → Input}
  {system : OutboxRelayModel.System Caller Relay}

/-- The producer takes no record that does not fit, be it at once or late. -/
def TakesFitting (byteSize : Record → Nat) (system : OutboxRelayModel.System Caller Relay) :
    OutboxRelayModel.Action Caller Relay → Prop
  | .relay relay move => move = .append ∨ move.isLate = true →
      ∀ entry, activeEntry (system.relays relay) = some entry → Fits byteSize (recordOf entry)
  | _ => True

/-- Every record in the log or on its way to it fits. -/
structure LogFits (byteSize : Record → Nat)
    (system : OutboxRelayModel.System Caller Relay) : Prop where
  log : ∀ record ∈ system.log, Fits byteSize record
  inflight : ∀ record ∈ system.inflight, Fits byteSize record

theorem initial_log_fits :
    LogFits byteSize (OutboxRelayModel.initial : OutboxRelayModel.System Caller Relay) where
  log := by simp [OutboxRelayModel.initial]
  inflight := by simp [OutboxRelayModel.initial]

variable [Fintype Caller] [DecidableEq Caller] [DecidableEq Relay]

theorem step_log_fits {environment : Environment Relay} (fits : LogFits byteSize system)
    {action : OutboxRelayModel.Action Caller Relay}
    {after : OutboxRelayModel.System Caller Relay} (fitting : TakesFitting byteSize system action)
    (stepped : OutboxRelayModel.step environment inputs system action = some after) :
    LogFits byteSize after := by
  cases action with
  | store action =>
      obtain ⟨store, _, rfl⟩ := Option.map_eq_some_iff.mp stepped
      exact ⟨fits.log, fits.inflight⟩
  | relay relay move =>
      obtain ⟨effect, moved, rfl⟩ := Option.map_eq_some_iff.mp stepped
      cases relay_effect_cases moved with
      | quiet quiet =>
          constructor
          · dsimp only
            rw [quiet.log]
            exact fits.log
          · intro record member
            rcases quiet.inflight record member with old | ⟨late, entry, active, rfl⟩
            · exact fits.inflight record old
            · exact fitting (.inr late) entry active
      | fetched => exact ⟨fits.log, fits.inflight⟩
      | @appended entry _ _ publishing =>
          refine ⟨?_, fits.inflight⟩
          intro record member
          rcases List.mem_append.mp member with old | new
          · exact fits.log record old
          · rw [List.mem_singleton.mp new]
            apply fitting (.inl rfl) entry
            rw [publishing]
            rfl
      | marked => exact ⟨fits.log, fits.inflight⟩
  | late record =>
      simp only [OutboxRelayModel.step] at stepped
      split_ifs at stepped with waiting
      cases stepped
      constructor
      · intro other member
        rcases List.mem_append.mp member with old | new
        · exact fits.log other old
        · rw [List.mem_singleton.mp new]
          exact fits.inflight record waiting
      · intro other member
        exact fits.inflight other (List.mem_of_mem_erase member)

theorem reachable_log_fits {environment : Environment Relay}
    (reached : Reachable (OutboxRelayModel.step environment inputs) (TakesFitting byteSize)
      OutboxRelayModel.initial system) : LogFits byteSize system :=
  reachable_invariant (LogFits byteSize) initial_log_fits
    (fun _ _ _ fits fitting stepped => step_log_fits fits fitting stepped) reached

/-- A row whose record does not fit is pending for good, and from its number on the
topic gets nothing of its room. -/
theorem unfit_row_blocks {environment : Environment Relay}
    (reached : Reachable (OutboxRelayModel.step environment inputs) (TakesFitting byteSize)
      OutboxRelayModel.initial system)
    {row : MessageStoreModel.OutboxRow} (listed : row ∈ system.store.db.outbox)
    (unfit : ¬Fits byteSize (recordOf (entryOf row))) :
    row.published = false ∧ ∀ seq ∈ loggedSeqs system.log row.roomID, seq < row.roomSeq := by
  have sound := reachable_relay_sound reached
  have fits := reachable_log_fits reached
  constructor
  · cases marked : row.published with
    | false => rfl
    | true => exact absurd (fits.log _ (sound.published row listed marked).2) unfit
  · intro seq logged
    obtain ⟨record, member, sameRoom, decoded⟩ := mem_logged_seqs.mp logged
    obtain ⟨entry, rfl, valid, entrySound⟩ := sound.logged record member
    rw [record_seq_of_valid valid, Option.some.injEq] at decoded
    subst decoded
    rcases lt_trichotomy entry.roomSeq row.roomSeq with below | same | above
    · exact below
    · obtain ⟨other, otherListed, rfl⟩ := entrySound.known
      cases outbox_row_unique sound.store.database otherListed listed sameRoom same
      exact absurd (fits.log _ member) unfit
    · exact absurd (fits.log _ (entrySound.earlier row listed sameRoom.symm above).2) unfit

end Blocking

section Wordy

/-- A column that takes every JSON text and prints numbers as they are
spelled. -/
def jsonbColumns : Columns :=
  ⟨fun text => (parse text).map (print NumberLiteral.text), microColumns.timestamptz⟩

theorem jsonb_columns_print : PrintsJsonb NumberLiteral.text jsonbColumns where
  prints := by
    intro text stored kept
    obtain ⟨tree, parsed, rfl⟩ := Option.map_eq_some_iff.mp kept
    exact ⟨tree, parsed, rfl⟩
  integers := fun _ => rfl

theorem jsonb_columns_stored {text : Bytes} {tree : Json} (parsed : parse text = some tree) :
    jsonbColumns.jsonb text = some (print NumberLiteral.text tree) :=
  congrArg (Option.map (print NumberLiteral.text)) parsed

theorem repeated_plain (count : Nat) : isPlainText (List.replicate count 0x78) = true := by
  have letter : isPlainByte 0x78 = true := by decide
  simp [isPlainText, letter]

/-- A payload of one letter, repeated. -/
def repeated (count : Nat) : Json :=
  .string (plainLiteral (List.replicate count 0x78) (repeated_plain count))

def wordyFrame (count : Nat) : Received :=
  ⟨ascii "ann", render (structTree (requestFields (ascii "m-1") (ascii "lobby")
    (repeated count)))⟩

theorem wordy_frame_length (count : Nat) : (wordyFrame count).data.length = count + 84 := by
  have names : (fieldName "type").text.length = 4 ∧ (fieldName "version").text.length = 7 ∧
      (fieldName "client_message_id").text.length = 17 ∧
      (fieldName "room_id").text.length = 7 ∧ (fieldName "payload").text.length = 7 := by
    decide +kernel
  have values : (render (encodeString sendFrameType)).length = 6 ∧
      (render (encodeInt version)).length = 1 ∧
      (render (encodeString (ascii "m-1"))).length = 5 ∧
      (render (encodeString (ascii "lobby"))).length = 7 := by decide +kernel
  have payload : (render (repeated count)).length = count + 2 := by
    simp [render, repeated, compact, spell, Token.text, plainLiteral]
  rw [wordyFrame, structTree, requestFields, List.map_cons, render_object_length]
  simp only [List.map_cons, List.map_nil, List.sum_cons, List.sum_nil, names, values, payload]
  omega

theorem wordy_acceptable (count : Nat) :
    ∃ raw, parse raw = some (repeated count) ∧ Acceptable (wordyFrame count)
      ⟨sendFrameType, version, ascii "m-1", ascii "lobby", raw⟩ := by
  have texts : isText (ascii "ann") = true ∧ isText (ascii "m-1") = true ∧
      isText (ascii "lobby") = true := by decide +kernel
  have named : isBlank (ascii "ann") = false ∧ isBlank (ascii "m-1") = false ∧
      isBlank (ascii "lobby") = false := by decide +kernel
  obtain ⟨raw, decoded, parsed⟩ := unmarshal_request (ascii "m-1") (ascii "lobby")
    (repeated count) (by decide +kernel) (by decide +kernel)
  refine ⟨raw, parsed, decoded, ?_, named.1, texts.1, texts.2.1, texts.2.2⟩
  rw [request_validate_ok, isValid, parsed]
  exact ⟨rfl, rfl, named.2.1, named.2.2, rfl⟩

def wordyEvent (raw : Bytes) : Event :=
  ⟨version, (stamped (randomBytes 1)).text, ascii "m-1", ascii "lobby", 1, noon.time.toTime, raw⟩

theorem wordy_event_encodable (raw : Bytes) : (wordyEvent raw).Encodable := by
  have versioned : minInt64 ≤ version ∧ version ≤ maxInt64 := by decide
  have numbered : minInt64 ≤ 1 ∧ 1 ≤ maxInt64 := by decide
  have client : isValidUtf8 (ascii "m-1") = true := by decide +kernel
  have room : isValidUtf8 (ascii "lobby") = true := by decide +kernel
  exact ⟨(plain_text (text_plain _)).2.2, client, room, versioned, numbered,
    noon.time.spelled⟩

theorem wordy_event_length (raw : Bytes) (count : Nat) :
    (print NumberLiteral.text (structTree (eventFields (wordyEvent raw)
      (htmlEscaped (repeated count))))).length = count + 184 := by
  have letters : (print NumberLiteral.text (repeated count)).length = count + 2 := by
    rw [repeated, print, value_plain_literal, spell_plain_length (repeated_plain count),
      List.length_replicate]
  have sizes : (formatInt version).length = 1 ∧ (spellString (ascii "m-1")).length = 5 ∧
      (spellString (ascii "lobby")).length = 7 ∧ (formatInt 1).length = 1 ∧
      noon.time.format.length = 20 := by decide +kernel
  rw [print_event_length jsonb_columns_print (wordy_event_encodable raw), print_html_escaped,
    letters]
  simp only [wordyEvent, spell_plain_length (text_plain _), text_length, sizes]
  omega

/-- The lone wordy frame is accepted, and its record has 189 bytes beside the
repeated letter. -/
theorem wordy_record (count : Nat) :
    ∃ system : System Unit,
      Reachable (step jsonbColumns fun _ => wordyFrame count) anyStep initial system ∧
      ∃ ack text row, system.sent () = [(.accepted ack, text)] ∧
        system.store.db.outbox = [row] ∧ row.messageID.text = ack.messageID ∧
        (entryOf row).roomID.length + (entryOf row).event.length = count + 189 := by
  obtain ⟨raw, parsed, acceptable⟩ := wordy_acceptable count
  have input := acceptable_input acceptable
  have made : wordyEvent raw =
      acceptedEvent (inputOf (wordyFrame count)) 1 (randomBytes 1) noon := by
    rw [input]
    rfl
  have valid : (wordyEvent raw).validate = .ok () := by
    rw [made]
    apply accepted_event_valid _ le_rfl
    rw [input]
    exact ⟨acceptable.client, acceptable.valid⟩
  have marshalled : (wordyEvent raw).marshal = some (render (structTree
      (eventFields (wordyEvent raw) (htmlEscaped (repeated count))))) := by
    have encodes : (wordyEvent raw).createdAt.encodes = true := exact_encodes noon.time.spelled
    rw [Event.marshal, if_pos encodes, encodeRaw, wordyEvent, parsed]
    rfl
  have inserted := lone_inserted acceptable (randomBytes 1) noon made
    (jsonb_columns_stored parsed) marshalled (jsonb_columns_stored (parse_render _))
  obtain ⟨system, reached, tables, sent⟩ := lone_acknowledged valid inserted
  refine ⟨system, reached, _, _, _, sent, by rw [tables]; rfl, rfl, ?_⟩
  have room : (ascii "lobby").length = 5 := by decide +kernel
  rw [entryOf, outboxRow]
  dsimp only
  rw [wordy_event_length, wordyEvent, room]
  omega

/-- The count for record batches: around the key and the value there are five
integers of 32 bits, one of 64 and a byte. -/
def batchSize (record : Record) : Nat :=
  5 * 5 + 10 + 1 + record.key.length + record.value.length

theorem batch_size_counts : CountsBytes batchSize 36 := ⟨fun _ => rfl⟩

theorem small_record_fits :
    ∃ (system : System Unit) (ack : AcceptedAck) (text : Bytes),
      Reachable (step jsonbColumns fun _ => wordyFrame 2) anyStep initial system ∧
      (Frame.accepted ack, text) ∈ system.sent () ∧
      ∃ event, ∃ message ∈ system.store.db.messages, ∃ row ∈ system.store.db.outbox,
        Fits batchSize (recordOf (entryOf row)) ∧
        36 + 149 + ack.roomID.length + (spellString ack.clientMessageID).length +
          (spellString ack.roomID).length + (formatInt ack.roomSeq).length +
          (event : Event).createdAt.format.length + message.payload.length ≤ maxRecordBytes := by
  obtain ⟨system, reached, ack, text, only, sent, outbox, _, size⟩ := wordy_record 2
  have answered : (Frame.accepted ack, text) ∈ system.sent () := by
    rw [sent]
    exact List.mem_singleton.mpr rfl
  obtain ⟨_, event, message, messageListed, row, rowListed, _, _, fitsIff⟩ :=
    accepted_record_fits_iff batchSize 36 batch_size_counts NumberLiteral.text jsonbColumns
      jsonb_columns_print _ system reached () ack text answered
  obtain rfl : row = only := by
    rw [outbox] at rowListed
    exact List.mem_singleton.mp rowListed
  have fits : Fits batchSize (recordOf (entryOf row)) := by
    rw [Fits, batch_size_counts.counts, recordOf, Nat.add_assoc, size]
    decide
  exact ⟨system, ack, text, reached, answered, event, message, messageListed, row, rowListed,
    fits, fitsIff.mp fits⟩

/-- A frame within its limit whose record is not. -/
theorem wordy_frame_unpublishable :
    PrintsJsonb NumberLiteral.text jsonbColumns ∧
      (wordyFrame 1048400).data.length ≤ maxMessageBytes ∧
      ∃ (system : System Unit) (ack : AcceptedAck) (text : Bytes),
        Reachable (step jsonbColumns fun _ => wordyFrame 1048400) anyStep initial system ∧
        (Frame.accepted ack, text) ∈ system.sent () ∧
        ∃ row ∈ system.store.db.outbox, row.messageID.text = ack.messageID ∧
          ∀ byteSize overhead, CountsBytes byteSize overhead →
            ¬Fits byteSize (recordOf (entryOf row)) := by
  refine ⟨jsonb_columns_print, ?_, ?_⟩
  · rw [wordy_frame_length, maxMessageBytes]
    decide
  · obtain ⟨system, reached, ack, text, row, sent, outbox, named, size⟩ := wordy_record 1048400
    refine ⟨system, ack, text, reached, ?_, row, ?_, named, ?_⟩
    · rw [sent]
      exact List.mem_singleton.mpr rfl
    · rw [outbox]
      exact List.mem_singleton.mpr rfl
    · intro byteSize overhead producer
      rw [Fits, producer.counts, recordOf, Nat.add_assoc, size, maxRecordBytes]
      omega

end Wordy

end ChatScale.RecordSize
