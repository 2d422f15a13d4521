import ChatScale.LiveHubModel
import ChatScale.MessageStoreContents

/-!
# From the outbox to the client

An accepted event is decoded five times on its way: by the relay, by the
delivery service, by the consumer of a message service inside an envelope of
its own, by that service again when it dispatches the event, and by the client.
Each of them has its checks. An event that `Accept` has written passes all of
them, and the client sees it as it was accepted.
-/

namespace ChatScale.DeliveryPipeline

open ChatScale.ByteText ChatScale.ByteEncodings ChatScale.CivilTime ChatScale.TransitionSystem
open ChatScale.JsonLiterals ChatScale.JsonTokens ChatScale.JsonText ChatScale.JsonValue
open ChatScale.JsonFields ChatScale.MessageContract ChatScale.MessageId
open ChatScale.MessageStoreModel (Columns Input MessageRow OutboxRow isText)
open ChatScale.OutboxRelayModel ChatScale.OutboxRelayOrder ChatScale.MessageStoreContents

set_option autoImplicit false

section Envelope

/-- `app.Message` of the delivery service, which has the fields of
`redisMessage` of the message service. -/
structure Message where
  key : Bytes
  value : Bytes
  headers : Option StringMap
  timestamp : Time

structure RecordHeader where
  key : Bytes
  value : Bytes

/-- A nil header is skipped. -/
def addHeader (values : StringMap) : Option RecordHeader → StringMap
  | none => values
  | some header => setEntry values (header.key, header.value)

def kafkaHeaders (headers : List (Option RecordHeader)) : Option StringMap :=
  if headers.isEmpty then none else some (headers.foldl addHeader ∅)

/-- What `ConsumeClaim` makes of a record. -/
def consumeClaim (record : Record) (headers : List (Option RecordHeader)) (timestamp : Time) :
    Message := ⟨record.key, record.value, kafkaHeaders headers, timestamp⟩

def messageFields (message : Message) : List (String × Json) :=
  [("Key", encodeByteSlice message.key), ("Value", encodeByteSlice message.value),
    ("Headers", encodeHeaders message.headers), ("Timestamp", encodeTime message.timestamp)]

/-- The text of a message whose timestamp has one. -/
def Message.marshal (message : Message) : Bytes := render (structTree (messageFields message))

def unmarshalMessage (text : Bytes) : Option Message := do
  let members ← structMembers text
  let key ← decodeField decodeByteSlice [] (ascii "Key") members
  let value ← decodeField decodeByteSlice [] (ascii "Value") members
  let headers ← decodeField decodeHeaders none (ascii "Headers") members
  let timestamp ← decodeField decodeTime zeroTime (ascii "Timestamp") members
  some ⟨key, value, headers, timestamp⟩

end Envelope

section Services

/-- The errors of `Handle`: "decode v1 message event", "validate v1 message
event", "Kafka room key does not match event room", "presence lookup for room",
"presence lookup returned an empty response", and that of `json.Marshal` in
`PublishMessage`. -/
inductive HandleError where
  | decode
  | validate (message : String)
  | roomKey (key room : Bytes)
  | lookup (room : Bytes)
  | emptyResponse
  | marshal
  deriving DecidableEq

/-- The answer of `IsConnected`: an error, a nil response, or instance names. -/
abbrev Presence := Bytes → Except Unit (Option (List Bytes))

/-- The second half of `Handle`: the instances the message is published to. -/
def route (presence : Presence) (room : Bytes) : Except HandleError (List Bytes) :=
  match presence room with
  | .error () => .error (.lookup room)
  | .ok none => .error .emptyResponse
  | .ok (some instanceNames) => .ok instanceNames

/-- `PublishMessage` up to its pipeline. -/
def serialize (message : Message) (instanceNames : List Bytes) : Except HandleError (List Bytes) :=
  if instanceNames.isEmpty || message.timestamp.encodes then .ok instanceNames
  else .error .marshal

/-- The result are the instances in the pipeline. -/
def handle (presence : Presence) (message : Message) : Except HandleError (List Bytes) :=
  match unmarshalEvent message.value with
  | none => .error .decode
  | some event =>
      match event.validate with
      | .error text => .error (.validate text)
      | .ok () =>
          if message.key ≠ event.roomID then .error (.roomKey message.key event.roomID)
          else (route presence event.roomID).bind (serialize message)

/-- A valid event in its own room goes where presence says. -/
theorem handle_valid {presence : Presence} {message : Message} {event : Event}
    (carried : unmarshalEvent message.value = some event) (valid : event.validate = .ok ())
    (keyed : message.key = event.roomID) :
    handle presence message = (route presence event.roomID).bind (serialize message) := by
  simp only [handle, carried, valid, keyed, ne_eq, not_true_eq_false, if_false]

theorem serialize_ok {message : Message} {instanceNames listed : List Bytes} :
    serialize message instanceNames = .ok listed ↔
      listed = instanceNames ∧ (listed = [] ∨ message.timestamp.encodes = true) := by
  unfold serialize
  split_ifs with serialized
  · rw [Bool.or_eq_true, List.isEmpty_iff] at serialized
    constructor
    · intro same
      cases same
      exact ⟨rfl, serialized⟩
    · rintro ⟨rfl, _⟩
      rfl
  · rw [Bool.or_eq_true, List.isEmpty_iff] at serialized
    constructor
    · intro same
      cases same
    · rintro ⟨rfl, other⟩
      exact absurd other serialized

/-- A timestamp with a text does not stand in the way. -/
theorem bind_serialize {message : Message} (encodes : message.timestamp.encodes = true)
    (routed : Except HandleError (List Bytes)) : routed.bind (serialize message) = routed := by
  cases routed with
  | error error => rfl
  | ok instanceNames => exact serialize_ok.mpr ⟨rfl, .inr encodes⟩

/-- What `Handle` publishes at all has a text. -/
theorem handle_serialized {presence : Presence} {message : Message} {instanceNames : List Bytes}
    (handled : handle presence message = .ok instanceNames) :
    instanceNames = [] ∨ message.timestamp.encodes = true := by
  unfold handle at handled
  split at handled
  · cases handled
  · split at handled
    · cases handled
    · split_ifs at handled
      cases routed : route presence _ with
      | error error =>
          rw [routed] at handled
          cases handled
      | ok listed =>
          rw [routed] at handled
          exact (serialize_ok.mp handled).2

def channelName (channelPrefix instanceName : Bytes) : Bytes := channelPrefix ++ instanceName

/-- The channels and texts `PublishMessage` sends. -/
def publishMessage (channelPrefix : Bytes) (message : Message) (instanceNames : List Bytes) :
    List (Bytes × Bytes) :=
  instanceNames.map fun name => (channelName channelPrefix name, message.marshal)

/-- What a consumer hands to `Dispatch`; it skips a text that it cannot decode
and an event under another room's key. -/
def consume (payload : Bytes) : Option Event := do
  let message ← unmarshalMessage payload
  let event ← unmarshalEvent message.value
  if event.roomID ≠ message.key then none else some event

inductive DecodedFrame where
  | accepted (ack : AcceptedAck)
  | rejected (ack : RejectedAck)
  | event (event : Event)
  deriving DecidableEq

inductive FrameError where
  | decodeType
  | decode
  | invalid (message : String)
  deriving DecidableEq

def frameType (data : Bytes) : Option Bytes := do
  let members ← structMembers data
  decodeField decodeString [] (ascii "type") members

/-- A decoded frame counts if it passes its own check. -/
def checkedFrame {Frame : Type} (decoded : Option Frame) (validate : Frame → Except String Unit)
    (kind : Frame → DecodedFrame) : Except FrameError DecodedFrame :=
  match decoded with
  | none => .error .decode
  | some frame =>
      match validate frame with
      | .error message => .error (.invalid message)
      | .ok () => .ok (kind frame)

def decodeServerFrame (data : Bytes) : Except FrameError DecodedFrame :=
  match frameType data with
  | none => .error .decodeType
  | some type =>
      if type = acceptedFrameType then
        checkedFrame (unmarshalAcceptedAck data) AcceptedAck.validate .accepted
      else if type = rejectedFrameType then
        checkedFrame (unmarshalRejectedAck data) RejectedAck.validate .rejected
      else checkedFrame (unmarshalEvent data) Event.validate .event

end Services

section EnvelopeRoundTrip

def messageFieldNames : List String := ["Key", "Value", "Headers", "Timestamp"]

theorem message_field_names (message : Message) :
    (messageFields message).map Prod.fst = messageFieldNames := rfl

theorem message_names_valid : ∀ name ∈ messageFieldNames, isValidUtf8 (ascii name) = true := by
  decide +kernel

theorem message_names_distinct : (messageFieldNames.map ascii).Nodup := by decide +kernel

theorem message_names_apart : FoldDistinct (messageFieldNames.map ascii) := by decide +kernel

theorem decodes_byte_slice {members : List Member} {name bytes : Bytes} {member : Member}
    (decides : Decides members name member (encodeByteSlice bytes)) :
    decodeField decodeByteSlice [] name members = some bytes := by
  rw [decode_field_single decodeByteSlice [] decides.only, decodeByteSlice, decides.value]
  simp only [encodeByteSlice]
  rw [value_plain_literal, decode_base64_encode]

/-- Headers are always read; texts that are not valid UTF-8 come back repaired. -/
theorem decodes_headers {members : List Member} {name : Bytes} {member : Member}
    {headers : Option StringMap} (decides : Decides members name member (encodeHeaders headers)) :
    ∃ read, decodeField decodeHeaders none name members = some read := by
  rw [decode_field_single decodeHeaders none decides.only, decodeHeaders, decides.value]
  cases headers with
  | none => exact ⟨none, rfl⟩
  | some map =>
      have entries (listed : List (Sigma fun _ : Bytes => Bytes)) :
          ∃ decoded, (listed.map fun header =>
            (StringLiteral.ofBytes header.1, encodeString header.2)).mapM decodeHeader =
              some decoded := by
        induction listed with
        | nil => exact ⟨[], rfl⟩
        | cons first others induction =>
            obtain ⟨decoded, same⟩ := induction
            rw [List.map_cons, List.mapM_cons, same]
            exact ⟨_, rfl⟩
      obtain ⟨decoded, same⟩ := entries
        (map.entries.mergeSort fun left right => decide (left.1 ≤ right.1))
      simp only [encodeHeaders]
      rw [same]
      exact ⟨_, rfl⟩

/-- The consumer reads the key and the value that the publisher has sent. -/
theorem unmarshal_message (message : Message) (encodes : message.timestamp.encodes = true) :
    ∃ headers timestamp, unmarshalMessage message.marshal =
      some { message with headers := headers, timestamp := timestamp } := by
  obtain ⟨members, found, decides⟩ := struct_decides (message_field_names message)
    message_names_valid message_names_distinct message_names_apart
  obtain ⟨_, key⟩ := decides 0 "Key" _ rfl
  obtain ⟨_, value⟩ := decides 1 "Value" _ rfl
  obtain ⟨_, headers⟩ := decides 2 "Headers" _ rfl
  obtain ⟨_, timestamp⟩ := decides 3 "Timestamp" _ rfl
  obtain ⟨read, headersRead⟩ := decodes_headers headers
  refine ⟨read, message.timestamp.inMinutes, ?_⟩
  simp only [unmarshalMessage, Message.marshal, found, decodes_byte_slice key,
    decodes_byte_slice value, headersRead, decodes_time timestamp (parse_time_format encodes),
    Option.bind_eq_bind, Option.bind_some]

end EnvelopeRoundTrip

section Events

variable {columns : Columns} {input : Input} {event : Event}

/-- What is assumed of a `jsonb` column: it takes JSON texts only and gives one
of the same value back. -/
def KeepsJson (columns : Columns) : Prop :=
  ∀ text stored, columns.jsonb text = some stored →
    ∃ tree kept, parse text = some tree ∧ parse stored = some kept ∧ StoredAs tree kept

/-- Two JSON texts with one value. -/
def SameValue (left right : Bytes) : Prop :=
  ∃ leftTree rightTree, parse left = some leftTree ∧ parse right = some rightTree ∧
    denote leftTree = denote rightTree

theorem same_value_trans {left middle right : Bytes} (first : SameValue left middle)
    (second : SameValue middle right) : SameValue left right := by
  obtain ⟨leftTree, tree, leftParsed, parsed, same⟩ := first
  obtain ⟨other, rightTree, otherParsed, rightParsed, otherSame⟩ := second
  cases parsed.symm.trans otherParsed
  exact ⟨leftTree, rightTree, leftParsed, rightParsed, same.trans otherSame⟩

theorem same_value_symm {left right : Bytes} (same : SameValue left right) :
    SameValue right left := by
  obtain ⟨leftTree, rightTree, leftParsed, rightParsed, equal⟩ := same
  exact ⟨rightTree, leftTree, rightParsed, leftParsed, equal.symm⟩

theorem column_value (keeps : KeepsJson columns) {text stored : Bytes}
    (kept : columns.jsonb text = some stored) : SameValue stored text := by
  obtain ⟨tree, storedTree, parsed, storedParsed, same⟩ := keeps text stored kept
  exact ⟨storedTree, tree, storedParsed, parsed, denote_stored_as same⟩

theorem drafted_encodable {id : Uuid} (drafted : Drafted input event id) : event.Encodable := by
  have positive := (event_validate_ok.mp drafted.valid).2.2.2.2.1
  have utf8 {text : Bytes} (accepted : isText text = true) : isValidUtf8 text = true :=
    (Bool.and_eq_true _ _ ▸ accepted).1
  obtain ⟨roomSeq, random, clock, rfl⟩ := drafted.made
  have versionFits : minInt64 ≤ version ∧ version ≤ maxInt64 := by decide
  refine ⟨(plain_text (text_plain _)).2.2, utf8 drafted.clientText, utf8 drafted.roomText,
    versionFits, ⟨?_, drafted.bound⟩, clock.time.spelled⟩
  exact le_trans (by decide) positive

/-- Only the payload of an event is respelled, and its check does not see the
spelling. -/
theorem respelled_valid {raw : Bytes} (valid : event.validate = .ok ())
    (same : SameValue raw event.payload) :
    ({ event with payload := raw } : Event).validate = .ok () := by
  obtain ⟨tree, _, parsed, _⟩ := same
  rw [event_validate_ok] at valid ⊢
  refine ⟨valid.1, valid.2.1, valid.2.2.1, valid.2.2.2.1, valid.2.2.2.2.1, valid.2.2.2.2.2.1, ?_⟩
  rw [isValid, parsed]
  rfl

theorem respelled_encodable (encodable : event.Encodable) (raw : Bytes) :
    ({ event with payload := raw } : Event).Encodable :=
  ⟨encodable.messageID, encodable.clientMessageID, encodable.roomID, encodable.version,
    encodable.roomSeq, encodable.createdAt⟩

/-- Every service decodes a stored event to the event that was accepted. -/
theorem stored_event_decoded {message : MessageRow} {entry : Entry} (keeps : KeepsJson columns)
    (writes : Writes columns input message entry event) :
    ∃ raw, unmarshalEvent entry.event = some { event with payload := raw } ∧
      SameValue raw event.payload := by
  obtain ⟨id, _, drafted, _⟩ := writes.message
  obtain ⟨serialized, stored, marshalled, kept, rfl⟩ := writes.entry
  obtain ⟨_, payload, payloadParsed, rfl⟩ := marshal_some marshalled
  obtain ⟨tree, storedTree, parsed, storedParsed, same⟩ := keeps _ stored kept
  cases (parse_render _).symm.trans parsed
  obtain ⟨raw, after, decoded, rawParsed, rawKept⟩ :=
    unmarshal_stored (drafted_encodable drafted) storedParsed same
  refine ⟨raw, decoded, after, payload, rawParsed, payloadParsed, ?_⟩
  rw [denote_stored_as rawKept, denote_html_escaped]

/-- The object of an event has no member for the type of a frame. -/
theorem event_frame_type {text : Bytes} (marshalled : event.marshal = some text) :
    frameType text = some [] := by
  obtain ⟨_, tree, _, rfl⟩ := marshal_some marshalled
  obtain ⟨members, found, _, others⟩ :=
    fills_members (event_fills event (htmlEscaped tree)) event_names_apart
  have absent : fieldMembers (ascii "type") members = [] := others _ (by decide +kernel)
  rw [frameType, found]
  exact decode_field_absent decodeString [] absent

/-- The client sees a dispatched event as an event. -/
theorem dispatched_event_shown (encodable : event.Encodable) (valid : event.validate = .ok ()) :
    ∃ frame raw, LiveHubModel.dispatchFrame event = some frame ∧
      decodeServerFrame frame = .ok (.event { event with payload := raw }) ∧
      SameValue raw event.payload := by
  obtain ⟨frame, marshalled⟩ := marshal_of_valid (event_validate_ok.mp valid).2.2.2.2.2.2
    (exact_encodes encodable.createdAt)
  obtain ⟨raw, payload, original, decoded, rawParsed, originalParsed, same⟩ :=
    unmarshal_marshal encodable marshalled
  have sameValue : SameValue raw event.payload :=
    ⟨payload, original, rawParsed, originalParsed, same⟩
  refine ⟨frame, raw, ?_, ?_, sameValue⟩
  · rw [LiveHubModel.dispatchFrame, valid]
    exact marshalled
  · have notAccepted : ¬([] : Bytes) = acceptedFrameType := by decide
    have notRejected : ¬([] : Bytes) = rejectedFrameType := by decide
    simp only [decodeServerFrame, event_frame_type marshalled, if_neg notAccepted,
      if_neg notRejected, decoded, checkedFrame, respelled_valid valid sameValue]

end Events

section Travel

/-- What the client is shown agrees with the accepted event and with the stored
payload. -/
structure ShownAs (shown event : Event) (payload : Bytes) : Prop where
  version : shown.version = event.version
  messageID : shown.messageID = event.messageID
  clientMessageID : shown.clientMessageID = event.clientMessageID
  roomID : shown.roomID = event.roomID
  roomSeq : shown.roomSeq = event.roomSeq
  createdAt : shown.createdAt.instant = event.createdAt.instant
  payload : SameValue shown.payload payload

/-- A hub that has the room starts to send a frame of the event to all
connections of the room, and a client shows that frame as the event. -/
def Reaches (decoded event : Event) (payload : Bytes) : Prop :=
  ∃ frame shown, decodeServerFrame frame = .ok (.event shown) ∧ ShownAs shown event payload ∧
    ∀ (Conn : Type) [DecidableEq Conn] (profiles : Conn → LiveHubModel.Profile)
      (state : LiveHubModel.State profiles) (conns targets : List Conn),
      state.dispatcher = .idle → state.hub.members event.roomID = some conns →
      targets.Perm conns → LiveHubModel.dispatchStep state decoded targets =
        some { state with dispatcher := .sending frame targets }

/-- The way of an outbox row, whatever Kafka adds to its record and whatever
presence answers; the timestamp of the record is one that has a JSON text. -/
structure Travels (message : MessageRow) (row : OutboxRow) (event : Event) : Prop where
  relayed : validateEntry (entryOf row) = .ok ()
  handled : ∀ presence headers (timestamp : Time), timestamp.encodes = true →
    handle presence (consumeClaim (recordOf (entryOf row)) headers timestamp) =
      route presence event.roomID
  delivered : ∀ headers (timestamp : Time) channelPrefix instanceNames,
    timestamp.encodes = true → ∀ published ∈
    publishMessage channelPrefix (consumeClaim (recordOf (entryOf row)) headers timestamp)
      instanceNames,
    (∃ received, unmarshalMessage published.2 = some received ∧ received.key = event.roomID ∧
      received.value = row.event) ∧
    ∃ decoded, consume published.2 = some decoded ∧ Reaches decoded event message.payload

variable {columns : Columns} {input : Input} {event : Event} {message : MessageRow}

theorem decoded_reaches {raw : Bytes} (encodable : event.Encodable)
    (valid : event.validate = .ok ()) (same : SameValue raw event.payload)
    (stored : SameValue message.payload event.payload) :
    Reaches { event with payload := raw } event message.payload := by
  obtain ⟨frame, shown, dispatched, decoded, shownSame⟩ :=
    dispatched_event_shown (respelled_encodable encodable raw) (respelled_valid valid same)
  refine ⟨frame, _, decoded, ⟨rfl, rfl, rfl, rfl, rfl, rfl, ?_⟩, ?_⟩
  · exact same_value_trans shownSame (same_value_trans same (same_value_symm stored))
  · intro Conn _ profiles state conns targets idle members listed
    simp only [LiveHubModel.dispatchStep, idle, dispatched, members, if_pos listed]

theorem consume_decoded {payload : Bytes} {envelope : Message} {decoded : Event}
    (received : unmarshalMessage payload = some envelope)
    (read : unmarshalEvent envelope.value = some decoded) (room : decoded.roomID = envelope.key) :
    consume payload = some decoded := by
  simp only [consume, received, read, room, Option.bind_eq_bind, Option.bind_some, ne_eq,
    not_true_eq_false, if_false]

/-- Every row that holds an event made by `Accept` goes all the way. -/
theorem written_row_travels {row : OutboxRow} (keeps : KeepsJson columns)
    (writes : Writes columns input message (entryOf row) event) : Travels message row event := by
  obtain ⟨raw, decoded, same⟩ := stored_event_decoded keeps writes
  obtain ⟨id, payload, drafted, kept, written⟩ := writes.message
  obtain ⟨serialized, stored, _, _, entry⟩ := writes.entry
  have value : (entryOf row).event = row.event := rfl
  have room : (entryOf row).roomID = event.roomID := by rw [entry]
  have valid := respelled_valid drafted.valid same
  rw [value] at decoded
  refine ⟨?_, ?_, ?_⟩
  · simp only [validateEntry, value, decoded, valid]
    rw [entry, if_neg]
    simp only [ne_eq, not_true_eq_false, or_self, not_false_eq_true]
  · intro presence headers timestamp encodes
    have carried : unmarshalEvent
        (consumeClaim (recordOf (entryOf row)) headers timestamp).value = some _ := decoded
    rw [handle_valid carried valid room, bind_serialize encodes]
  · intro headers timestamp channelPrefix instanceNames encodes published sent
    obtain ⟨name, _, rfl⟩ := List.mem_map.mp sent
    obtain ⟨read, readTime, received⟩ :=
      unmarshal_message (consumeClaim (recordOf (entryOf row)) headers timestamp) encodes
    refine ⟨⟨_, received, room, rfl⟩, { event with payload := raw }, ?_, ?_⟩
    · exact consume_decoded received decoded room.symm
    · apply decoded_reaches (drafted_encodable drafted) drafted.valid same
      rw [written]
      exact column_value keeps kept

end Travel

section Column

/-- Plain text is stored without escapes. -/
def keptString (literal : StringLiteral) : StringLiteral :=
  if plain : isPlainText literal.value = true then plainLiteral literal.value plain else literal

mutual

/-- A column that keeps the last member of every key. -/
def keptTree : Json → Json
  | .word name => .word name
  | .number literal => .number literal
  | .string literal => .string (keptString literal)
  | .array elements => .array (keptElements elements)
  | .object members => .object (keptMembers members)

def keptElements : List Json → List Json
  | [] => []
  | next :: others => keptTree next :: keptElements others

def keptMembers : List (StringLiteral × Json) → List (StringLiteral × Json)
  | [] => []
  | (name, value) :: others =>
      if (lastMember others name.value).isSome then keptMembers others
      else (name, keptTree value) :: keptMembers others

end

def jsonColumns : Columns := ⟨fun text => (parse text).map fun tree => render (keptTree tree),
  CivilTime.Time.stamp⟩

theorem kept_string_stored (literal : StringLiteral) :
    StoredAs (.string literal) (.string (keptString literal)) := by
  unfold keptString
  split_ifs with plain
  · exact .string _ _ (value_plain_literal plain) fun _ => rfl
  · exact .string _ _ rfl fun isPlain => absurd isPlain plain

theorem last_member_kept (members : List (StringLiteral × Json)) (key : Bytes) :
    lastMember (keptMembers members) key = (lastMember members key).map keptTree := by
  induction members with
  | nil => rw [keptMembers]; rfl
  | cons entry others induction =>
      obtain ⟨name, value⟩ := entry
      rw [keptMembers, lastMember]
      by_cases again : (lastMember others name.value).isSome = true
      · rw [if_pos again, induction]
        cases later : lastMember others key with
        | some _ => rfl
        | none =>
            have differ : ¬name.value = key := by
              intro same
              rw [same, later] at again
              cases again
            rw [if_neg differ]
      · rw [if_neg again, lastMember, induction]
        cases lastMember others key with
        | some _ => rfl
        | none =>
            by_cases same : name.value = key
            · rw [if_pos same, if_pos same]
              rfl
            · rw [if_neg same, if_neg same]
              rfl

theorem kept_members_distinct (members : List (StringLiteral × Json)) :
    ((keptMembers members).map fun entry => entry.1.value).Nodup := by
  induction members with
  | nil => rw [keptMembers]; exact List.nodup_nil
  | cons entry others induction =>
      obtain ⟨name, value⟩ := entry
      rw [keptMembers]
      split_ifs with again
      · exact induction
      · rw [List.map_cons, List.nodup_cons]
        refine ⟨?_, induction⟩
        intro member
        obtain ⟨other, listed, same⟩ := List.mem_map.mp member
        have present := last_member_present listed
        rw [same, last_member_kept, Option.isSome_map] at present
        exact again present

mutual

theorem kept_tree_stored (tree : Json) : StoredAs tree (keptTree tree) := by
  match tree with
  | .word name =>
      rw [keptTree]
      exact .word name
  | .number literal =>
      rw [keptTree]
      exact .number _ _ rfl fun _ => rfl
  | .string literal =>
      rw [keptTree]
      exact kept_string_stored literal
  | .array elements =>
      rw [keptTree]
      obtain ⟨length, each⟩ := kept_elements_stored elements
      exact .array _ _ length each
  | .object members =>
      rw [keptTree]
      refine .object _ _ (kept_members_distinct members) ?_ ?_
      · intro key
        rw [last_member_kept, Option.isSome_map]
      · intro key before after found kept
        rw [last_member_kept, found] at kept
        cases kept
        exact kept_members_stored members key before found

theorem kept_elements_stored (elements : List Json) :
    (keptElements elements).length = elements.length ∧
      ∀ (index : Nat) (before after : Json), elements[index]? = some before →
        (keptElements elements)[index]? = some after → StoredAs before after := by
  match elements with
  | [] =>
      rw [keptElements]
      exact ⟨rfl, fun _ _ _ found => nomatch found⟩
  | next :: others =>
      obtain ⟨length, each⟩ := kept_elements_stored others
      rw [keptElements]
      refine ⟨congrArg Nat.succ length, ?_⟩
      intro index before after found kept
      cases index with
      | zero =>
          cases found
          cases kept
          exact kept_tree_stored next
      | succ index => exact each index before after found kept

theorem kept_members_stored (members : List (StringLiteral × Json)) (key : Bytes) (before : Json)
    (found : lastMember members key = some before) : StoredAs before (keptTree before) := by
  match members with
  | [] => cases found
  | (name, value) :: others =>
      rw [lastMember] at found
      split at found
      · rename_i later same
        cases found
        exact kept_members_stored others key before same
      · by_cases same : name.value = key
        · rw [if_pos same, Option.some.injEq] at found
          rw [← found]
          exact kept_tree_stored value
        · rw [if_neg same] at found
          cases found

end

theorem json_columns_keep : KeepsJson jsonColumns := by
  intro text stored kept
  obtain ⟨tree, parsed, rfl⟩ := Option.map_eq_some_iff.mp kept
  exact ⟨tree, keptTree tree, parsed, parse_render _, kept_tree_stored tree⟩

end Column

section Results

variable {Caller Relay : Type} [Fintype Caller] [DecidableEq Caller] [DecidableEq Relay]

/-- In every state the store and its relays can reach: an event that `Accept`
reports as inserted is stored, every outbox row is that of an event `Accept`
made, each such row passes every check of the services and reaches the clients
as the event it was made from, no fetched entry blocks its room, and the topic
holds records of outbox rows only. -/
theorem accepted_events_delivered (environment : Environment Relay) (inputs : Caller → Input)
    (system : System Caller Relay) (keeps : KeepsJson environment.columns)
    (reached : Reachable (step environment inputs) anyStep initial system) :
    (∀ caller event, (system.store.calls caller).stage = .done (.accepted .inserted event) →
      Stored environment.columns (inputs caller) system.store.db event) ∧
    (∀ row ∈ system.store.db.outbox, ∃ caller event, ∃ message ∈ system.store.db.messages,
      Writes environment.columns (inputs caller) message (entryOf row) event) ∧
    (∀ caller event, ∀ message ∈ system.store.db.messages, ∀ row ∈ system.store.db.outbox,
      Writes environment.columns (inputs caller) message (entryOf row) event →
        Travels message row event) ∧
    (∀ limit, ∀ entry ∈ nextPending environment.collation system.store.db limit,
      validateEntry entry = .ok ()) ∧
    ∀ record ∈ system.log, ∃ row ∈ system.store.db.outbox, recordOf (entryOf row) = record := by
  have contents := reachable_contents reached
  have relays := reachable_relay_sound reached
  refine ⟨?_, contents.rows, ?_, ?_, ?_⟩
  · intro caller event returned
    have content := contents.calls caller
    unfold ContentSound at content
    rw [returned] at content
    exact content
  · intro caller event message _ row _ writes
    exact written_row_travels keeps writes
  · intro limit entry fetched
    obtain ⟨row, head, rfl⟩ := fetched_row fetched
    obtain ⟨_, _, _, _, writes⟩ := contents.rows row (pending_head head).1
    exact (written_row_travels keeps writes).relayed
  · intro record logged
    obtain ⟨entry, rfl, _, sound⟩ := relays.logged record logged
    obtain ⟨row, listed, rfl⟩ := sound.known
    exact ⟨row, listed, rfl⟩

/-- One client posts an object in which a key occurs twice. -/
def repeatedKey (_ : Unit) : Input where
  clientID := ascii "ann"
  request := ⟨ascii "send", 1, ascii "m-1", ascii "lobby",
    ascii "\x7b\"text\": \"old\", \"text\": \"a < b\"\x7d"⟩

def jsonRelay : Environment Unit :=
  ⟨jsonColumns, fun _ _ => true, fun _ => smallConfig⟩

theorem repeated_key_stored :
    ∃ system : System Unit Unit, Reachable (step jsonRelay repeatedKey) anyStep initial system ∧
      ∃ row, row ∈ system.store.db.outbox := by
  have ran : (runActions (step jsonRelay repeatedKey) anyStep initial
      ((MessageStoreInvariants.runOf () 1 9).map .store)).map
      (fun system => system.store.db.outbox.isEmpty) = some false := by
    decide +kernel
  obtain ⟨system, reached, filled⟩ := Option.map_eq_some_iff.mp ran
  exact ⟨system, reachable_run_actions reachable_start reached,
    List.exists_mem_of_ne_nil _ (List.isEmpty_eq_false_iff.mp filled)⟩

theorem repeated_key_delivered :
    ∃ system : System Unit Unit, Reachable (step jsonRelay repeatedKey) anyStep initial system ∧
      ∃ row ∈ system.store.db.outbox, ∃ message event, Travels message row event := by
  obtain ⟨system, reachable, row, listed⟩ := repeated_key_stored
  obtain ⟨_, rows, travels, _⟩ :=
    accepted_events_delivered jsonRelay repeatedKey system json_columns_keep reachable
  obtain ⟨caller, event, message, messageListed, writes⟩ := rows row listed
  exact ⟨system, reachable, row, listed, message, event,
    travels caller event message messageListed row listed writes⟩

end Results

end ChatScale.DeliveryPipeline
