import ChatScale.JsonFields

/-!
# The message contract

The frames and the event that all services share, with their checks and their
JSON form. Strings are byte strings, `RoomSeq` and `Version` are 64-bit
integers, a payload is the raw text of one JSON value.
-/

namespace ChatScale.MessageContract

open ChatScale.ByteText ChatScale.ByteEncodings ChatScale.CivilTime
open ChatScale.JsonLiterals ChatScale.JsonTokens ChatScale.JsonText ChatScale.JsonValue
open ChatScale.JsonFields

set_option autoImplicit false

/-- The contract version every frame carries. -/
def version : Int := 1

def sendFrameType : Bytes := ascii "send"

def acceptedFrameType : Bytes := ascii "accepted"

def rejectedFrameType : Bytes := ascii "rejected"

structure SendRequest where
  type : Bytes
  version : Int
  clientMessageID : Bytes
  roomID : Bytes
  payload : Bytes
  deriving DecidableEq

structure Event where
  version : Int
  messageID : Bytes
  clientMessageID : Bytes
  roomID : Bytes
  roomSeq : Int
  createdAt : Time
  payload : Bytes
  deriving DecidableEq

structure AcceptedAck where
  type : Bytes
  version : Int
  messageID : Bytes
  clientMessageID : Bytes
  roomID : Bytes
  roomSeq : Int
  createdAt : Time
  deriving DecidableEq

structure RejectedAck where
  type : Bytes
  version : Int
  clientMessageID : Bytes
  errorCode : Bytes
  deriving DecidableEq

section Validation

def require (holds : Bool) (message : String) : Except String Unit :=
  if holds then .ok () else .error message

def SendRequest.validate (request : SendRequest) : Except String Unit := do
  require (request.type == sendFrameType) "type must be send"
  require (request.version == MessageContract.version) "version must be 1"
  require (!isBlank request.clientMessageID) "client_message_id is required"
  require (!isBlank request.roomID) "room_id is required"
  require (isValid request.payload) "payload must be valid JSON"

def Event.validate (event : Event) : Except String Unit := do
  require (event.version == MessageContract.version) "version must be 1"
  require (!isBlank event.messageID) "message_id is required"
  require (!isBlank event.clientMessageID) "client_message_id is required"
  require (!isBlank event.roomID) "room_id is required"
  require (1 ≤ event.roomSeq) "room_seq must be positive"
  require (!event.createdAt.isZero) "created_at is required"
  require (isValid event.payload) "payload must be valid JSON"

def AcceptedAck.validate (ack : AcceptedAck) : Except String Unit := do
  require (ack.type == acceptedFrameType) "type must be accepted"
  require (ack.version == MessageContract.version) "version must be 1"
  require (!isBlank ack.messageID) "message_id is required"
  require (!isBlank ack.clientMessageID) "client_message_id is required"
  require (!isBlank ack.roomID) "room_id is required"
  require (1 ≤ ack.roomSeq) "room_seq must be positive"
  require (!ack.createdAt.isZero) "created_at is required"

def RejectedAck.validate (ack : RejectedAck) : Except String Unit := do
  require (ack.type == rejectedFrameType) "type must be rejected"
  require (ack.version == MessageContract.version) "version must be 1"
  require (!isBlank ack.errorCode) "error_code is required"

theorem require_then {holds : Bool} {message : String} {next : Except String Unit} :
    (do require holds message; next) = .ok () ↔ holds = true ∧ next = .ok () := by
  cases holds with
  | false => simp [require, bind, Except.bind]
  | true => simp [require, bind, Except.bind]

theorem require_ok {holds : Bool} {message : String} :
    require holds message = .ok () ↔ holds = true := by
  cases holds <;> simp [require]

theorem request_validate_ok {request : SendRequest} :
    request.validate = .ok () ↔ request.type = sendFrameType ∧ request.version = version ∧
      isBlank request.clientMessageID = false ∧ isBlank request.roomID = false ∧
      isValid request.payload = true := by
  simp only [SendRequest.validate, require_then, require_ok, beq_iff_eq, Bool.not_eq_true']

theorem event_validate_ok {event : Event} :
    event.validate = .ok () ↔ event.version = version ∧ isBlank event.messageID = false ∧
      isBlank event.clientMessageID = false ∧ isBlank event.roomID = false ∧
      1 ≤ event.roomSeq ∧ event.createdAt.isZero = false ∧ isValid event.payload = true := by
  simp only [Event.validate, require_then, require_ok, beq_iff_eq, Bool.not_eq_true',
    decide_eq_true_eq]

end Validation

section Encoding

def eventFields (event : Event) (payload : Json) : List (String × Json) :=
  [("version", encodeInt event.version), ("message_id", encodeString event.messageID),
    ("client_message_id", encodeString event.clientMessageID),
    ("room_id", encodeString event.roomID), ("room_seq", encodeInt event.roomSeq),
    ("created_at", encodeTime event.createdAt), ("payload", payload)]

/-- `json.Marshal` of an event; it fails when the time has no text, and when the
payload is no JSON value. -/
def Event.marshal (event : Event) : Option Bytes :=
  if event.createdAt.encodes then
    (encodeRaw event.payload).map fun payload => render (structTree (eventFields event payload))
  else none

theorem marshal_encodes {event : Event} (encodes : event.createdAt.encodes = true) :
    event.marshal = (encodeRaw event.payload).map fun payload =>
      render (structTree (eventFields event payload)) :=
  if_pos encodes

theorem marshal_none {event : Event} (refused : event.createdAt.encodes = false) :
    event.marshal = none := by
  rw [Event.marshal, refused]
  rfl

theorem marshal_some {event : Event} {text : Bytes} (marshalled : event.marshal = some text) :
    event.createdAt.encodes = true ∧ ∃ tree, parse event.payload = some tree ∧
      text = render (structTree (eventFields event (htmlEscaped tree))) := by
  unfold Event.marshal at marshalled
  split_ifs at marshalled with encodes
  rw [encodeRaw, Option.map_map] at marshalled
  obtain ⟨tree, parsed, same⟩ := Option.map_eq_some_iff.mp marshalled
  exact ⟨encodes, tree, parsed, same.symm⟩

theorem marshal_of_valid {event : Event} (checked : isValid event.payload = true)
    (encodes : event.createdAt.encodes = true) :
    ∃ serialized, event.marshal = some serialized := by
  obtain ⟨tree, parsed⟩ := Option.isSome_iff_exists.mp checked
  exact ⟨_, by rw [marshal_encodes encodes, encodeRaw, parsed]; rfl⟩

/-- The text of an acknowledgement whose time has one. -/
def AcceptedAck.marshal (ack : AcceptedAck) : Bytes :=
  render (structTree [("type", encodeString ack.type), ("version", encodeInt ack.version),
    ("message_id", encodeString ack.messageID),
    ("client_message_id", encodeString ack.clientMessageID),
    ("room_id", encodeString ack.roomID), ("room_seq", encodeInt ack.roomSeq),
    ("created_at", encodeTime ack.createdAt)])

/-- An empty `client_message_id` is left out. -/
def RejectedAck.marshal (ack : RejectedAck) : Bytes :=
  render (structTree ([("type", encodeString ack.type), ("version", encodeInt ack.version)] ++
    (if ack.clientMessageID = [] then []
      else [("client_message_id", encodeString ack.clientMessageID)]) ++
    [("error_code", encodeString ack.errorCode)]))

end Encoding

section Decoding

def unmarshalEvent (text : Bytes) : Option Event := do
  let members ← structMembers text
  let version ← decodeField decodeInt 0 (ascii "version") members
  let messageID ← decodeField decodeString [] (ascii "message_id") members
  let clientMessageID ← decodeField decodeString [] (ascii "client_message_id") members
  let roomID ← decodeField decodeString [] (ascii "room_id") members
  let roomSeq ← decodeField decodeInt 0 (ascii "room_seq") members
  let createdAt ← decodeField decodeTime zeroTime (ascii "created_at") members
  let payload ← decodeField decodeRaw [] (ascii "payload") members
  some ⟨version, messageID, clientMessageID, roomID, roomSeq, createdAt, payload⟩

def unmarshalSendRequest (text : Bytes) : Option SendRequest := do
  let members ← structMembers text
  let type ← decodeField decodeString [] (ascii "type") members
  let version ← decodeField decodeInt 0 (ascii "version") members
  let clientMessageID ← decodeField decodeString [] (ascii "client_message_id") members
  let roomID ← decodeField decodeString [] (ascii "room_id") members
  let payload ← decodeField decodeRaw [] (ascii "payload") members
  some ⟨type, version, clientMessageID, roomID, payload⟩

def unmarshalAcceptedAck (text : Bytes) : Option AcceptedAck := do
  let members ← structMembers text
  let type ← decodeField decodeString [] (ascii "type") members
  let version ← decodeField decodeInt 0 (ascii "version") members
  let messageID ← decodeField decodeString [] (ascii "message_id") members
  let clientMessageID ← decodeField decodeString [] (ascii "client_message_id") members
  let roomID ← decodeField decodeString [] (ascii "room_id") members
  let roomSeq ← decodeField decodeInt 0 (ascii "room_seq") members
  let createdAt ← decodeField decodeTime zeroTime (ascii "created_at") members
  some ⟨type, version, messageID, clientMessageID, roomID, roomSeq, createdAt⟩

def unmarshalRejectedAck (text : Bytes) : Option RejectedAck := do
  let members ← structMembers text
  let type ← decodeField decodeString [] (ascii "type") members
  let version ← decodeField decodeInt 0 (ascii "version") members
  let clientMessageID ← decodeField decodeString [] (ascii "client_message_id") members
  let errorCode ← decodeField decodeString [] (ascii "error_code") members
  some ⟨type, version, clientMessageID, errorCode⟩

def eventFieldNames : List String :=
  ["version", "message_id", "client_message_id", "room_id", "room_seq", "created_at", "payload"]

def eventNames : List Bytes := eventFieldNames.map ascii

theorem event_names_apart : FoldDistinct eventNames := by decide +kernel

theorem event_field_names {event : Event} {payload : Json} :
    (eventFields event payload).map Prod.fst = eventFieldNames := rfl

theorem event_names_valid : ∀ name ∈ eventFieldNames, isValidUtf8 (ascii name) = true := by
  decide +kernel

theorem event_names_distinct : eventNames.Nodup := by decide +kernel

/-- Members that spell the fields of an event, with a tree for its payload. -/
structure EventMembers (entries : List (StringLiteral × Json)) (event : Event) (payload : Json) :
    Prop where
  version : ∃ literal, lastMember entries (ascii "version") = some (.number literal) ∧
    parseInt64 literal.text = some event.version
  messageID : ∃ literal, lastMember entries (ascii "message_id") = some (.string literal) ∧
    literal.value = event.messageID
  clientMessageID : ∃ literal,
    lastMember entries (ascii "client_message_id") = some (.string literal) ∧
      literal.value = event.clientMessageID
  roomID : ∃ literal, lastMember entries (ascii "room_id") = some (.string literal) ∧
    literal.value = event.roomID
  roomSeq : ∃ literal, lastMember entries (ascii "room_seq") = some (.number literal) ∧
    parseInt64 literal.text = some event.roomSeq
  createdAt : ∃ literal, lastMember entries (ascii "created_at") = some (.string literal) ∧
    parseTime literal.text = some event.createdAt
  payload : lastMember entries (ascii "payload") = some payload

theorem decodes_int {members : List Member} {name : Bytes} {member : Member}
    {literal : NumberLiteral} {value : Int}
    (decides : Decides members name member (.number literal))
    (read : parseInt64 literal.text = some value) :
    decodeField decodeInt 0 name members = some value := by
  rw [decode_field_single decodeInt 0 decides.only, decodeInt, decides.value]
  exact read

theorem decodes_string {members : List Member} {name : Bytes} {member : Member}
    {literal : StringLiteral} (decides : Decides members name member (.string literal)) :
    decodeField decodeString [] name members = some literal.value := by
  rw [decode_field_single decodeString [] decides.only, decodeString, decides.value]

theorem decodes_time {members : List Member} {name : Bytes} {member : Member}
    {literal : StringLiteral} {time : Time}
    (decides : Decides members name member (.string literal))
    (read : parseTime literal.text = some time) :
    decodeField decodeTime zeroTime name members = some time := by
  rw [decode_field_single decodeTime zeroTime decides.only, decodeTime, decides.value]
  exact read

/-- A text with an object that spells an event is decoded to that event, the
payload being some text of its tree. -/
theorem unmarshal_event {text : Bytes} {entries : List (StringLiteral × Json)} {event : Event}
    {payload : Json} (fills : Fills text eventNames entries)
    (spells : EventMembers entries event payload) :
    ∃ raw, unmarshalEvent text = some { event with payload := raw } ∧
      parse raw = some payload := by
  obtain ⟨members, found, decides, _⟩ := fills_members fills event_names_apart
  obtain ⟨versionText, versionLast, versionRead⟩ := spells.version
  obtain ⟨idText, idLast, idRead⟩ := spells.messageID
  obtain ⟨clientText, clientLast, clientRead⟩ := spells.clientMessageID
  obtain ⟨roomText, roomLast, roomRead⟩ := spells.roomID
  obtain ⟨seqText, seqLast, seqRead⟩ := spells.roomSeq
  obtain ⟨timeText, timeLast, timeRead⟩ := spells.createdAt
  obtain ⟨_, version⟩ := decides _ (by simp [eventNames, eventFieldNames]) _ versionLast
  obtain ⟨_, messageID⟩ := decides _ (by simp [eventNames, eventFieldNames]) _ idLast
  obtain ⟨_, clientMessageID⟩ := decides _ (by simp [eventNames, eventFieldNames]) _ clientLast
  obtain ⟨_, roomID⟩ := decides _ (by simp [eventNames, eventFieldNames]) _ roomLast
  obtain ⟨_, roomSeq⟩ := decides _ (by simp [eventNames, eventFieldNames]) _ seqLast
  obtain ⟨_, createdAt⟩ := decides _ (by simp [eventNames, eventFieldNames]) _ timeLast
  obtain ⟨member, raw⟩ := decides _ (by simp [eventNames, eventFieldNames]) _ spells.payload
  refine ⟨spell member.raw, ?_, raw.raw⟩
  simp only [unmarshalEvent, found, decodes_int version versionRead, decodes_string messageID,
    decodes_string clientMessageID, decodes_string roomID, decodes_int roomSeq seqRead,
    decodes_time createdAt timeRead, decode_field_single decodeRaw [] raw.only, decodeRaw,
    idRead, clientRead, roomRead, Option.bind_eq_bind, Option.bind_some]

end Decoding

section RoundTrip

/-- Texts and a time that JSON carries unchanged, and integers that fit 64 bits. -/
structure Event.Encodable (event : Event) : Prop where
  messageID : isValidUtf8 event.messageID = true
  clientMessageID : isValidUtf8 event.clientMessageID = true
  roomID : isValidUtf8 event.roomID = true
  version : minInt64 ≤ event.version ∧ event.version ≤ maxInt64
  roomSeq : minInt64 ≤ event.roomSeq ∧ event.roomSeq ≤ maxInt64
  createdAt : event.createdAt.isExact = true

theorem event_member (event : Event) (payload : Json) (index : Nat) (name : String)
    (value : Json) (placed : (eventFields event payload)[index]? = some (name, value)) :
    lastMember ((eventFields event payload).map fun field => (fieldName field.1, field.2))
      (ascii name) = some value :=
  struct_member event_field_names event_names_valid event_names_distinct index placed

/-- The members of the text an event is marshalled to. -/
theorem event_members (event : Event) (payload : Json) (encodable : event.Encodable) :
    EventMembers ((eventFields event payload).map fun field => (fieldName field.1, field.2))
      event payload where
  version := ⟨_, event_member event payload 0 "version" _ rfl,
    parse_int_format _ encodable.version.1 encodable.version.2⟩
  messageID := ⟨_, event_member event payload 1 "message_id" _ rfl,
    value_of_valid encodable.messageID⟩
  clientMessageID :=
    ⟨_, event_member event payload 2 "client_message_id" _ rfl,
      value_of_valid encodable.clientMessageID⟩
  roomID := ⟨_, event_member event payload 3 "room_id" _ rfl,
    value_of_valid encodable.roomID⟩
  roomSeq := ⟨_, event_member event payload 4 "room_seq" _ rfl,
    parse_int_format _ encodable.roomSeq.1 encodable.roomSeq.2⟩
  createdAt := ⟨_, event_member event payload 5 "created_at" _ rfl,
    parse_exact_format encodable.createdAt⟩
  payload := event_member event payload 6 "payload" _ rfl

theorem event_fills (event : Event) (payload : Json) :
    Fills (render (structTree (eventFields event payload))) eventNames
      ((eventFields event payload).map fun field => (fieldName field.1, field.2)) :=
  struct_fills event_field_names event_names_valid event_names_distinct

/-- Decoding a marshalled event gives the event back, with a payload of the same
value. -/
theorem unmarshal_marshal {event : Event} {text : Bytes} (encodable : event.Encodable)
    (marshalled : event.marshal = some text) :
    ∃ raw payload tree, unmarshalEvent text = some { event with payload := raw } ∧
      parse raw = some payload ∧ parse event.payload = some tree ∧
      denote payload = denote tree := by
  obtain ⟨_, tree, parsed, rfl⟩ := marshal_some marshalled
  obtain ⟨raw, decoded, same⟩ := unmarshal_event (event_fills event (htmlEscaped tree))
    (event_members event (htmlEscaped tree) encodable)
  exact ⟨raw, htmlEscaped tree, tree, decoded, same, parsed, denote_html_escaped tree⟩

theorem stored_member {entries stored : List (StringLiteral × Json)}
    (kept : StoredAs (.object entries) (.object stored)) {name : Bytes} {before : Json}
    (found : lastMember entries name = some before) :
    ∃ after, lastMember stored name = some after ∧ StoredAs before after := by
  cases kept with
  | object _ _ distinct keys each =>
      have present := keys name
      rw [found, Option.isSome_some] at present
      obtain ⟨after, storedFound⟩ := Option.isSome_iff_exists.mp present
      exact ⟨after, storedFound, each name before after found storedFound⟩

theorem stored_int {entries stored : List (StringLiteral × Json)}
    (kept : StoredAs (.object entries) (.object stored)) {name : Bytes} {value : Int}
    (found : lastMember entries name = some (encodeInt value)) (lower : minInt64 ≤ value)
    (upper : value ≤ maxInt64) :
    ∃ literal, lastMember stored name = some (.number literal) ∧
      parseInt64 literal.text = some value := by
  obtain ⟨after, storedFound, same⟩ := stored_member kept found
  cases same with
  | number _ literal _ plain =>
      refine ⟨literal, storedFound, ?_⟩
      rw [plain (format_int_literal value).2]
      exact parse_int_format value lower upper

theorem stored_string {entries stored : List (StringLiteral × Json)}
    (kept : StoredAs (.object entries) (.object stored)) {name text : Bytes}
    (found : lastMember entries name = some (encodeString text))
    (valid : isValidUtf8 text = true) :
    ∃ literal, lastMember stored name = some (.string literal) ∧ literal.value = text := by
  obtain ⟨after, storedFound, same⟩ := stored_member kept found
  cases same with
  | string _ literal value _ => exact ⟨literal, storedFound, value.trans (value_of_valid valid)⟩

theorem stored_time {entries stored : List (StringLiteral × Json)}
    (kept : StoredAs (.object entries) (.object stored)) {name : Bytes} {time : Time}
    (found : lastMember entries name = some (encodeTime time)) (spelled : time.isExact = true) :
    ∃ literal, lastMember stored name = some (.string literal) ∧
      parseTime literal.text = some time := by
  obtain ⟨after, storedFound, same⟩ := stored_member kept found
  cases same with
  | string _ literal _ plain =>
      have value := value_plain_literal (format_time_plain time)
      refine ⟨literal, storedFound, ?_⟩
      rw [plain (by rw [value]; exact format_time_plain time), value]
      exact parse_exact_format spelled

/-- What a column of JSON gives back for a marshalled event still decodes to
that event. -/
theorem unmarshal_stored {event : Event} {payload : Json} {text : Bytes} {tree : Json}
    (encodable : event.Encodable) (parsed : parse text = some tree)
    (kept : StoredAs (structTree (eventFields event payload)) tree) :
    ∃ raw after, unmarshalEvent text = some { event with payload := raw } ∧
      parse raw = some after ∧ StoredAs payload after := by
  unfold structTree at kept
  cases kept with
  | object entries stored distinct keys each =>
      have whole := StoredAs.object _ stored distinct keys each
      have member := event_member event payload
      obtain ⟨after, found, same⟩ :=
        stored_member whole (member 6 "payload" _ rfl)
      have known : ∀ entry ∈ (eventFields event payload).map
          fun field => (fieldName field.1, field.2), entry.1.value ∈ eventNames :=
        (event_fills event payload).known
      have spells : EventMembers stored event after :=
        { version := stored_int whole (member 0 "version" _ rfl)
            encodable.version.1 encodable.version.2
          messageID := stored_string whole (member 1 "message_id" _ rfl)
            encodable.messageID
          clientMessageID :=
            stored_string whole (member 2 "client_message_id" _ rfl)
              encodable.clientMessageID
          roomID := stored_string whole (member 3 "room_id" _ rfl)
            encodable.roomID
          roomSeq := stored_int whole (member 4 "room_seq" _ rfl)
            encodable.roomSeq.1 encodable.roomSeq.2
          createdAt := stored_time whole (member 5 "created_at" _ rfl) encodable.createdAt
          payload := found }
      obtain ⟨raw, decoded, parsedRaw⟩ := unmarshal_event (fills_stored parsed whole known) spells
      exact ⟨raw, after, decoded, parsedRaw, same⟩

end RoundTrip

end ChatScale.MessageContract
