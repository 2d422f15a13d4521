import ChatScale.DeliveryPipeline
import ChatScale.IngestAcceptance

/-!
# The frames between a client and the service

The client sends a request with `WriteJSON` and tells the answers apart by
their `type`. A request that passes its own check arrives with the same fields
and a payload of the same value, and an answer whose texts are valid UTF-8
comes back as it was sent. No answer is ever taken for an event.
-/

namespace ChatScale.ClientFrames

open ChatScale.ByteText ChatScale.ByteEncodings ChatScale.CivilTime
open ChatScale.JsonLiterals ChatScale.JsonTokens ChatScale.JsonText ChatScale.JsonValue
open ChatScale.JsonFields ChatScale.MessageContract ChatScale.DeliveryPipeline
open ChatScale.IngestModel (acceptedAck rejectedAck)
open ChatScale.IngestAcceptance (requestFieldNames request_names_valid request_names_distinct
  request_names_apart)

set_option autoImplicit false

section Names

def acceptedFieldNames : List String :=
  ["type", "version", "message_id", "client_message_id", "room_id", "room_seq", "created_at"]

def rejectedFieldNames : List String := ["type", "version", "client_message_id", "error_code"]

def shortFieldNames : List String := ["type", "version", "error_code"]

/-- The names are encoded as they are, and no two are taken for one another. -/
structure FieldNames (names : List String) : Prop where
  valid : ∀ name ∈ names, isValidUtf8 (ascii name) = true
  distinct : (names.map ascii).Nodup
  apart : FoldDistinct (names.map ascii)

theorem frame_names (names : List String)
    (listed : names ∈ [acceptedFieldNames, rejectedFieldNames, shortFieldNames]) :
    FieldNames names := by
  have sound : ∀ names ∈ [acceptedFieldNames, rejectedFieldNames, shortFieldNames],
      (∀ name ∈ names, isValidUtf8 (ascii name) = true) ∧ (names.map ascii).Nodup ∧
        FoldDistinct (names.map ascii) := by
    decide +kernel
  rcases sound names listed with ⟨valid, distinct, apart⟩
  exact ⟨valid, distinct, apart⟩

theorem accepted_names : FieldNames acceptedFieldNames := frame_names _ (by simp)

theorem rejected_names : FieldNames rejectedFieldNames := frame_names _ (by simp)

theorem short_names : FieldNames shortFieldNames := frame_names _ (by simp)

theorem frame_type_valid (type : Bytes)
    (listed : type ∈ [acceptedFrameType, rejectedFrameType, sendFrameType]) :
    isValidUtf8 type = true := by
  have valid : ∀ type ∈ [acceptedFrameType, rejectedFrameType, sendFrameType],
      isValidUtf8 type = true := by
    decide +kernel
  exact valid type listed

end Names

section Accepted

/-- Texts that JSON carries unchanged, integers that fit 64 bits, and a time that
is read back. -/
structure AcceptedEncodable (ack : AcceptedAck) : Prop where
  messageID : isValidUtf8 ack.messageID = true
  clientMessageID : isValidUtf8 ack.clientMessageID = true
  roomID : isValidUtf8 ack.roomID = true
  version : minInt64 ≤ ack.version ∧ ack.version ≤ maxInt64
  roomSeq : minInt64 ≤ ack.roomSeq ∧ ack.roomSeq ≤ maxInt64
  createdAt : ack.createdAt.isExact = true

def acceptedFields (ack : AcceptedAck) : List (String × Json) :=
  [("type", encodeString ack.type), ("version", encodeInt ack.version),
    ("message_id", encodeString ack.messageID),
    ("client_message_id", encodeString ack.clientMessageID),
    ("room_id", encodeString ack.roomID), ("room_seq", encodeInt ack.roomSeq),
    ("created_at", encodeTime ack.createdAt)]

theorem accepted_decides (ack : AcceptedAck) :
    ∃ members, structMembers ack.marshal = some members ∧
      ∀ (index : Nat) (name : String) (value : Json),
        (acceptedFields ack)[index]? = some (name, value) →
          ∃ member, Decides members (ascii name) member value := by
  have named : (acceptedFields ack).map Prod.fst = acceptedFieldNames := rfl
  exact struct_decides named accepted_names.valid accepted_names.distinct accepted_names.apart

theorem accepted_frame_type {ack : AcceptedAck} (typed : ack.type = acceptedFrameType) :
    frameType ack.marshal = some acceptedFrameType := by
  rcases accepted_decides ack with ⟨members, found, decides⟩
  rcases decides 0 "type" _ rfl with ⟨_, type⟩
  have text : isValidUtf8 ack.type = true :=
    frame_type_valid _ (by simp [typed])
  simp only [frameType, found, Option.bind_eq_bind, Option.bind_some, decodes_string type]
  rw [value_of_valid text, typed]

theorem unmarshal_accepted {ack : AcceptedAck} (typed : ack.type = acceptedFrameType)
    (encodable : AcceptedEncodable ack) : unmarshalAcceptedAck ack.marshal = some ack := by
  rcases accepted_decides ack with ⟨members, found, decides⟩
  rcases decides 0 "type" _ rfl with ⟨_, type⟩
  rcases decides 1 "version" _ rfl with ⟨_, version⟩
  rcases decides 2 "message_id" _ rfl with ⟨_, messageID⟩
  rcases decides 3 "client_message_id" _ rfl with ⟨_, clientMessageID⟩
  rcases decides 4 "room_id" _ rfl with ⟨_, roomID⟩
  rcases decides 5 "room_seq" _ rfl with ⟨_, roomSeq⟩
  rcases decides 6 "created_at" _ rfl with ⟨_, createdAt⟩
  have text : isValidUtf8 ack.type = true :=
    frame_type_valid _ (by simp [typed])
  have versionRead := parse_int_format _ encodable.version.1 encodable.version.2
  have seqRead := parse_int_format _ encodable.roomSeq.1 encodable.roomSeq.2
  simp only [unmarshalAcceptedAck, found, Option.bind_eq_bind, Option.bind_some,
    decodes_string type, decodes_int version versionRead, decodes_string messageID,
    decodes_string clientMessageID, decodes_string roomID, decodes_int roomSeq seqRead,
    decodes_time createdAt (parse_exact_format encodable.createdAt), value_of_valid text,
    value_of_valid encodable.messageID, value_of_valid encodable.clientMessageID,
    value_of_valid encodable.roomID]

/-- The client reads a valid acknowledgement as it was sent. -/
theorem accepted_frame_decoded {ack : AcceptedAck} (valid : ack.validate = .ok ())
    (encodable : AcceptedEncodable ack) :
    decodeServerFrame ack.marshal = .ok (.accepted ack) := by
  have typed : ack.type = acceptedFrameType := by
    have checked := valid
    rw [AcceptedAck.validate, require_then] at checked
    exact beq_iff_eq.mp checked.1
  simp only [decodeServerFrame, accepted_frame_type typed, if_true, checkedFrame,
    unmarshal_accepted typed encodable, valid]

end Accepted

section Rejected

def rejectedFields (ack : RejectedAck) : List (String × Json) :=
  [("type", encodeString ack.type), ("version", encodeInt ack.version)] ++
    (if ack.clientMessageID = [] then []
      else [("client_message_id", encodeString ack.clientMessageID)]) ++
    [("error_code", encodeString ack.errorCode)]

theorem short_names_others :
    ∀ other ∈ shortFieldNames.map ascii, foldName other ≠ foldName (ascii "client_message_id") := by
  decide +kernel

/-- What decides the fields of a rejection; an empty `client_message_id` has no
member. -/
structure RejectedMembers (ack : RejectedAck) (members : List Member) : Prop where
  type : ∃ member, Decides members (ascii "type") member (encodeString ack.type)
  version : ∃ member, Decides members (ascii "version") member (encodeInt ack.version)
  errorCode : ∃ member, Decides members (ascii "error_code") member (encodeString ack.errorCode)
  named : ack.clientMessageID ≠ [] → ∃ member,
    Decides members (ascii "client_message_id") member (encodeString ack.clientMessageID)
  omitted : ack.clientMessageID = [] → fieldMembers (ascii "client_message_id") members = []

theorem rejected_decides (ack : RejectedAck) :
    ∃ members, structMembers ack.marshal = some members ∧ RejectedMembers ack members := by
  have marshalled : ack.marshal = render (structTree (rejectedFields ack)) := rfl
  by_cases empty : ack.clientMessageID = []
  · have fields : rejectedFields ack = [("type", encodeString ack.type),
        ("version", encodeInt ack.version), ("error_code", encodeString ack.errorCode)] := by
      rw [rejectedFields, if_pos empty]
      rfl
    have named : (rejectedFields ack).map Prod.fst = shortFieldNames := by
      rw [fields]
      rfl
    rcases fills_members (struct_fills named short_names.valid short_names.distinct)
      short_names.apart with ⟨members, found, decides, others⟩
    have member (index : Nat) (name : String) (value : Json)
        (placed : (rejectedFields ack)[index]? = some (name, value))
        (listed : ascii name ∈ shortFieldNames.map ascii) :
        ∃ member, Decides members (ascii name) member value :=
      decides _ listed value
        (struct_member named short_names.valid short_names.distinct index placed)
    refine ⟨members, marshalled ▸ found, ?_, ?_, ?_, ?_, ?_⟩
    · exact member 0 _ _ (by rw [fields]; rfl) (by simp [shortFieldNames])
    · exact member 1 _ _ (by rw [fields]; rfl) (by simp [shortFieldNames])
    · exact member 2 _ _ (by rw [fields]; rfl) (by simp [shortFieldNames])
    · intro filled
      exact absurd empty filled
    · intro _
      exact others _ short_names_others
  · have fields : rejectedFields ack = [("type", encodeString ack.type),
        ("version", encodeInt ack.version),
        ("client_message_id", encodeString ack.clientMessageID),
        ("error_code", encodeString ack.errorCode)] := by
      rw [rejectedFields, if_neg empty]
      rfl
    have named : (rejectedFields ack).map Prod.fst = rejectedFieldNames := by
      rw [fields]
      rfl
    rcases struct_decides named rejected_names.valid rejected_names.distinct rejected_names.apart
      with ⟨members, found, decides⟩
    rw [fields] at decides
    refine ⟨members, marshalled ▸ found, decides 0 _ _ rfl, decides 1 _ _ rfl, decides 3 _ _ rfl,
      fun _ => decides 2 _ _ rfl, ?_⟩
    intro omitted
    exact absurd omitted empty

theorem rejected_client_message {ack : RejectedAck} {members : List Member}
    (filled : RejectedMembers ack members) (text : isValidUtf8 ack.clientMessageID = true) :
    decodeField decodeString [] (ascii "client_message_id") members =
      some ack.clientMessageID := by
  by_cases empty : ack.clientMessageID = []
  · rw [decode_field_absent decodeString [] (filled.omitted empty), empty]
  · rcases filled.named empty with ⟨_, named⟩
    rw [decodes_string named, value_of_valid text]

theorem rejected_frame_type {ack : RejectedAck} (typed : ack.type = rejectedFrameType) :
    frameType ack.marshal = some rejectedFrameType := by
  rcases rejected_decides ack with ⟨members, found, filled⟩
  rcases filled.type with ⟨_, type⟩
  have text : isValidUtf8 ack.type = true :=
    frame_type_valid _ (by simp [typed])
  simp only [frameType, found, Option.bind_eq_bind, Option.bind_some, decodes_string type]
  rw [value_of_valid text, typed]

/-- The client reads a valid rejection as it was sent, with or without the id of
the message it is about. -/
theorem rejected_frame_decoded {ack : RejectedAck} (valid : ack.validate = .ok ())
    (clientText : isValidUtf8 ack.clientMessageID = true)
    (codeText : isValidUtf8 ack.errorCode = true) :
    decodeServerFrame ack.marshal = .ok (.rejected ack) := by
  have checked := valid
  rw [RejectedAck.validate, require_then, require_then] at checked
  have typed : ack.type = rejectedFrameType := beq_iff_eq.mp checked.1
  have versioned : ack.version = version := beq_iff_eq.mp checked.2.1
  have typeText : isValidUtf8 ack.type = true :=
    frame_type_valid _ (by simp [typed])
  have versionRead : parseInt64 (formatInt ack.version) = some ack.version := by
    rw [versioned]
    exact parse_int_format version (by decide) (by decide)
  rcases rejected_decides ack with ⟨members, found, filled⟩
  rcases filled.type with ⟨_, type⟩
  rcases filled.version with ⟨_, versionMember⟩
  rcases filled.errorCode with ⟨_, errorCode⟩
  have decoded : unmarshalRejectedAck ack.marshal = some ack := by
    simp only [unmarshalRejectedAck, found, Option.bind_eq_bind, Option.bind_some,
      decodes_string type, decodes_int versionMember versionRead,
      rejected_client_message filled clientText, decodes_string errorCode,
      value_of_valid typeText, value_of_valid codeText]
  have other : ¬rejectedFrameType = acceptedFrameType := by decide
  simp only [decodeServerFrame, rejected_frame_type typed, if_neg other, if_true, checkedFrame,
    decoded, valid]

end Rejected

section Answers

theorem checked_frame_kind {Frame : Type} {decoded : Option Frame}
    {validate : Frame → Except String Unit} {kind : Frame → DecodedFrame} {shown : DecodedFrame}
    (checked : checkedFrame decoded validate kind = .ok shown) : ∃ frame, shown = kind frame := by
  unfold checkedFrame at checked
  split at checked
  · cases checked
  · rename_i frame
    split at checked
    · cases checked
    · cases checked
      exact ⟨frame, rfl⟩

/-- A frame that the read loop answers with. -/
inductive IsAnswer (frame : Bytes) : Prop where
  | accepted (event : Event) (same : frame = (acceptedAck event).marshal)
  | rejected (clientMessageID errorCode : Bytes)
      (same : frame = (rejectedAck clientMessageID errorCode).marshal)

/-- Whatever texts an answer has, the client does not take it for an event. -/
theorem answer_not_event {frame : Bytes} (answer : IsAnswer frame) (event : Event) :
    decodeServerFrame frame ≠ .ok (.event event) := by
  intro decoded
  rcases answer with ⟨accepted, rfl⟩ | ⟨clientMessageID, errorCode, rfl⟩
  · have type : frameType (acceptedAck accepted).marshal = some acceptedFrameType :=
      accepted_frame_type rfl
    simp only [decodeServerFrame, type, if_true] at decoded
    rcases checked_frame_kind decoded with ⟨ack, same⟩
    cases same
  · have type : frameType (rejectedAck clientMessageID errorCode).marshal =
        some rejectedFrameType := rejected_frame_type rfl
    have other : ¬rejectedFrameType = acceptedFrameType := by decide
    simp only [decodeServerFrame, type, if_neg other, if_true] at decoded
    rcases checked_frame_kind decoded with ⟨ack, same⟩
    cases same

end Answers

section Requests

def requestFields (request : SendRequest) (payload : Json) : List (String × Json) :=
  [("type", encodeString request.type), ("version", encodeInt request.version),
    ("client_message_id", encodeString request.clientMessageID),
    ("room_id", encodeString request.roomID), ("payload", payload)]

/-- `json.Marshal` of a request; it fails when the payload is no JSON value. -/
def marshalRequest (request : SendRequest) : Option Bytes :=
  (encodeRaw request.payload).map fun payload =>
    render (structTree (requestFields request payload))

/-- `Conn.WriteJSON` uses an encoder, which ends the text with a newline. -/
def writeJSON (request : SendRequest) : Option Bytes :=
  (marshalRequest request).map fun text => text ++ [0x0A]

/-- White space after a text does not change its value. -/
theorem parse_render_newline (tree : Json) : parse (render tree ++ [0x0A]) = some tree := by
  have white : Spaces [Token.space 0x0A (by decide)] := by
    intro token listed
    rw [List.mem_singleton.mp listed]
    rfl
  have nothing : Spaces [] := fun _ member => absurd member List.not_mem_nil
  have separated : Separated (compact tree ++ [Token.space 0x0A (by decide)]) := by
    apply separated_compact tree
    · exact ⟨trivial, trivial⟩
    · intro byte member
      have same : (0x0A : UInt8) = byte := by simpa [spell, Token.text] using member
      rw [← same]
      decide
  have cut := lex_spell separated
  rw [spell_append] at cut
  exact parse_iff.mpr ⟨[], compact tree, _, cut, nothing, white, consumes_compact tree⟩

theorem request_fills (request : SendRequest) (payload : Json) :
    Fills (render (structTree (requestFields request payload)) ++ [0x0A])
      (requestFieldNames.map ascii)
      ((requestFields request payload).map fun field => (fieldName field.1, field.2)) := by
  have named : (requestFields request payload).map Prod.fst = requestFieldNames := rfl
  have fills := struct_fills named request_names_valid request_names_distinct
  exact ⟨parse_render_newline _, fills.distinct, fills.known⟩

/-- What the client writes, the service reads, up to the spelling of the
payload. -/
theorem request_received {request : SendRequest} {text : Bytes}
    (written : writeJSON request = some text) (valid : request.validate = .ok ())
    (clientText : isValidUtf8 request.clientMessageID = true)
    (roomText : isValidUtf8 request.roomID = true) :
    ∃ raw, unmarshalSendRequest text = some { request with payload := raw } ∧
      SameValue raw request.payload ∧
      ({ request with payload := raw } : SendRequest).validate = .ok () := by
  rw [request_validate_ok] at valid
  rcases valid with ⟨typed, versioned, client, room, _⟩
  rw [writeJSON, marshalRequest, encodeRaw, Option.map_map, Option.map_map] at written
  rcases Option.map_eq_some_iff.mp written with ⟨tree, parsed, rfl⟩
  rcases fills_members (request_fills request (htmlEscaped tree)) request_names_apart
    with ⟨members, found, decides, _⟩
  have named : (requestFields request (htmlEscaped tree)).map Prod.fst = requestFieldNames := rfl
  have member (index : Nat) (name : String) (value : Json)
      (placed : (requestFields request (htmlEscaped tree))[index]? = some (name, value))
      (listed : ascii name ∈ requestFieldNames.map ascii) :
      ∃ member, Decides members (ascii name) member value :=
    decides _ listed value
      (struct_member named request_names_valid request_names_distinct index placed)
  rcases member 0 "type" _ rfl (by simp [requestFieldNames]) with ⟨_, type⟩
  rcases member 1 "version" _ rfl (by simp [requestFieldNames]) with ⟨_, versionMember⟩
  rcases member 2 "client_message_id" _ rfl (by simp [requestFieldNames]) with ⟨_, clientMember⟩
  rcases member 3 "room_id" _ rfl (by simp [requestFieldNames]) with ⟨_, roomMember⟩
  rcases member 4 "payload" _ rfl (by simp [requestFieldNames]) with ⟨raw, payload⟩
  have typeText : isValidUtf8 request.type = true :=
    frame_type_valid _ (by simp [typed])
  have versionRead : parseInt64 (formatInt request.version) = some request.version := by
    rw [versioned]
    exact parse_int_format version (by decide) (by decide)
  have same : SameValue (spell raw.raw) request.payload :=
    ⟨_, tree, payload.raw, parsed, denote_html_escaped tree⟩
  refine ⟨spell raw.raw, ?_, same, ?_⟩
  · simp only [unmarshalSendRequest, Function.comp_apply, found, Option.bind_eq_bind,
      Option.bind_some, decodes_string type, decodes_int versionMember versionRead,
      decodes_string clientMember, decodes_string roomMember,
      decode_field_single decodeRaw [] payload.only, decodeRaw, value_of_valid typeText,
      value_of_valid clientText, value_of_valid roomText]
  · rw [request_validate_ok]
    refine ⟨typed, versioned, client, room, ?_⟩
    rw [isValid, payload.raw]
    rfl

end Requests

end ChatScale.ClientFrames
