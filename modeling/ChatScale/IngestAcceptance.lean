import ChatScale.IngestReplies

/-!
# How a frame gets accepted

A frame spells a request if the decoder reads that request from it, and nothing
hinders the only handler of an empty store: when no statement fails, a request
with all it takes is inserted and acknowledged.
-/

namespace ChatScale.IngestAcceptance

open ChatScale.ByteText ChatScale.ByteEncodings ChatScale.TransitionSystem
open ChatScale.JsonLiterals ChatScale.JsonTokens ChatScale.JsonText ChatScale.JsonValue
open ChatScale.JsonFields ChatScale.MessageContract ChatScale.MessageId
open ChatScale.MessageStoreModel (Columns Input Call Database Transaction ClockReading
  emptyDatabase emptyTransaction runStatement newCall acceptedEvent messageRow outboxRow isText)
open ChatScale.MessageStoreInvariants ChatScale.MessageStoreProgress
open ChatScale.IngestModel ChatScale.IngestReplies

set_option autoImplicit false

section Spelling

theorem compact_members_length (members : List (StringLiteral × Json)) :
    (spell (compactMembers members)).length =
      1 + (members.map fun member => member.1.text.length + (render member.2).length + 4).sum := by
  induction members with
  | nil =>
      rw [compactMembers]
      rfl
  | cons member others induction =>
      obtain ⟨key, value⟩ := member
      have cut : spell (compactMembers ((key, value) :: others)) =
          0x2C :: quoteMark :: key.text ++ (quoteMark :: 0x3A :: render value) ++
            spell (compactMembers others) := by
        rw [compactMembers]
        simp [spell, Token.text, Mark.byte, render]
      rw [cut]
      simp only [List.length_append, List.length_cons, List.map_cons, List.sum_cons, induction]
      omega

theorem render_object_length (member : StringLiteral × Json)
    (others : List (StringLiteral × Json)) :
    (render (.object (member :: others))).length = 1 + ((member :: others).map fun member =>
      member.1.text.length + (render member.2).length + 4).sum := by
  have swap : (render (.object (member :: others))).length =
      (spell (compactMembers (member :: others))).length := by
    obtain ⟨key, value⟩ := member
    rw [render, compact, compactMembers]
    simp [spell, Token.text]
  rw [swap, compact_members_length]

def requestFields (clientMessageID roomID : Bytes) (payload : Json) : List (String × Json) :=
  [("type", encodeString sendFrameType), ("version", encodeInt version),
    ("client_message_id", encodeString clientMessageID), ("room_id", encodeString roomID),
    ("payload", payload)]

def requestFieldNames : List String :=
  ["type", "version", "client_message_id", "room_id", "payload"]

theorem request_names_valid : ∀ name ∈ requestFieldNames, isValidUtf8 (ascii name) = true := by
  decide +kernel

theorem request_names_distinct : (requestFieldNames.map ascii).Nodup := by decide +kernel

theorem request_names_apart : FoldDistinct (requestFieldNames.map ascii) := by decide +kernel

/-- A frame that spells a request is decoded to it, the payload being some text
of its tree. -/
theorem unmarshal_request (clientMessageID roomID : Bytes) (payload : Json)
    (client : isValidUtf8 clientMessageID = true) (room : isValidUtf8 roomID = true) :
    ∃ raw, unmarshalSendRequest (render (structTree
        (requestFields clientMessageID roomID payload))) =
          some ⟨sendFrameType, version, clientMessageID, roomID, raw⟩ ∧
      parse raw = some payload := by
  obtain ⟨members, found, decides⟩ := struct_decides
    (rfl : (requestFields clientMessageID roomID payload).map Prod.fst = requestFieldNames)
    request_names_valid request_names_distinct request_names_apart
  obtain ⟨_, type⟩ := decides 0 _ _ rfl
  obtain ⟨_, versioned⟩ := decides 1 _ _ rfl
  obtain ⟨_, clientID⟩ := decides 2 _ _ rfl
  obtain ⟨_, inRoom⟩ := decides 3 _ _ rfl
  obtain ⟨member, raw⟩ := decides 4 _ _ rfl
  refine ⟨spell member.raw, ?_, raw.raw⟩
  have sendValid : isValidUtf8 sendFrameType = true := by decide +kernel
  have read : parseInt64 (formatInt version) = some version := by decide +kernel
  simp only [unmarshalSendRequest, found, decodes_string type, decodes_int versioned read,
    decodes_string clientID, decodes_string inRoom, decode_field_single decodeRaw [] raw.only,
    decodeRaw, value_of_valid sendValid, value_of_valid client, value_of_valid room,
    Option.bind_eq_bind, Option.bind_some]

end Spelling

section Lone

variable {columns : Columns} {frame : Received}

/-- One handler that waits for the store. -/
def loneSystem (db : Database) (call : Call) : System Unit :=
  ⟨⟨db, fun _ => call⟩, fun _ => .accepting, fun _ => []⟩

/-- The frame, when it is the only one, can bring the store there. -/
def LoneReaches (columns : Columns) (frame : Received) (db : Database) (call : Call) : Prop :=
  Reachable (step columns fun _ => frame) anyStep initial (loneSystem db call)

/-- Nobody is in the way of a lone call. -/
theorem lone_step (random : Uuid) (clock : ClockReading) {db next : Database}
    {call after : Call}
    (prior : LoneReaches columns frame db call)
    (ran : runStatement columns (inputOf frame) db (fun _ => false) call random clock =
      some (next, after)) :
    LoneReaches columns frame next after := by
  have alone : MessageStoreModel.heldByOther (fun _ : Unit => call) () = fun _ => false := by
    funext clash
    simp [MessageStoreModel.heldByOther]
  have update : Function.update (fun _ : Unit => call) () after = fun _ => after := by
    funext caller
    simp [Function.update]
  refine reachable_step prior
    (?_ : anyStep _ (⟨(), .accept (.run random clock)⟩ : Action Unit)) ?_
  · trivial
  · simp [step, loneSystem, MessageStoreModel.step, MessageStoreModel.moveEffect, alone, ran,
      update]

/-- The request of a frame that has all it takes to be accepted. -/
structure Acceptable (frame : Received) (request : SendRequest) : Prop where
  decoded : unmarshalSendRequest frame.data = some request
  valid : request.validate = .ok ()
  client : isBlank frame.clientID = false
  clientText : isText frame.clientID = true
  messageText : isText request.clientMessageID = true
  roomText : isText request.roomID = true

theorem acceptable_input {request : SendRequest} (acceptable : Acceptable frame request) :
    inputOf frame = ⟨frame.clientID, request⟩ := by
  rw [inputOf, requestOf, acceptable.decoded]
  rfl

/-- A frame that can be accepted is handed to the store. -/
theorem lone_received {request : SendRequest} (acceptable : Acceptable frame request) :
    LoneReaches columns frame emptyDatabase newCall := by
  have handled : handleMessage frame = .accepting := by
    simp [handleMessage, acceptable.decoded, acceptable.valid, handleIncoming, acceptable.client]
  refine reachable_step reachable_start (?_ : anyStep _ (⟨(), .receive⟩ : Action Unit)) ?_
  · trivial
  · have update : Function.update (fun _ : Unit => Stage.received) () .accepting =
        fun _ => .accepting := by
      funext caller
      simp [Function.update]
    simp [step, initial, System.goto, handled, update, loneSystem, MessageStoreModel.initial]

/-- The tables after the only call of a store. -/
def loneDatabase (columns : Columns) (input : Input) (event : Event) (id : Uuid)
    (payload stored : Bytes) : Database :=
  MessageStoreModel.applyTransaction emptyDatabase ⟨some (event.roomID, 1),
    some (messageRow columns input event id payload), some (outboxRow columns event id stored)⟩

/-- On an empty store, when no statement fails, the message is inserted. -/
theorem lone_inserted {request : SendRequest} (acceptable : Acceptable frame request)
    (random : Uuid) (clock : ClockReading) {event : Event}
    (made : event = acceptedEvent (inputOf frame) 1 random clock)
    {payload serialized stored : Bytes} (kept : columns.jsonb event.payload = some payload)
    (marshalled : event.marshal = some serialized)
    (storedKept : columns.jsonb serialized = some stored) :
    LoneReaches columns frame
      (loneDatabase columns (inputOf frame) event (stamped random) payload stored)
      ⟨.done (.accepted .inserted event), none⟩ := by
  have input := acceptable_input acceptable
  have valid : event.validate = .ok () := by
    rw [made]
    apply accepted_event_valid _ le_rfl
    rw [input]
    exact ⟨acceptable.client, acceptable.valid⟩
  have room : (inputOf frame).request.roomID = event.roomID := by
    rw [made]
    rfl
  have findPool : LoneReaches columns frame emptyDatabase ⟨.findPool, none⟩ := by
    apply lone_step random clock (lone_received acceptable)
    simp [runStatement, newCall, MessageStoreModel.startCall, input, acceptable.client,
      acceptable.valid, MessageStoreModel.Call.goto]
  have begin : LoneReaches columns frame emptyDatabase ⟨.begin, none⟩ := by
    apply lone_step random clock findPool
    simp [runStatement, MessageStoreModel.findPool, input, acceptable.clientText,
      acceptable.messageText, MessageStoreModel.findEvent, MessageStoreModel.findRow,
      emptyDatabase, MessageStoreModel.Call.goto]
  have findTransaction : LoneReaches columns frame emptyDatabase
      ⟨.findTransaction, some emptyTransaction⟩ :=
    lone_step random clock begin rfl
  have allocate : LoneReaches columns frame emptyDatabase ⟨.allocate, some emptyTransaction⟩ :=
    lone_step random clock findTransaction rfl
  have generate : LoneReaches columns frame emptyDatabase
      ⟨.generate 1, some ⟨some (event.roomID, 1), none, none⟩⟩ := by
    apply lone_step random clock allocate
    have text : isText event.roomID = true := by
      rw [← room, input]
      exact acceptable.roomText
    have small : ¬maxInt64 < 1 := by decide
    simp [runStatement, MessageStoreModel.allocate, room, text, MessageStoreModel.lastSeq,
      emptyDatabase, emptyTransaction, small]
  have insertMessage : LoneReaches columns frame emptyDatabase
      ⟨.insertMessage event (stamped random),
        some ⟨some (event.roomID, 1), none, none⟩⟩ := by
    apply lone_step random clock generate
    simp [runStatement, MessageStoreModel.generate, newMessageID, parse_message_id_text, ← made,
      valid, MessageStoreModel.Call.goto]
  have insertOutbox : LoneReaches columns frame emptyDatabase
      ⟨.insertOutbox event (stamped random),
        some ⟨some (event.roomID, 1),
          some (messageRow columns (inputOf frame) event (stamped random) payload), none⟩⟩ := by
    apply lone_step random clock insertMessage
    simp [runStatement, MessageStoreModel.insertMessage, kept, emptyDatabase]
  have commit : LoneReaches columns frame emptyDatabase
      ⟨.commit event,
        some ⟨some (event.roomID, 1),
          some (messageRow columns (inputOf frame) event (stamped random) payload),
          some (outboxRow columns event (stamped random) stored)⟩⟩ := by
    apply lone_step random clock insertOutbox
    simp [runStatement, MessageStoreModel.insertOutbox, marshalled, storedKept, emptyDatabase]
  exact lone_step random clock commit rfl

/-- … and the client is told so. -/
theorem lone_acknowledged {db : Database} {event : Event} (valid : event.validate = .ok ())
    (prior : LoneReaches columns frame db ⟨.done (.accepted .inserted event), none⟩) :
    ∃ system : System Unit, Reachable (step columns fun _ => frame) anyStep initial system ∧
      system.store.db = db ∧ system.sent () = [(.accepted (acceptedAck event),
        (acceptedAck event).marshal)] := by
  have encodes : (Frame.accepted (acceptedAck event)).encodes = true :=
    outcome_spelled prior (rfl : ((loneSystem db _).store.calls ()).stage = _) .inserted event rfl
  have answered : Reachable (step columns fun _ : Unit => frame) anyStep initial
      ((loneSystem db ⟨.done (.accepted .inserted event), none⟩).goto ()
        (.enqueuing (.accepted (acceptedAck event)))) := by
    refine reachable_step prior (?_ : anyStep _ (⟨(), .answer⟩ : Action Unit)) ?_
    · trivial
    · simp [step, loneSystem, answer, accepted_ack_of_valid valid, enqueue_encodes encodes]
  have sent : Reachable (step columns fun _ : Unit => frame) anyStep initial
      (((loneSystem db ⟨.done (.accepted .inserted event), none⟩).goto ()
        (.enqueuing (.accepted (acceptedAck event)))).send () (.accepted (acceptedAck event))) := by
    refine reachable_step answered (?_ : anyStep _ (⟨(), .enqueue⟩ : Action Unit)) ?_
    · trivial
    · simp [step, System.goto]
  exact ⟨_, sent, rfl, by simp [System.send, System.goto, loneSystem, Frame.marshal]⟩

end Lone

end ChatScale.IngestAcceptance
