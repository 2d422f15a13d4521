import ChatScale.MessageStoreModel

/-!
# Answering a frame

`Ws.handleMessage` over the ingest handler and the store, for any number of
frames that are handled at the same time. A handler decodes and checks its
frame, hands the request to `Store.Accept`, and puts an acknowledgement or a
rejection on the `Send` channel of its client. It waits there until the channel
has room, or until its context is cancelled.
-/

namespace ChatScale.IngestModel

open ChatScale.ByteText ChatScale.MessageContract
open ChatScale.MessageStoreModel (Columns Input Outcome)

set_option autoImplicit false

def invalidRequestErrorCode : Bytes := ascii "invalid_request"

def notAcceptedErrorCode : Bytes := ascii "not_accepted"

/-- A frame as it was read, and the client it was read from. -/
structure Received where
  clientID : Bytes
  data : Bytes

inductive Frame where
  | accepted (ack : AcceptedAck)
  | rejected (ack : RejectedAck)
  deriving DecidableEq

def Frame.marshal : Frame → Bytes
  | .accepted ack => ack.marshal
  | .rejected ack => ack.marshal

/-- Whether `json.Marshal` gives a text. -/
def Frame.encodes : Frame → Bool
  | .accepted ack => ack.createdAt.encodes
  | .rejected _ => true

/-- What `handleMessage` can return: "invalid rejected message", "marshal
websocket frame", or the error of its context. -/
inductive HandleError where
  | invalidRejected (message : String)
  | marshalFrame
  | cancelled
  deriving DecidableEq

inductive Stage where
  | received
  | accepting
  | enqueuing (frame : Frame)
  | returned (error : Option HandleError)
  deriving DecidableEq

def acceptedAck (event : Event) : AcceptedAck where
  type := acceptedFrameType
  version := version
  messageID := event.messageID
  clientMessageID := event.clientMessageID
  roomID := event.roomID
  roomSeq := event.roomSeq
  createdAt := event.createdAt

def rejectedAck (clientMessageID errorCode : Bytes) : RejectedAck where
  type := rejectedFrameType
  version := version
  clientMessageID := clientMessageID
  errorCode := errorCode

/-- `enqueue` up to its wait for the channel. -/
def enqueue (frame : Frame) : Stage :=
  if frame.encodes then .enqueuing frame else .returned (some .marshalFrame)

def enqueueRejected (clientMessageID errorCode : Bytes) : Stage :=
  match (rejectedAck clientMessageID errorCode).validate with
  | .error message => .returned (some (.invalidRejected message))
  | .ok () => enqueue (.rejected (rejectedAck clientMessageID errorCode))

/-- The checks of `HandleIncoming` before it calls the store. -/
def handleIncoming (clientID : Bytes) (request : SendRequest) : Except String Unit :=
  if isBlank clientID then .error "client_id is required" else request.validate

/-- `handleMessage` up to its call of the store. -/
def handleMessage (frame : Received) : Stage :=
  match unmarshalSendRequest frame.data with
  | none => enqueueRejected [] invalidRequestErrorCode
  | some request =>
      match request.validate with
      | .error _ => enqueueRejected request.clientMessageID invalidRequestErrorCode
      | .ok () =>
          match handleIncoming frame.clientID request with
          | .error _ => enqueueRejected request.clientMessageID notAcceptedErrorCode
          | .ok () => .accepting

/-- `handleMessage` after the store has answered. -/
def answer (request : SendRequest) : Outcome → Stage
  | .failed _ => enqueueRejected request.clientMessageID notAcceptedErrorCode
  | .accepted _ event =>
      match (acceptedAck event).validate with
      | .error _ => enqueueRejected request.clientMessageID notAcceptedErrorCode
      | .ok () => enqueue (.accepted (acceptedAck event))

/-- The request of a frame; the zero request if it has none. -/
def requestOf (frame : Received) : SendRequest :=
  (unmarshalSendRequest frame.data).getD ⟨[], 0, [], [], []⟩

def inputOf (frame : Received) : Input := ⟨frame.clientID, requestOf frame⟩

/-- The store, where each handler is, and the frames it has put on `Send` with
their serialized texts. -/
structure System (Caller : Type) where
  store : MessageStoreModel.State Caller
  handlers : Caller → Stage
  sent : Caller → List (Frame × Bytes)

inductive Move where
  | receive
  | accept (move : MessageStoreModel.Move)
  | answer
  | enqueue
  | cancel

structure Action (Caller : Type) where
  caller : Caller
  move : Move

section Steps

variable {Caller : Type} [DecidableEq Caller]

def System.goto (system : System Caller) (caller : Caller) (stage : Stage) : System Caller :=
  { system with handlers := Function.update system.handlers caller stage }

/-- The send of `enqueue` went through. -/
def System.send (system : System Caller) (caller : Caller) (frame : Frame) : System Caller where
  store := system.store
  handlers := Function.update system.handlers caller (.returned none)
  sent := Function.update system.sent caller (system.sent caller ++ [(frame, frame.marshal)])

variable [Fintype Caller]

def initial : System Caller := ⟨MessageStoreModel.initial, fun _ => .received, fun _ => []⟩

def step (columns : Columns) (frames : Caller → Received) (system : System Caller)
    (action : Action Caller) : Option (System Caller) :=
  match action.move, system.handlers action.caller with
  | .receive, .received => some (system.goto action.caller (handleMessage (frames action.caller)))
  | .accept move, .accepting =>
      (MessageStoreModel.step columns (fun caller => inputOf (frames caller)) system.store
        ⟨action.caller, move⟩).map fun store => { system with store := store }
  | .answer, .accepting =>
      match (system.store.calls action.caller).stage with
      | .done outcome =>
          some (system.goto action.caller (answer (requestOf (frames action.caller)) outcome))
      | _ => none
  | .enqueue, .enqueuing frame => some (system.send action.caller frame)
  | .cancel, .enqueuing _ => some (system.goto action.caller (.returned (some .cancelled)))
  | _, _ => none

/-- The steps of the handlers, each with the stage it starts from. -/
inductive Stepped (columns : Columns) (frames : Caller → Received) (system : System Caller) :
    Action Caller → System Caller → Prop where
  | receive {caller : Caller} (stage : system.handlers caller = .received) :
      Stepped columns frames system ⟨caller, .receive⟩
        (system.goto caller (handleMessage (frames caller)))
  | accept {caller : Caller} {move : MessageStoreModel.Move}
      {store : MessageStoreModel.State Caller} (stage : system.handlers caller = .accepting)
      (stepped : MessageStoreModel.step columns (fun caller => inputOf (frames caller))
        system.store ⟨caller, move⟩ = some store) :
      Stepped columns frames system ⟨caller, .accept move⟩ { system with store := store }
  | answer {caller : Caller} {outcome : Outcome} (stage : system.handlers caller = .accepting)
      (done : (system.store.calls caller).stage = .done outcome) :
      Stepped columns frames system ⟨caller, .answer⟩
        (system.goto caller (answer (requestOf (frames caller)) outcome))
  | enqueue {caller : Caller} {frame : Frame} (stage : system.handlers caller = .enqueuing frame) :
      Stepped columns frames system ⟨caller, .enqueue⟩ (system.send caller frame)
  | cancel {caller : Caller} {frame : Frame} (stage : system.handlers caller = .enqueuing frame) :
      Stepped columns frames system ⟨caller, .cancel⟩
        (system.goto caller (.returned (some .cancelled)))

theorem step_cases {columns : Columns} {frames : Caller → Received}
    {system after : System Caller} {action : Action Caller}
    (stepped : step columns frames system action = some after) :
    Stepped columns frames system action after := by
  obtain ⟨caller, move⟩ := action
  unfold step at stepped
  split at stepped
  case h_1 _ _ took stage =>
    cases took
    cases stepped
    exact .receive stage
  case h_2 _ _ move took stage =>
    cases took
    obtain ⟨store, storeStepped, rfl⟩ := Option.map_eq_some_iff.mp stepped
    exact .accept stage storeStepped
  case h_3 _ _ took stage =>
    cases took
    split at stepped
    · rename_i outcome done
      cases stepped
      exact .answer stage done
    · cases stepped
  case h_4 _ _ frame took stage =>
    cases took
    cases stepped
    exact .enqueue stage
  case h_5 _ _ frame took stage =>
    cases took
    cases stepped
    exact .cancel stage
  case h_6 => cases stepped

end Steps

end ChatScale.IngestModel
