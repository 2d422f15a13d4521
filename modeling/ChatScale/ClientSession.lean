import ChatScale.ClientFrames

/-!
# A client that sends until it is answered

`runClient` dials, sends its request on every new connection as long as no
answer to it has been read, and reads frames until the connection breaks. The
handlers of the connections it has given up go on in the service, next to those
of other clients. However often the request was sent, every acknowledgement the
client reads is about the one message that was stored for it.
-/

namespace ChatScale.ClientSession

open ChatScale.ByteText ChatScale.ByteEncodings ChatScale.TransitionSystem
open ChatScale.JsonValue ChatScale.JsonFields ChatScale.MessageContract
open ChatScale.MessageStoreModel (Columns Input MessageRow Outcome)
open ChatScale.MessageStoreInvariants ChatScale.MessageStoreIdempotency
open ChatScale.MessageStoreContents ChatScale.MessageStoreReplay
open ChatScale.IngestModel (Received acceptedAck rejectedAck handleMessage handleIncoming
  invalidRequestErrorCode notAcceptedErrorCode requestOf inputOf)
open ChatScale.IngestReplies ChatScale.ClientFrames
open ChatScale.DeliveryPipeline (DecodedFrame decodeServerFrame event_frame_type KeepsJson
  column_value SameValue same_value_trans drafted_encodable)

set_option autoImplicit false

/-- The client with its request, and the frames of all others. -/
structure Setup (Other : Type) where
  columns : Columns
  clientID : Bytes
  request : SendRequest
  others : Other → Received

/-- `sampleSendRequest` with its random bytes. -/
def sampleSendRequest (randomID : List UInt8) (roomID : Bytes) : SendRequest where
  type := sendFrameType
  version := version
  clientMessageID := encodeHex randomID
  roomID := roomID
  payload := ascii "\x7b\"text\":\"test msg.\"\x7d"

inductive Stage (limit : Nat) where
  | dialing
  | connected (attempt : Fin limit)
  | reading (attempt : Fin limit)
  | waiting
  | stopped
  deriving DecidableEq

/-- The frames of one connection are handled by a handler of its own. `written` says
that the request has gone out on a connection, and `taken` how many of the answers
of its handler were read. -/
structure State (Other : Type) (limit : Nat) where
  ingest : IngestModel.System (Fin limit ⊕ Other)
  stage : Stage limit
  requestPending : Bool
  dialled : Nat
  written : Fin limit → Bool
  taken : Fin limit → Nat
  frames : List DecodedFrame

/-- A write that fails may still have sent the request. `push` is a frame that the hub
sends to the client. -/
inductive Action (Other : Type) (limit : Nat) where
  | server (action : IngestModel.Action (Fin limit ⊕ Other))
  | dial (succeeds : Bool)
  | write (failed : Option Bool)
  | read
  | push (event : Event)
  | disconnect
  | elapse
  | cancel

section Steps

variable {Other : Type} {limit : Nat}

/-- What the service reads on each connection. -/
def received (setup : Setup Other) : Fin limit ⊕ Other → Received
  | .inl _ => ⟨setup.clientID, (writeJSON setup.request).getD []⟩
  | .inr other => setup.others other

/-- One turn of the loop that reads frames. -/
def readMessage (state : State Other limit) (data : Bytes) : State Other limit :=
  match decodeServerFrame data with
  | .error _ => state
  | .ok (.event event) => { state with frames := state.frames ++ [.event event] }
  | .ok frame => { state with requestPending := false, frames := state.frames ++ [frame] }

/-- A handler starts when its frame has arrived. -/
def arrives (state : State Other limit) : IngestModel.Action (Fin limit ⊕ Other) → Bool
  | ⟨.inl attempt, .receive⟩ => state.written attempt
  | _ => true

/-- `WriteJSON` on a new connection; it is left out once the request is answered. -/
def writeRequest (setup : Setup Other) (state : State Other limit) (attempt : Fin limit)
    (failed : Option Bool) : State Other limit :=
  if state.requestPending then
    match writeJSON setup.request, failed with
    | none, _ => { state with stage := .waiting }
    | some _, some sent =>
        { state with stage := .waiting, written := Function.update state.written attempt sent }
    | some _, none =>
        { state with stage := .reading attempt
                     written := Function.update state.written attempt true }
  else { state with stage := .reading attempt }

/-- The next answer of the connection's handler. -/
def readAnswer (state : State Other limit) (attempt : Fin limit) : Option (State Other limit) :=
  ((state.ingest.sent (.inl attempt))[state.taken attempt]?).map fun answer =>
    readMessage
      { state with taken := Function.update state.taken attempt (state.taken attempt + 1) } answer.2

variable [Fintype Other] [DecidableEq Other]

def initial : State Other limit where
  ingest := IngestModel.initial
  stage := .dialing
  requestPending := true
  dialled := 0
  written := fun _ => false
  taken := fun _ => 0
  frames := []

def step (setup : Setup Other) (state : State Other limit) :
    Action Other limit → Option (State Other limit)
  | .server action =>
      if arrives state action then
        (IngestModel.step setup.columns (received setup) state.ingest action).map fun ingest =>
          { state with ingest := ingest }
      else none
  | .dial succeeds =>
      match state.stage with
      | .dialing =>
          if succeeds then
            if more : state.dialled < limit then
              some { state with stage := .connected ⟨state.dialled, more⟩
                                dialled := state.dialled + 1 }
            else none
          else some { state with stage := .waiting }
      | _ => none
  | .write failed =>
      match state.stage with
      | .connected attempt => some (writeRequest setup state attempt failed)
      | _ => none
  | .read =>
      match state.stage with
      | .reading attempt => readAnswer state attempt
      | _ => none
  | .push event =>
      match state.stage with
      | .reading _ => (LiveHubModel.dispatchFrame event).map (readMessage state)
      | _ => none
  | .disconnect =>
      match state.stage with
      | .reading _ => some { state with stage := .waiting }
      | _ => none
  | .elapse =>
      match state.stage with
      | .waiting => some { state with stage := .dialing }
      | _ => none
  | .cancel => some { state with stage := .stopped }

end Steps

section Answers

variable {Other : Type} {limit : Nat} {setup : Setup Other}

def requestKey (setup : Setup Other) : Bytes × Bytes :=
  (setup.clientID, setup.request.clientMessageID)

/-- The request passes its check, its texts are kept by JSON, and nobody else uses its
id as this client. -/
structure Sendable (setup : Setup Other) : Prop where
  keeps : KeepsJson setup.columns
  client : isBlank setup.clientID = false
  valid : setup.request.validate = .ok ()
  messageText : isValidUtf8 setup.request.clientMessageID = true
  roomText : isValidUtf8 setup.request.roomID = true
  fresh : ∀ other, inputKey (inputOf (setup.others other)) ≠ requestKey setup

/-- The row that was stored for the request. -/
structure StoredFor (setup : Setup Other) (row : MessageRow) : Prop where
  key : clientKey row = requestKey setup
  room : row.roomID = setup.request.roomID
  payload : SameValue row.payload setup.request.payload

/-- The acknowledgement names the row. -/
structure Acknowledges (ack : AcceptedAck) (row : MessageRow) : Prop where
  messageID : ack.messageID = row.messageID.text
  clientMessageID : ack.clientMessageID = row.clientMessageID
  roomID : ack.roomID = row.roomID
  roomSeq : ack.roomSeq = row.roomSeq

/-- The service reads the request of the client from its frame. -/
theorem own_request (sendable : Sendable setup) (attempt : Fin limit) :
    ∃ raw, requestOf (received setup (.inl attempt)) = { setup.request with payload := raw } ∧
      SameValue raw setup.request.payload ∧
      handleMessage (received setup (.inl attempt)) = .accepting := by
  have checked := request_validate_ok.mp sendable.valid
  rcases Option.isSome_iff_exists.mp checked.2.2.2.2 with ⟨tree, parsed⟩
  have written : ∃ text, writeJSON setup.request = some text := by
    rw [writeJSON, marshalRequest, encodeRaw, parsed]
    exact ⟨_, rfl⟩
  rcases written with ⟨text, written⟩
  rcases request_received written sendable.valid sendable.messageText sendable.roomText with
    ⟨raw, read, same, valid⟩
  have data : (received setup (.inl attempt)).data = text := by
    simp only [received, written, Option.getD_some]
  have client : (received setup (.inl attempt)).clientID = setup.clientID := rfl
  refine ⟨raw, ?_, same, ?_⟩
  · rw [requestOf, data, read]
    rfl
  · simp only [handleMessage, data, read, valid, handleIncoming, client, sendable.client,
      Bool.false_eq_true, if_false]

theorem own_key (sendable : Sendable setup) (attempt : Fin limit) :
    inputKey (inputOf (received setup (.inl attempt))) = requestKey setup := by
  rcases own_request sendable attempt with ⟨raw, request, _⟩
  rw [inputKey, inputOf, request]
  rfl

variable {ingest : IngestModel.System (Fin limit ⊕ Other)}

/-- A row under the key of the request was written for one of the client's frames. -/
theorem stored_row (sendable : Sendable setup)
    (known : OriginsKnown (fun _ => True) setup.columns (inputsOf (received setup)) ingest.store)
    {row : MessageRow} (listed : row ∈ ingest.store.db.messages)
    (key : clientKey row = requestKey setup) :
    StoredFor setup row ∧ isValidUtf8 row.clientMessageID = true ∧
      isValidUtf8 row.roomID = true ∧ minInt64 ≤ row.roomSeq ∧ row.roomSeq ≤ maxInt64 := by
  rcases row_written known listed with ⟨caller, event, _, _, writes⟩
  rcases writes.message with ⟨id, payload, drafted, kept, rfl⟩
  have encodable := drafted_encodable drafted
  rcases drafted.made with ⟨roomSeq, random, clock, rfl⟩
  cases caller with
  | inr other => exact absurd key (sendable.fresh other)
  | inl attempt =>
      rcases own_request sendable attempt with ⟨raw, request, same, _⟩
      have input : (inputsOf (received setup) (.inl attempt)).request =
          { setup.request with payload := raw } := request
      refine ⟨⟨key, ?_, ?_⟩, encodable.clientMessageID, encodable.roomID, encodable.roomSeq⟩
      · rw [MessageStoreModel.messageRow, MessageStoreModel.acceptedEvent, input]
      · have value := column_value sendable.keeps kept
        rw [MessageStoreModel.acceptedEvent, input] at value
        exact same_value_trans value same

/-- What is on `Send` is the text of the frame. -/
theorem sent_text {Caller : Type} {frames : Caller → Received}
    {system : IngestModel.System Caller} {caller : Caller} (sound : HandlersSound frames system)
    {reply : IngestModel.Frame} {text : Bytes} (listed : (reply, text) ∈ system.sent caller) :
    text = reply.marshal := by
  cases stage : system.handlers caller with
  | received | accepting | enqueuing =>
      rw [(handler_at sound stage).2] at listed
      cases listed
  | returned error =>
      cases error with
      | none =>
          rcases handler_at sound stage with ⟨_, _, sent⟩
          rw [sent, List.mem_singleton] at listed
          cases listed
          rfl
      | some error =>
          rw [(handler_at sound stage).2.2] at listed
          cases listed

variable [Fintype Other] [DecidableEq Other]

theorem ingest_origins
    (reached : Reachable (IngestModel.step setup.columns (received setup)) anyStep
      IngestModel.initial ingest) :
    OriginsKnown (fun _ => True) setup.columns (inputsOf (received setup)) ingest.store :=
  reachable_origins (fun _ action _ => by cases action.move <;> trivial) (store_reachable reached)

/-- What a handler of the client sends: the acknowledgement of the stored row, or that
the request was not accepted. -/
theorem own_answer (sendable : Sendable setup)
    (reached : Reachable (IngestModel.step setup.columns (received setup)) anyStep
      IngestModel.initial ingest) {attempt : Fin limit} {reply : IngestModel.Frame} {text : Bytes}
    (sent : (reply, text) ∈ ingest.sent (.inl attempt)) :
    text = reply.marshal ∧
      ((∃ event, reply = .accepted (acceptedAck event) ∧ (acceptedAck event).validate = .ok () ∧
        event.createdAt.isExact = true ∧
        Committed (inputOf (received setup (.inl attempt))) ingest.store.db event) ∨
      reply = .rejected (rejectedAck setup.request.clientMessageID notAcceptedErrorCode)) := by
  have handlers := reachable_handlers reached
  have results := reachable_results (store_reachable reached)
  rcases own_request sendable attempt with ⟨raw, request, _, accepting⟩
  refine ⟨sent_text handlers sent, ?_⟩
  rcases sent_chosen handlers sent with ⟨direct, _⟩ | ⟨_, outcome, done, answered⟩
  · rw [accepting] at direct
    cases direct
  · rw [request] at answered
    cases outcome with
    | failed failure =>
        right
        rw [IngestModel.answer, enqueue_not_accepted] at answered
        cases answered
        rfl
    | accepted path event =>
        cases checked : (acceptedAck event).validate with
        | error message =>
            right
            simp only [IngestModel.answer, checked, enqueue_not_accepted] at answered
            cases answered
            rfl
        | ok _ =>
            left
            simp only [IngestModel.answer, checked] at answered
            cases enqueue_eq answered
            have spelled := accepted_spelled (store_reachable reached) done
            have result := results.results (.inl attempt)
            unfold ResultSound at result
            rw [done] at result
            exact ⟨event, rfl, checked, spelled, result⟩

/-- What a frame that the client has read says about the tables. -/
def FrameSound (setup : Setup Other) (db : MessageStoreModel.Database) : DecodedFrame → Prop
  | .accepted ack => ∃ row ∈ db.messages, StoredFor setup row ∧ Acknowledges ack row
  | .rejected ack => ack = rejectedAck setup.request.clientMessageID notAcceptedErrorCode
  | .event _ => True

theorem own_answer_decoded (sendable : Sendable setup)
    (reached : Reachable (IngestModel.step setup.columns (received setup)) anyStep
      IngestModel.initial ingest) {attempt : Fin limit} {reply : IngestModel.Frame} {text : Bytes}
    (sent : (reply, text) ∈ ingest.sent (.inl attempt)) :
    ∃ frame, decodeServerFrame text = .ok frame ∧ (∀ event, frame ≠ .event event) ∧
      FrameSound setup ingest.store.db frame := by
  rcases own_answer sendable reached sent with
    ⟨rfl, ⟨event, rfl, valid, spelled, committed⟩ | rfl⟩
  · rcases committed with ⟨row, listed, key, describes⟩
    have rowKey := key.trans (own_key sendable attempt)
    rcases stored_row sendable (ingest_origins reached) listed rowKey with
      ⟨stored, messageText, roomText, lower, upper⟩
    have encodable : AcceptedEncodable (acceptedAck event) := by
      have versionFits : minInt64 ≤ version ∧ version ≤ maxInt64 := by decide
      refine ⟨?_, ?_, ?_, versionFits, ?_, spelled⟩
      · rw [acceptedAck, describes.messageID]
        exact (plain_text (MessageId.text_plain _)).2.2
      · rw [acceptedAck, describes.clientMessageID]
        exact messageText
      · rw [acceptedAck, describes.roomID]
        exact roomText
      · rw [acceptedAck, describes.roomSeq]
        exact ⟨lower, upper⟩
    refine ⟨_, accepted_frame_decoded valid encodable, ?_, ?_⟩
    · intro shown same
      cases same
    exact ⟨row, listed, stored, describes.messageID, describes.clientMessageID, describes.roomID,
      describes.roomSeq⟩
  · have code : isBlank notAcceptedErrorCode = false ∧ isValidUtf8 notAcceptedErrorCode = true := by
      decide +kernel
    have valid : (rejectedAck setup.request.clientMessageID notAcceptedErrorCode).validate =
        .ok () := by
      simp only [RejectedAck.validate, rejectedAck, require_then, require_ok, beq_self_eq_true,
        code.1, Bool.not_false, and_self]
    refine ⟨_, rejected_frame_decoded valid sendable.messageText code.2, ?_, rfl⟩
    intro shown same
    cases same

end Answers

section Invariant

variable {Other : Type} {limit : Nat} {setup : Setup Other} {state next : State Other limit}

theorem frame_sound_grows {before after : MessageStoreModel.Database} (grows : Grows before after)
    {frame : DecodedFrame} (sound : FrameSound setup before frame) :
    FrameSound setup after frame := by
  cases frame with
  | accepted ack =>
      rcases sound with ⟨row, listed, stored, acknowledges⟩
      exact ⟨row, grows row listed, stored, acknowledges⟩
  | rejected ack => exact sound
  | event event => trivial

/-- A pushed frame is never an answer. -/
theorem pushed_sound {event : Event} {data : Bytes}
    (pushed : LiveHubModel.dispatchFrame event = some data) (frame : DecodedFrame)
    (decoded : decodeServerFrame data = .ok frame) (db : MessageStoreModel.Database) :
    FrameSound setup db frame := by
  have marshalled : event.marshal = some data := by
    unfold LiveHubModel.dispatchFrame at pushed
    split at pushed
    · cases pushed
    · exact pushed
  have notAccepted : ¬([] : Bytes) = acceptedFrameType := by decide
  have notRejected : ¬([] : Bytes) = rejectedFrameType := by decide
  simp only [decodeServerFrame, event_frame_type marshalled, if_neg notAccepted,
    if_neg notRejected] at decoded
  rcases checked_frame_kind decoded with ⟨shown, rfl⟩
  trivial

variable [Fintype Other] [DecidableEq Other] {action : Action Other limit}

structure SessionSound (setup : Setup Other) (state : State Other limit) : Prop where
  ingest : Reachable (IngestModel.step setup.columns (received setup)) anyStep
    IngestModel.initial state.ingest
  frames : ∀ frame ∈ state.frames, FrameSound setup state.ingest.store.db frame
  pending : state.requestPending = true ↔ ∀ frame ∈ state.frames, ∃ event, frame = .event event

/-- No row is lost. -/
theorem ingest_grows {before after : IngestModel.System (Fin limit ⊕ Other)}
    {action : IngestModel.Action (Fin limit ⊕ Other)}
    (reached : Reachable (IngestModel.step setup.columns (received setup)) anyStep
      IngestModel.initial before)
    (stepped : IngestModel.step setup.columns (received setup) before action = some after) :
    Grows before.store.db after.store.db := by
  cases shown : storeAction action with
  | none =>
      rw [other_step_store shown stepped]
      exact grows_refl _
  | some store =>
      have plain := accept_step_store shown stepped
      rcases Option.map_eq_some_iff.mp plain with ⟨effect, moved, made⟩
      rw [← made]
      exact (move_result (reachable_results (store_reachable reached)) moved).1

/-- Reading a frame that is sound. -/
theorem read_sound (sound : SessionSound setup state) {data : Bytes}
    (readable : ∀ frame, decodeServerFrame data = .ok frame →
      FrameSound setup state.ingest.store.db frame) :
    SessionSound setup (readMessage state data) := by
  unfold readMessage
  split
  · exact sound
  · rename_i event decoded
    refine ⟨sound.ingest, ?_, ?_⟩
    · intro frame listed
      rcases List.mem_append.mp listed with before | last
      · exact sound.frames frame before
      · rw [List.mem_singleton.mp last]
        trivial
    · rw [sound.pending]
      simp [or_imp, forall_and]
  · rename_i frame other decoded
    refine ⟨sound.ingest, ?_, ?_⟩
    · intro shown listed
      rcases List.mem_append.mp listed with before | last
      · exact sound.frames shown before
      · rw [List.mem_singleton.mp last]
        exact readable frame decoded
    · simp only [Bool.false_eq_true, false_iff, not_forall]
      refine ⟨frame, by simp, ?_⟩
      rintro ⟨event, rfl⟩
      exact other event rfl

/-- A step that reads nothing and leaves the service alone. -/
theorem session_quiet (sound : SessionSound setup state) (ingest : next.ingest = state.ingest)
    (pending : next.requestPending = state.requestPending) (frames : next.frames = state.frames) :
    SessionSound setup next := by
  refine ⟨?_, ?_, ?_⟩
  · rw [ingest]
    exact sound.ingest
  · rw [ingest, frames]
    exact sound.frames
  · rw [pending, frames]
    exact sound.pending

theorem session_step_sound (sendable : Sendable setup) (sound : SessionSound setup state)
    (stepped : step setup state action = some next) : SessionSound setup next := by
  cases action with
  | server action =>
      simp only [step] at stepped
      split_ifs at stepped
      rcases Option.map_eq_some_iff.mp stepped with ⟨ingest, served, rfl⟩
      have grows := ingest_grows sound.ingest served
      exact ⟨reachable_step sound.ingest trivial served,
        fun frame listed => frame_sound_grows grows (sound.frames frame listed), sound.pending⟩
  | dial succeeds =>
      simp only [step] at stepped
      split at stepped
      · split_ifs at stepped
        · cases stepped
          exact session_quiet sound rfl rfl rfl
        · cases stepped
          exact session_quiet sound rfl rfl rfl
      · cases stepped
  | write failed =>
      simp only [step] at stepped
      split at stepped
      · cases stepped
        unfold writeRequest
        split_ifs
        · split
          · exact session_quiet sound rfl rfl rfl
          · exact session_quiet sound rfl rfl rfl
          · exact session_quiet sound rfl rfl rfl
        · exact session_quiet sound rfl rfl rfl
      · cases stepped
  | read =>
      simp only [step] at stepped
      split at stepped
      · rename_i attempt _
        rcases Option.map_eq_some_iff.mp stepped with ⟨⟨reply, text⟩, sent, rfl⟩
        have counted : SessionSound setup { state with
            taken := Function.update state.taken attempt (state.taken attempt + 1) } :=
          session_quiet sound rfl rfl rfl
        apply read_sound counted
        intro frame decoded
        rcases own_answer_decoded sendable sound.ingest (List.mem_of_getElem? sent) with
          ⟨shown, same, _, frameSound⟩
        cases same.symm.trans decoded
        exact frameSound
      · cases stepped
  | push event =>
      simp only [step] at stepped
      split at stepped
      · rcases Option.map_eq_some_iff.mp stepped with ⟨data, pushed, rfl⟩
        exact read_sound sound fun frame decoded => pushed_sound pushed frame decoded _
      · cases stepped
  | disconnect | elapse =>
      simp only [step] at stepped
      split at stepped
      · cases stepped
        exact session_quiet sound rfl rfl rfl
      · cases stepped
  | cancel =>
      cases stepped
      exact session_quiet sound rfl rfl rfl

theorem reachable_session (sendable : Sendable setup)
    (reached : Reachable (step setup) anyStep (initial : State Other limit) state) :
    SessionSound setup state := by
  have fresh : SessionSound setup (initial : State Other limit) :=
    ⟨reachable_start, fun _ listed => absurd listed List.not_mem_nil,
      ⟨fun _ _ listed => absurd listed List.not_mem_nil, fun _ => rfl⟩⟩
  exact reachable_invariant (SessionSound setup) fresh
    (fun _ _ _ sound _ stepped => session_step_sound sendable sound stepped) reached

end Invariant

section Results

variable {Other : Type} [Fintype Other] [DecidableEq Other]

/-- However often the client has sent its request, at most one message is stored for
it; every acknowledgement it has read names that message, which is in the room and has
the payload of the request; a rejection says that the request was not accepted; and
the client goes on sending exactly until it has read an answer. -/
theorem answers_about_one_message (setup : Setup Other) (sendable : Sendable setup) (limit : Nat)
    (state : State Other limit) (reached : Reachable (step setup) anyStep initial state) :
    (∀ left ∈ state.ingest.store.db.messages, ∀ right ∈ state.ingest.store.db.messages,
      clientKey left = requestKey setup → clientKey right = requestKey setup → left = right) ∧
    (∀ ack, .accepted ack ∈ state.frames →
      ∃ row ∈ state.ingest.store.db.messages, StoredFor setup row ∧ Acknowledges ack row) ∧
    (∀ ack, .rejected ack ∈ state.frames →
      ack = rejectedAck setup.request.clientMessageID notAcceptedErrorCode) ∧
    (state.requestPending = true ↔ ∀ frame ∈ state.frames, ∃ event, frame = .event event) := by
  have sound := reachable_session sendable reached
  refine ⟨?_, fun ack listed => sound.frames _ listed, fun ack listed => sound.frames _ listed,
    sound.pending⟩
  intro left leftListed right rightListed leftKey rightKey
  have known := ingest_origins sound.ingest
  exact row_of_key known.store.database leftListed rightListed (leftKey.trans rightKey.symm)

def sampleSetup : Setup Empty where
  columns := DeliveryPipeline.jsonColumns
  clientID := ascii "abc123"
  request := sampleSendRequest (List.replicate 16 0x5A) (ascii "2")
  others := Empty.elim

theorem sample_sendable : Sendable sampleSetup := by
  have checked : isBlank sampleSetup.clientID = false ∧ sampleSetup.request.validate = .ok () ∧
      isValidUtf8 sampleSetup.request.clientMessageID = true ∧
      isValidUtf8 sampleSetup.request.roomID = true := by
    decide +kernel
  exact ⟨DeliveryPipeline.json_columns_keep, checked.1, checked.2.1, checked.2.2.1,
    checked.2.2.2, fun other => other.elim⟩

def handlerMoves (statements : Nat) : List IngestModel.Move :=
  .receive :: List.replicate statements (.accept (.run (randomBytes 1) noon)) ++
    [.answer, .enqueue]

def handling (attempt : Fin 2) (statements : Nat) : List (Action Empty 2) :=
  (handlerMoves statements).map fun move => .server ⟨.inl attempt, move⟩

/-- The first connection breaks after the request has gone out, and the client sends it
again. -/
def brokenSession : List (Action Empty 2) :=
  [.dial true, .write (some true)] ++ handling firstOfTwo 9 ++
    [.elapse, .dial true, .write none] ++ handling secondOfTwo 3 ++ [.read]

def isAccepted : DecodedFrame → Bool
  | .accepted _ => true
  | _ => false

theorem broken_session_ran : (runActions (step sampleSetup) anyStep initial brokenSession).map
    (fun state => (state.requestPending, state.frames.map isAccepted,
      state.ingest.store.db.messages.length)) = some (false, [true], 1) := by
  decide +kernel

/-- The acknowledgement that the second connection brings is about the message that
the first one has stored. -/
theorem broken_session_acknowledged :
    ∃ state : State Empty 2, Reachable (step sampleSetup) anyStep initial state ∧
      state.ingest.store.db.messages.length = 1 ∧
      ∃ ack, .accepted ack ∈ state.frames ∧
        ∃ row ∈ state.ingest.store.db.messages, StoredFor sampleSetup row ∧
          Acknowledges ack row := by
  rcases Option.map_eq_some_iff.mp broken_session_ran with ⟨state, ran, facts⟩
  simp only [Prod.mk.injEq] at facts
  rcases facts with ⟨_, read, stored⟩
  rcases List.map_eq_singleton_iff.mp read with ⟨frame, only, accepted⟩
  have reached := reachable_run_actions reachable_start ran
  cases frame with
  | accepted ack =>
      have listed : DecodedFrame.accepted ack ∈ state.frames := by rw [only]; simp
      exact ⟨state, reached, stored, ack, listed,
        (answers_about_one_message sampleSetup sample_sendable 2 state reached).2.1 ack listed⟩
  | rejected ack => cases accepted
  | event event => cases accepted

end Results

end ChatScale.ClientSession
