import ChatScale.BoundedDelivery
import ChatScale.HubRooms
import ChatScale.MessageContract

/-!
# A message service instance

The goroutines around the hub: the Redis consumer, which dispatches one message
after the other and holds the hub's lock for reading while it sends, and for
each connection its `ServeWS` run and its `WritePump`. A read or a write of a
socket may fail at any time, as after a failed ping, and what the read loop
answers to a frame is left open. Registering and unregistering are single
steps: they take the hub's lock for writing, so they wait for the consumer, and
do not wait for anything while they have it.
-/

namespace ChatScale.LiveHubModel

open ChatScale.ByteText ChatScale.MessageContract ChatScale.HubRooms

set_option autoImplicit false

/-- The query parameters of a connection. -/
structure Profile where
  clientID : Bytes
  roomIDs : List Bytes

/-- The capacity of `ClientConnection.Send`. -/
def sendCapacity : Nat := 256

/-- Where a `ServeWS` run is. `configured` is before `Register`, `registered`
before the pump is started, `disconnecting` before `Unregister` and `closing`
after it, until the run returns and its context is cancelled. -/
inductive ServeStage where
  | absent
  | configured
  | registered
  | reading
  | enqueueing (frame : Bytes)
  | disconnecting
  | closing
  | closed
  deriving DecidableEq

inductive PumpStage where
  | notStarted
  | waiting
  | writing (frame : Bytes)
  | returned
  deriving DecidableEq

structure Connection where
  serve : ServeStage
  pump : PumpStage
  send : List Bytes
  deriving DecidableEq

inductive ConnectionMove where
  | configure
  | startPump
  | read (reply : Option Bytes)
  | enqueue
  | readFail
  | finish
  | take
  | write
  | writeFail
  | stop

/-- The moves of a connection that do not touch the hub. -/
def connectionMove : ConnectionMove → Connection → Option Connection
  | .configure, ⟨.absent, pump, send⟩ => some ⟨.configured, pump, send⟩
  | .startPump, ⟨.registered, .notStarted, send⟩ => some ⟨.reading, .waiting, send⟩
  | .read none, ⟨.reading, pump, send⟩ => some ⟨.reading, pump, send⟩
  | .read (some frame), ⟨.reading, pump, send⟩ => some ⟨.enqueueing frame, pump, send⟩
  | .enqueue, ⟨.enqueueing frame, pump, send⟩ =>
      if send.length < sendCapacity then some ⟨.reading, pump, send ++ [frame]⟩ else none
  | .readFail, ⟨.reading, pump, send⟩ => some ⟨.disconnecting, pump, send⟩
  | .finish, ⟨.closing, pump, send⟩ => some ⟨.closed, pump, send⟩
  | .take, ⟨serve, .waiting, frame :: rest⟩ => some ⟨serve, .writing frame, rest⟩
  | .write, ⟨serve, .writing _, send⟩ => some ⟨serve, .waiting, send⟩
  | .writeFail, ⟨serve, .writing _, send⟩ => some ⟨serve, .returned, send⟩
  | .stop, ⟨.closed, .waiting, send⟩ => some ⟨.closed, .returned, send⟩
  | _, _ => none

section Connections

/-- `Register` has returned and the read loop has not ended. -/
def isLive : ServeStage → Bool
  | .registered => true
  | .reading => true
  | .enqueueing _ => true
  | _ => false

/-- The connection may be in the hub. -/
def isJoined : ServeStage → Bool
  | .registered => true
  | .reading => true
  | .enqueueing _ => true
  | .disconnecting => true
  | _ => false

def repliesOwed : ServeStage → Nat
  | .enqueueing _ => 1
  | _ => 0

def localLoad (connection : Connection) : Nat :=
  connection.send.length + repliesOwed connection.serve

/-- What a move of a connection can do: only a frame that was read adds to what
is on its way to the connection, and its pump returns after a failed write or
when the run is over. -/
structure MoveEffect (move : ConnectionMove) (before after : Connection) : Prop where
  joined : isJoined after.serve = isJoined before.serve
  live : isLive after.serve = true → isLive before.serve = true
  buffer : before.send.length ≤ sendCapacity → after.send.length ≤ sendCapacity
  load : localLoad after ≤ localLoad before ∨
    (∃ frame, move = .read (some frame)) ∧ localLoad after = localLoad before + 1
  returned : after.pump = .returned → before.pump = .returned ∨ move = .writeFail ∨
    move = .stop ∧ before.serve = .closed ∧ localLoad after = after.send.length
  dead : before.pump = .returned → after.pump = .returned ∧
    (after.send = before.send ∨ before.send.length < sendCapacity)

theorem connection_move_effect {move : ConnectionMove} {before after : Connection}
    (moved : connectionMove move before = some after) : MoveEffect move before after := by
  unfold connectionMove at moved
  split at moved
  case h_1 =>
      cases moved
      exact ⟨rfl, Bool.noConfusion, id, .inl (le_refl _), .inl, fun dead => ⟨dead, .inl rfl⟩⟩
  case h_2 =>
      cases moved
      refine ⟨rfl, fun _ => rfl, id, .inl (le_refl _), ?_, ?_⟩
      · intro returned
        cases returned
      · intro dead
        cases dead
  case h_3 =>
      cases moved
      exact ⟨rfl, id, id, .inl (le_refl _), .inl, fun dead => ⟨dead, .inl rfl⟩⟩
  case h_4 frame pump send =>
      cases moved
      exact ⟨rfl, fun _ => rfl, id, .inr ⟨⟨frame, rfl⟩, rfl⟩, .inl, fun dead => ⟨dead, .inl rfl⟩⟩
  case h_5 frame pump send =>
      split_ifs at moved with room
      cases moved
      have grown : (send ++ [frame]).length = send.length + 1 := List.length_append
      refine ⟨rfl, fun _ => rfl, fun _ => ?_, .inl ?_, .inl, fun dead => ⟨dead, .inr room⟩⟩
      · rw [grown]
        exact room
      · simp only [localLoad, repliesOwed, grown]
        omega
  case h_6 =>
      cases moved
      exact ⟨rfl, Bool.noConfusion, id, .inl (le_refl _), .inl, fun dead => ⟨dead, .inl rfl⟩⟩
  case h_7 =>
      cases moved
      exact ⟨rfl, Bool.noConfusion, id, .inl (le_refl _), .inl, fun dead => ⟨dead, .inl rfl⟩⟩
  case h_8 serve frame rest =>
      cases moved
      refine ⟨rfl, id, (Nat.le_succ _).trans, .inl ?_, ?_, ?_⟩
      · exact Nat.add_le_add_right (Nat.le_succ _) _
      · intro returned
        cases returned
      · intro dead
        cases dead
  case h_9 =>
      cases moved
      refine ⟨rfl, id, id, .inl (le_refl _), ?_, ?_⟩
      · intro returned
        cases returned
      · intro dead
        cases dead
  case h_10 =>
      cases moved
      refine ⟨rfl, id, id, .inl (le_refl _), fun _ => .inr (.inl rfl), ?_⟩
      intro dead
      cases dead
  case h_11 =>
      cases moved
      refine ⟨rfl, id, id, .inl (le_refl _), fun _ => .inr (.inr ⟨rfl, rfl, rfl⟩), ?_⟩
      intro dead
      cases dead
  case h_12 => cases moved

end Connections

/-- The consumer: between two messages, or in the loop of `Dispatch` with the
connections that still have to get the frame. -/
inductive Dispatcher (Conn : Type) where
  | idle
  | sending (frame : Bytes) (remaining : List Conn)
  deriving DecidableEq

/-- What `Dispatch` sends, if the message is valid. -/
def dispatchFrame (event : Event) : Option Bytes :=
  match event.validate with
  | .error _ => none
  | .ok () => event.marshal

section Steps

variable {Conn : Type} (profiles : Conn → Profile)

/-- `order` lists the connections in the order in which they were registered. -/
structure State where
  hub : Hub fun conn => (profiles conn).clientID
  conns : Conn → Connection
  dispatcher : Dispatcher Conn
  order : List Conn

/-- `targets` is the order in which the loop of `Dispatch` meets the room's
connections. -/
inductive Action (Conn : Type) where
  | connection (conn : Conn) (move : ConnectionMove)
  | register (conn : Conn)
  | unregister (conn : Conn)
  | dispatch (event : Event) (targets : List Conn)
  | send
  | release

def initial : State profiles := ⟨newHub, fun _ => ⟨.absent, .notStarted, []⟩, .idle, []⟩

variable [DecidableEq Conn] {profiles}

def setConnection (state : State profiles) (conn : Conn) (connection : Connection) :
    State profiles :=
  { state with conns := Function.update state.conns conn connection }

def registerStep (state : State profiles) (conn : Conn) : Option (State profiles) :=
  match state.dispatcher, state.conns conn with
  | .idle, ⟨.configured, pump, send⟩ =>
      some { setConnection state conn ⟨.registered, pump, send⟩ with
        hub := state.hub.register (profiles conn).roomIDs conn
        order := state.order ++ [conn] }
  | _, _ => none

def unregisterStep (state : State profiles) (conn : Conn) : Option (State profiles) :=
  match state.dispatcher, state.conns conn with
  | .idle, ⟨.disconnecting, pump, send⟩ =>
      some { setConnection state conn ⟨.closing, pump, send⟩ with
        hub := state.hub.unregister (profiles conn).clientID }
  | _, _ => none

/-- A message that is not valid, or whose room is not here, is dropped. -/
def dispatchStep (state : State profiles) (event : Event) (targets : List Conn) :
    Option (State profiles) :=
  match state.dispatcher, dispatchFrame event, state.hub.members event.roomID with
  | .idle, some frame, some conns =>
      if targets.Perm conns then some { state with dispatcher := .sending frame targets }
      else none
  | .idle, _, _ => some state
  | _, _, _ => none

def sendStep (state : State profiles) : Option (State profiles) :=
  match state.dispatcher with
  | .sending frame (conn :: rest) =>
      let connection := state.conns conn
      if connection.send.length < sendCapacity then
        some { setConnection state conn { connection with send := connection.send ++ [frame] } with
          dispatcher := .sending frame rest }
      else none
  | _ => none

def step (state : State profiles) : Action Conn → Option (State profiles)
  | .connection conn move =>
      (connectionMove move (state.conns conn)).map (setConnection state conn)
  | .register conn => registerStep state conn
  | .unregister conn => unregisterStep state conn
  | .dispatch event targets => dispatchStep state event targets
  | .send => sendStep state
  | .release =>
      match state.dispatcher with
      | .sending _ [] => some { state with dispatcher := .idle }
      | _ => none

end Steps

section Cases

variable {Conn : Type} [DecidableEq Conn] {profiles : Conn → Profile}
  {state after : State profiles} {conn : Conn}

@[simp] theorem set_connection_self (state : State profiles) (conn : Conn)
    (connection : Connection) : (setConnection state conn connection).conns conn = connection := by
  simp only [setConnection, Function.update_self]

theorem set_connection_other (state : State profiles) {conn other : Conn}
    (connection : Connection) (differ : other ≠ conn) :
    (setConnection state conn connection).conns other = state.conns other := by
  simp only [setConnection, Function.update_of_ne differ]

theorem set_connection_forall (holds : Conn → Connection → Prop) {connection : Connection}
    (others : ∀ other, holds other (state.conns other)) (new : holds conn connection)
    (other : Conn) : holds other ((setConnection state conn connection).conns other) := by
  by_cases same : other = conn
  · rw [same, set_connection_self]
    exact new
  · rw [set_connection_other state connection same]
    exact others other

theorem register_step_cases (stepped : registerStep state conn = some after) :
    state.dispatcher = .idle ∧ ∃ pump send, state.conns conn = ⟨.configured, pump, send⟩ ∧
      after = { setConnection state conn ⟨.registered, pump, send⟩ with
        hub := state.hub.register (profiles conn).roomIDs conn
        order := state.order ++ [conn] } := by
  unfold registerStep at stepped
  split at stepped
  · rename_i pump send idle configured
    cases stepped
    exact ⟨idle, pump, send, configured, rfl⟩
  · cases stepped

theorem unregister_step_cases (stepped : unregisterStep state conn = some after) :
    state.dispatcher = .idle ∧ ∃ pump send, state.conns conn = ⟨.disconnecting, pump, send⟩ ∧
      after = { setConnection state conn ⟨.closing, pump, send⟩ with
        hub := state.hub.unregister (profiles conn).clientID } := by
  unfold unregisterStep at stepped
  split at stepped
  · rename_i pump send idle disconnecting
    cases stepped
    exact ⟨idle, pump, send, disconnecting, rfl⟩
  · cases stepped

theorem dispatch_step_cases {event : Event} {targets : List Conn}
    (stepped : dispatchStep state event targets = some after) :
    state.dispatcher = .idle ∧ (after = state ∨ ∃ frame conns,
      state.hub.members event.roomID = some conns ∧ targets.Perm conns ∧
      after = { state with dispatcher := .sending frame targets }) := by
  unfold dispatchStep at stepped
  split at stepped
  · rename_i frame conns idle _ found
    split_ifs at stepped with ordered
    cases stepped
    exact ⟨idle, .inr ⟨frame, conns, found, ordered, rfl⟩⟩
  · rename_i idle _
    cases stepped
    exact ⟨idle, .inl rfl⟩
  · cases stepped

theorem send_step_cases (stepped : sendStep state = some after) :
    ∃ frame conn rest, state.dispatcher = .sending frame (conn :: rest) ∧
      (state.conns conn).send.length < sendCapacity ∧
      after = { setConnection state conn
        { state.conns conn with send := (state.conns conn).send ++ [frame] } with
          dispatcher := .sending frame rest } := by
  unfold sendStep at stepped
  split at stepped
  · rename_i frame conn rest sending
    dsimp only at stepped
    split_ifs at stepped with room
    cases stepped
    exact ⟨frame, conn, rest, sending, room, rfl⟩
  · cases stepped

end Cases

end ChatScale.LiveHubModel
