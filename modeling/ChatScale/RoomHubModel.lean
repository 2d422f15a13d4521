import ChatScale.BoundedDelivery
import ChatScale.HubRooms

/-!
# The hub of the earlier stages

In the single-instance and the naive-scale server one goroutine, `Run`, owns the
rooms and takes registrations, unregistrations and broadcasts from channels
without a buffer. A broadcast comes from a `Broadcast` call in the former; in
the latter it comes over Redis, and the `consume` goroutine hands one message
after the other to `Run`, which subscribes to the channel of a room when it gets
its first client and unsubscribes with the last one. Each client has a
`ReadPump` and a `WritePump`; a read, a write or a ping may fail at any time.
The context is not cancelled.
-/

namespace ChatScale.RoomHubModel

open ChatScale.ByteText ChatScale.HubRooms

set_option autoImplicit false

inductive Variant where
  | singleInstance
  | naiveScale
  deriving DecidableEq

structure Envelope where
  roomID : Bytes
  payload : Bytes
  deriving DecidableEq

def sendBuffer : Nat := 256

def roomChannelPrefix : Bytes := ascii "room:"

def roomChannel (roomID : Bytes) : Bytes := roomChannelPrefix ++ roomID

/-- The room of a channel: `strings.TrimPrefix`. -/
def roomOfChannel (channel : Bytes) : Bytes :=
  (channel.dropPrefix? roomChannelPrefix).getD channel

/-- Where the goroutine of a client's requests is: before and in `Register`,
before `ReadPump` is started, in `ReadPump`, in `Unregister`, and after it. -/
inductive ReadStage where
  | absent
  | registering
  | registered
  | reading
  | unregistering
  | ended
  deriving DecidableEq

inductive PumpStage where
  | notStarted
  | waiting
  | writing (payload : Bytes)
  | pinging
  | returned
  deriving DecidableEq

structure ClientState where
  read : ReadStage
  pump : PumpStage
  send : List Bytes
  sendClosed : Bool
  deriving DecidableEq

inductive ClientMove where
  | connect
  | startWrite
  | startRead
  | read
  | readFail
  | take
  | write
  | writeFail
  | ping
  | pingWritten
  | pingFail
  | sendEnded

/-- The moves of a client on its own. `read` hands a frame to the service, which
does not touch the hub. -/
def clientMove : ClientMove → ClientState → Option ClientState
  | .connect, ⟨.absent, pump, send, ended⟩ => some ⟨.registering, pump, send, ended⟩
  | .startWrite, ⟨.registered, .notStarted, send, ended⟩ =>
      some ⟨.registered, .waiting, send, ended⟩
  | .startRead, ⟨.registered, pump, send, ended⟩ =>
      if pump = .notStarted then none else some ⟨.reading, pump, send, ended⟩
  | .read, ⟨.reading, pump, send, ended⟩ => some ⟨.reading, pump, send, ended⟩
  | .readFail, ⟨.reading, pump, send, ended⟩ => some ⟨.unregistering, pump, send, ended⟩
  | .take, ⟨read, .waiting, payload :: rest, ended⟩ => some ⟨read, .writing payload, rest, ended⟩
  | .write, ⟨read, .writing _, send, ended⟩ => some ⟨read, .waiting, send, ended⟩
  | .writeFail, ⟨read, .writing _, send, ended⟩ => some ⟨read, .returned, send, ended⟩
  | .ping, ⟨read, .waiting, send, ended⟩ => some ⟨read, .pinging, send, ended⟩
  | .pingWritten, ⟨read, .pinging, send, ended⟩ => some ⟨read, .waiting, send, ended⟩
  | .pingFail, ⟨read, .pinging, send, ended⟩ => some ⟨read, .returned, send, ended⟩
  | .sendEnded, ⟨read, .waiting, [], true⟩ => some ⟨read, .returned, [], true⟩
  | _, _ => none

/-- `Run`: in its `select`, or in the loop of a broadcast with the clients that
still have to get the payload. -/
inductive RunStage (Client : Type) where
  | selecting
  | sending (payload : Bytes) (remaining : List Client)
  deriving DecidableEq

section Steps

variable {Client : Type}

/-- `offered` are the envelopes whose sender waits for `Run`; `subscriptions`
the channels subscribed to and not unsubscribed from. -/
structure State (Client : Type) [DecidableEq Client] where
  rooms : Hub (id : Client → Client)
  clients : Client → ClientState
  run : RunStage Client
  offered : List Envelope
  subscriptions : List Bytes

/-- `targets` is the order in which the loop over the room meets its clients. -/
inductive Action (Client : Type) where
  | client (client : Client) (move : ClientMove)
  | register (client : Client)
  | unregister (client : Client)
  | broadcast (envelope : Envelope)
  | consume (channel payload : Bytes)
  | handle (envelope : Envelope) (targets : List Client)
  | send
  | next

variable [DecidableEq Client]

def initial : State Client :=
  ⟨newHub, fun _ => ⟨.absent, .notStarted, [], false⟩, .selecting, [], []⟩

def setClient (state : State Client) (client : Client) (new : ClientState) : State Client :=
  { state with clients := Function.update state.clients client new }

/-- A first client of a room: naive-scale subscribes to the room's channel. -/
def registerStep (variant : Variant) (roomOf : Client → Bytes) (state : State Client)
    (client : Client) : Option (State Client) :=
  match state.run, state.clients client with
  | .selecting, ⟨.registering, pump, send, ended⟩ =>
      let known := (state.rooms.members (roomOf client)).isSome
      some { setClient state client ⟨.registered, pump, send, ended⟩ with
        rooms := state.rooms.join client (roomOf client)
        subscriptions := match variant, known with
          | .naiveScale, false => state.subscriptions ++ [roomChannel (roomOf client)]
          | _, _ => state.subscriptions }
  | _, _ => none

/-- A client that is not in its room any more is left alone; otherwise its send
channel is closed, and with the last client the room goes. -/
def unregisterStep (variant : Variant) (roomOf : Client → Bytes) (state : State Client)
    (client : Client) : Option (State Client) :=
  match state.run, state.clients client with
  | .selecting, ⟨.unregistering, pump, send, ended⟩ =>
      if (state.rooms.clientAt (roomOf client) client).isSome then
        let rooms := state.rooms.leave client (roomOf client)
        let gone := (rooms.members (roomOf client)).isNone
        some { setClient state client ⟨.ended, pump, send, true⟩ with
          rooms := rooms
          subscriptions := match variant, gone with
            | .naiveScale, true => state.subscriptions.erase (roomChannel (roomOf client))
            | _, _ => state.subscriptions }
      else some (setClient state client ⟨.ended, pump, send, ended⟩)
  | _, _ => none

/-- The caller of `Broadcast` waits for `Run`; in naive-scale it publishes to
Redis instead. -/
def broadcastStep (variant : Variant) (state : State Client) (envelope : Envelope) :
    Option (State Client) :=
  match variant with
  | .singleInstance => some { state with offered := state.offered ++ [envelope] }
  | .naiveScale => none

/-- A message from Redis, which `consume` takes when `Run` has taken the last one. -/
def consumeStep (variant : Variant) (state : State Client) (channel payload : Bytes) :
    Option (State Client) :=
  match variant, state.offered with
  | .naiveScale, [] => some { state with offered := [⟨roomOfChannel channel, payload⟩] }
  | _, _ => none

def handleStep (state : State Client) (envelope : Envelope) (targets : List Client) :
    Option (State Client) :=
  match state.run with
  | .selecting =>
      if envelope ∈ state.offered ∧
          targets.Perm ((state.rooms.members envelope.roomID).getD []) then
        some { state with
          run := .sending envelope.payload targets
          offered := state.offered.erase envelope }
      else none
  | _ => none

def sendStep (state : State Client) : Option (State Client) :=
  match state.run with
  | .sending payload (client :: rest) =>
      let current := state.clients client
      if current.send.length < sendBuffer ∧ current.sendClosed = false then
        some { setClient state client { current with send := current.send ++ [payload] } with
          run := .sending payload rest }
      else none
  | _ => none

def step (variant : Variant) (roomOf : Client → Bytes) (state : State Client) :
    Action Client → Option (State Client)
  | .client client move => (clientMove move (state.clients client)).map (setClient state client)
  | .register client => registerStep variant roomOf state client
  | .unregister client => unregisterStep variant roomOf state client
  | .broadcast envelope => broadcastStep variant state envelope
  | .consume channel payload => consumeStep variant state channel payload
  | .handle envelope targets => handleStep state envelope targets
  | .send => sendStep state
  | .next =>
      match state.run with
      | .sending _ [] => some { state with run := .selecting }
      | _ => none

end Steps

section Cases

variable {Client : Type} [DecidableEq Client] {variant : Variant} {roomOf : Client → Bytes}
  {state after : State Client} {client : Client}

@[simp] theorem set_client_self (state : State Client) (client : Client) (new : ClientState) :
    (setClient state client new).clients client = new := by
  simp only [setClient, Function.update_self]

theorem set_client_other (state : State Client) {client other : Client} (new : ClientState)
    (differ : other ≠ client) :
    (setClient state client new).clients other = state.clients other := by
  simp only [setClient, Function.update_of_ne differ]

/-- What a step of the server does. -/
inductive Stepped (variant : Variant) (roomOf : Client → Bytes) (state : State Client) :
    Action Client → State Client → Prop where
  | client {client : Client} {move : ClientMove} {new : ClientState}
      (moved : clientMove move (state.clients client) = some new) :
      Stepped variant roomOf state (.client client move) (setClient state client new)
  | register {client : Client} {pump : PumpStage} {send : List Bytes} {ended : Bool}
      (selecting : state.run = .selecting)
      (registering : state.clients client = ⟨.registering, pump, send, ended⟩) :
      Stepped variant roomOf state (.register client)
        { setClient state client ⟨.registered, pump, send, ended⟩ with
          rooms := state.rooms.join client (roomOf client)
          subscriptions := match variant, (state.rooms.members (roomOf client)).isSome with
            | .naiveScale, false => state.subscriptions ++ [roomChannel (roomOf client)]
            | _, _ => state.subscriptions }
  | leave {client : Client} {pump : PumpStage} {send : List Bytes} {ended : Bool}
      (selecting : state.run = .selecting)
      (unregistering : state.clients client = ⟨.unregistering, pump, send, ended⟩)
      (member : (state.rooms.clientAt (roomOf client) client).isSome = true) :
      Stepped variant roomOf state (.unregister client)
        { setClient state client ⟨.ended, pump, send, true⟩ with
          rooms := state.rooms.leave client (roomOf client)
          subscriptions :=
            match variant, ((state.rooms.leave client (roomOf client)).members
              (roomOf client)).isNone with
            | .naiveScale, true => state.subscriptions.erase (roomChannel (roomOf client))
            | _, _ => state.subscriptions }
  | unknown {client : Client} {pump : PumpStage} {send : List Bytes} {ended : Bool}
      (selecting : state.run = .selecting)
      (unregistering : state.clients client = ⟨.unregistering, pump, send, ended⟩)
      (absent : ¬ (state.rooms.clientAt (roomOf client) client).isSome = true) :
      Stepped variant roomOf state (.unregister client)
        (setClient state client ⟨.ended, pump, send, ended⟩)
  | broadcast {envelope : Envelope} (single : variant = .singleInstance) :
      Stepped variant roomOf state (.broadcast envelope)
        { state with offered := state.offered ++ [envelope] }
  | consume {channel payload : Bytes} (naive : variant = .naiveScale) (idle : state.offered = []) :
      Stepped variant roomOf state (.consume channel payload)
        { state with offered := [⟨roomOfChannel channel, payload⟩] }
  | handle {envelope : Envelope} {targets : List Client} (selecting : state.run = .selecting)
      (offered : envelope ∈ state.offered)
      (reordered : targets.Perm ((state.rooms.members envelope.roomID).getD [])) :
      Stepped variant roomOf state (.handle envelope targets)
        { state with
          run := .sending envelope.payload targets
          offered := state.offered.erase envelope }
  | send {payload : Bytes} {client : Client} {rest : List Client}
      (sending : state.run = .sending payload (client :: rest))
      (room : (state.clients client).send.length < sendBuffer)
      (isOpen : (state.clients client).sendClosed = false) :
      Stepped variant roomOf state .send
        { setClient state client { state.clients client with
            send := (state.clients client).send ++ [payload] } with
          run := .sending payload rest }
  | next {payload : Bytes} (sending : state.run = .sending payload []) :
      Stepped variant roomOf state .next { state with run := .selecting }

theorem step_cases {action : Action Client}
    (stepped : step variant roomOf state action = some after) :
    Stepped variant roomOf state action after := by
  cases action with
  | client client move =>
      obtain ⟨new, moved, rfl⟩ := Option.map_eq_some_iff.mp stepped
      exact .client moved
  | register client =>
      simp only [step, registerStep] at stepped
      split at stepped
      · rename_i selecting registering
        cases stepped
        exact .register selecting registering
      · cases stepped
  | unregister client =>
      simp only [step, unregisterStep] at stepped
      split at stepped
      · rename_i selecting unregistering
        split_ifs at stepped with member
        · cases stepped
          exact .leave selecting unregistering member
        · cases stepped
          exact .unknown selecting unregistering member
      · cases stepped
  | broadcast envelope =>
      cases variant with
      | singleInstance =>
          cases stepped
          exact .broadcast rfl
      | naiveScale => cases stepped
  | consume channel payload =>
      simp only [step, consumeStep] at stepped
      split at stepped
      · rename_i idle
        cases stepped
        exact .consume rfl idle
      · cases stepped
  | handle envelope targets =>
      simp only [step, handleStep] at stepped
      split at stepped
      · rename_i selecting
        split_ifs at stepped with taken
        cases stepped
        exact .handle selecting taken.1 taken.2
      · cases stepped
  | send =>
      simp only [step, sendStep] at stepped
      split at stepped
      · rename_i payload client rest sending
        split_ifs at stepped with room
        cases stepped
        exact .send sending room.1 room.2
      · cases stepped
  | next =>
      simp only [step] at stepped
      split at stepped
      · rename_i sending
        cases stepped
        exact .next sending
      · cases stepped

/-- The loop of a broadcast meets a client once. -/
theorem targets_nodup {targets : List Client} {roomID : Bytes}
    (reordered : targets.Perm ((state.rooms.members roomID).getD [])) : targets.Nodup := by
  apply reordered.nodup_iff.mpr
  cases found : state.rooms.members roomID with
  | none => exact List.nodup_nil
  | some members => exact members_nodup state.rooms found

end Cases

end ChatScale.RoomHubModel
