import ChatScale.CausalOrder
import ChatScale.ClientFrames
import ChatScale.KafkaSessions
import ChatScale.RecordFanout

/-!
# The whole way of a message

The store and its relays, the partitions of the topic with the sessions that
consume them, the delivery service, and any number of message service
instances with their connections, all at once and in any order of steps.

A record goes to the partition of its key. A delivered record goes to the
channels of the instances that presence lists at that time; if the pipeline
fails, Redis may have executed some of its commands. An instance gets what is
published while it is subscribed. Its subscription can be interrupted, can be
closed with everything that waits in it, and the instance can be shut down,
after which `Dispatch` may give up between two connections.
-/

namespace ChatScale.DeliverySystem

open ChatScale.ByteText ChatScale.CivilTime ChatScale.MessageContract ChatScale.DeliveryPipeline
open ChatScale.RecordFanout
open ChatScale.MessageStoreModel (Input)
open ChatScale.OutboxRelayModel (Environment Record)
open ChatScale.KafkaSessions (ConsumerMessage messageOf)
open ChatScale.LiveHubModel (Profile Connection ConnectionMove Dispatcher dispatchStep sendStep
  registerStep unregisterStep setConnection)
open ChatScale.IngestModel (acceptedAck rejectedAck)

set_option autoImplicit false

section Service

/-- What `handleMessage` enqueues. -/
inductive Answer where
  | accepted (event : Event)
  | rejected (clientMessageID errorCode : Bytes)

def Answer.marshal : Answer → Bytes
  | .accepted event => (acceptedAck event).marshal
  | .rejected clientMessageID errorCode => (rejectedAck clientMessageID errorCode).marshal

variable {Conn : Type} (profiles : Conn → Profile)

/-- An instance. `queue` waits for its consumer, `enqueued` is all that was put
on the `Send` channel of a connection, and `written` what its socket got. -/
structure Service where
  subscribed : Bool
  cancelled : Bool
  queue : List Bytes
  hub : LiveHubModel.State profiles
  enqueued : Conn → List Bytes
  written : Conn → List Bytes

/-- `answer` is a frame that was read and gets an answer; `connection` has the
other moves of a connection. -/
inductive ServiceAction (Conn : Type) where
  | subscribe
  | interrupt
  | close
  | cancel
  | receive (targets : List Conn)
  | send
  | release
  | abort
  | register (conn : Conn)
  | unregister (conn : Conn)
  | answer (conn : Conn) (answer : Answer)
  | connection (conn : Conn) (move : ConnectionMove)

def newService : Service profiles :=
  ⟨false, false, [], LiveHubModel.initial profiles, fun _ => [], fun _ => []⟩

/-- The frame that a move puts on `Send`. -/
def enqueuedBy : ConnectionMove → Connection → List Bytes
  | .enqueue, ⟨.enqueueing frame, _, _⟩ => [frame]
  | _, _ => []

/-- The frame that a move writes to the socket. -/
def writtenBy : ConnectionMove → Connection → List Bytes
  | .write, ⟨_, .writing frame, _⟩ => [frame]
  | _, _ => []

def isAnswered : ConnectionMove → Bool
  | .read (some _) => true
  | _ => false

variable {profiles} [DecidableEq Conn]

def receiveMessage (service : Service profiles) (targets : List Conn) :
    Option (Service profiles) :=
  match service.queue, service.hub.dispatcher with
  | payload :: rest, .idle =>
      match consume payload with
      | none => some { service with queue := rest }
      | some event => (dispatchStep service.hub event targets).map fun hub =>
          { service with queue := rest, hub := hub }
  | _, _ => none

def sendFrame (service : Service profiles) : Option (Service profiles) :=
  match service.hub.dispatcher with
  | .sending frame (conn :: _) => (sendStep service.hub).map fun hub =>
      { service with
        hub := hub
        enqueued := Function.update service.enqueued conn (service.enqueued conn ++ [frame]) }
  | _ => none

def moveConnection (service : Service profiles) (conn : Conn) (move : ConnectionMove) :
    Option (Service profiles) :=
  let connection := service.hub.conns conn
  (LiveHubModel.connectionMove move connection).map fun after =>
    { service with
      hub := setConnection service.hub conn after
      enqueued := Function.update service.enqueued conn
        (service.enqueued conn ++ enqueuedBy move connection)
      written := Function.update service.written conn
        (service.written conn ++ writtenBy move connection) }

omit [DecidableEq Conn] in
/-- `Dispatch` returns the error of its context. -/
def abortDispatch (service : Service profiles) : Option (Service profiles) :=
  match service.cancelled, service.hub.dispatcher with
  | true, .sending _ _ => some { service with hub := { service.hub with dispatcher := .idle } }
  | _, _ => none

def serviceStep (service : Service profiles) : ServiceAction Conn → Option (Service profiles)
  | .subscribe => some { service with subscribed := true }
  | .interrupt => some { service with subscribed := false }
  | .close => some { service with subscribed := false, queue := [] }
  | .cancel => some { service with cancelled := true }
  | .receive targets => receiveMessage service targets
  | .send => sendFrame service
  | .release => (LiveHubModel.step service.hub .release).map fun hub => { service with hub := hub }
  | .abort => abortDispatch service
  | .register conn => (registerStep service.hub conn).map fun hub => { service with hub := hub }
  | .unregister conn =>
      (unregisterStep service.hub conn).map fun hub => { service with hub := hub }
  | .answer conn answer => moveConnection service conn (.read (some answer.marshal))
  | .connection conn move => if isAnswered move then none else moveConnection service conn move

/-- A subscription gets the texts that are published to its channel. -/
def Service.accept (service : Service profiles) (texts : List Bytes) : Service profiles :=
  if service.subscribed then { service with queue := service.queue ++ texts } else service

end Service

section System

variable {Caller Relay Partition Instance : Type} {Conn : Instance → Type}

/-- What stays fixed: the database and the relays' settings, the requests of
the callers, Kafka's partitioner, and the names and connections of the
instances. -/
structure Setup (Caller Relay Partition : Type) {Instance : Type} (Conn : Instance → Type) where
  environment : Environment Relay
  inputs : Caller → Input
  partitionOf : Bytes → Partition
  channelPrefix : Bytes
  names : Instance → Bytes
  profiles : ∀ name, Conn name → Profile

structure State (setup : Setup Caller Relay Partition Conn) where
  relay : OutboxRelayModel.System Caller Relay
  partitions : Partition → KafkaSessions.State
  services : ∀ name, Service (setup.profiles name)

/-- `timestamp` is the broker's for a record that this step appends. In
`handle`, `executed` is none if the pipeline succeeds, and otherwise tells which
of its commands Redis executed. -/
inductive Action (Caller Relay Partition : Type) {Instance : Type} (Conn : Instance → Type) where
  | relay (action : OutboxRelayModel.Action Caller Relay) (timestamp : Time)
  | session (partition : Partition) (action : KafkaSessions.Action)
  | handle (partition : Partition) (presence : Presence) (executed : Option (Bytes → Bool))
  | service (name : Instance) (action : ServiceAction (Conn name))

variable {setup : Setup Caller Relay Partition Conn}

/-- The records go to the partition of their key. The producer adds no headers. -/
def appendRecords [DecidableEq Partition] (setup : Setup Caller Relay Partition Conn)
    (records : List Record) (timestamp : Time) (partition : Partition)
    (state : KafkaSessions.State) : KafkaSessions.State :=
  { state with
    log := state.log ++ (records.filter fun record => setup.partitionOf record.key = partition).map
      fun record => ⟨record, [], timestamp⟩ }

/-- What one call of `Handle` publishes, and whether it succeeds. -/
def handleOutcome (channelPrefix : Bytes) (presence : Presence)
    (executed : Option (Bytes → Bool)) (message : Message) :
    Option (Bool × List (Bytes × Bytes)) :=
  match handle presence message, executed with
  | .error _, none => some (false, [])
  | .error _, some _ => none
  | .ok instanceNames, none => some (true, publishMessage channelPrefix message instanceNames)
  | .ok [], some _ => none
  | .ok instanceNames, some reached =>
      some (false, publishMessage channelPrefix message (instanceNames.filter reached))

/-- The message that a session hands to `Handle`. -/
def handledMessage (state : KafkaSessions.State) : Option ConsumerMessage :=
  match state.stage with
  | .handling offset => state.log[offset]?
  | _ => none

/-- A session's own steps. -/
def sessionStep (state : KafkaSessions.State) : KafkaSessions.Action → Option KafkaSessions.State
  | .append _ => none
  | .handle _ => none
  | action => KafkaSessions.step state action

def initial (setup : Setup Caller Relay Partition Conn) : State setup where
  relay := OutboxRelayModel.initial
  partitions := fun _ => KafkaSessions.initial []
  services := fun name => newService (setup.profiles name)

variable [DecidableEq Partition]

def handleStep (state : State setup) (partition : Partition) (presence : Presence)
    (executed : Option (Bytes → Bool)) : Option (State setup) := do
  let message ← handledMessage (state.partitions partition)
  let (success, published) ←
    handleOutcome setup.channelPrefix presence executed (messageOf message)
  let session ← KafkaSessions.step (state.partitions partition) (.handle fun _ => success)
  some { state with
    partitions := Function.update state.partitions partition session
    services := fun name =>
      (state.services name).accept (received setup.channelPrefix (setup.names name) published) }

variable [DecidableEq Instance] [∀ name, DecidableEq (Conn name)] [Fintype Caller]
  [DecidableEq Caller] [DecidableEq Relay]

def step (state : State setup) : Action Caller Relay Partition Conn → Option (State setup)
  | .relay action timestamp =>
      (OutboxRelayModel.step setup.environment setup.inputs state.relay action).map fun relay =>
        { state with
          relay := relay
          partitions := fun partition =>
            appendRecords setup (relay.log.drop state.relay.log.length) timestamp partition
              (state.partitions partition) }
  | .session partition action =>
      (sessionStep (state.partitions partition) action).map fun session =>
        { state with partitions := Function.update state.partitions partition session }
  | .handle partition presence executed => handleStep state partition presence executed
  | .service name action =>
      (serviceStep (state.services name) action).map fun service =>
        { state with services := Function.update state.services name service }

end System

end ChatScale.DeliverySystem
