import ChatScale.RoomHubModel
import ChatScale.TransitionSystem

/-!
# `Run` over any messages

The loop of `Run` in the single-instance and the naive-scale hub, by itself:
registrations, unregistrations and broadcasts come in any order, also for clients
it does not know. Closing a closed channel and sending on one are a panic. What
the loop should do is said by the messages alone: a client is in its room from
its registration to its next unregistration, and gets the payloads broadcast to
the room meanwhile.
-/

namespace ChatScale.RoomHubRun

open ChatScale.ByteText ChatScale.HubRooms ChatScale.RoomHubModel
open ChatScale.TransitionSystem

set_option autoImplicit false

section Specification

variable {Client : Type} [DecidableEq Client]

/-- What `Run` takes from its channels. -/
inductive Message (Client : Type) where
  | register (client : Client)
  | unregister (client : Client)
  | broadcast (envelope : Envelope)
  deriving DecidableEq

/-- Whether a client is in its room, and the payloads it has got there. -/
structure Tally where
  present : Bool
  payloads : List Bytes

def tallyStep (roomOf : Client → Bytes) (client : Client) (tally : Tally) :
    Message Client → Tally
  | .register other => if other = client then { tally with present := true } else tally
  | .unregister other => if other = client then { tally with present := false } else tally
  | .broadcast envelope =>
      if tally.present ∧ envelope.roomID = roomOf client then
        { tally with payloads := tally.payloads ++ [envelope.payload] }
      else tally

def tally (roomOf : Client → Bytes) (client : Client) (history : List (Message Client)) : Tally :=
  history.foldl (tallyStep roomOf client) ⟨false, []⟩

/-- The client is registered and has not been unregistered since. -/
def present (roomOf : Client → Bytes) (history : List (Message Client)) (client : Client) : Bool :=
  (tally roomOf client history).present

/-- The payloads of the envelopes handled while the client was in their room. -/
def deliveries (roomOf : Client → Bytes) (history : List (Message Client)) (client : Client) :
    List Bytes :=
  (tally roomOf client history).payloads

variable {roomOf : Client → Bytes} {history : List (Message Client)} {client other : Client}

theorem tally_append (message : Message Client) :
    tally roomOf client (history ++ [message]) =
      tallyStep roomOf client (tally roomOf client history) message := by
  rw [tally, List.foldl_append, List.foldl_cons, List.foldl_nil, ← tally]

theorem present_register :
    present roomOf (history ++ [.register other]) client =
      if other = client then true else present roomOf history client := by
  rw [present, tally_append, tallyStep]
  split_ifs
  · rfl
  · rfl

theorem present_unregister :
    present roomOf (history ++ [.unregister other]) client =
      if other = client then false else present roomOf history client := by
  rw [present, tally_append, tallyStep]
  split_ifs
  · rfl
  · rfl

theorem present_broadcast {envelope : Envelope} :
    present roomOf (history ++ [.broadcast envelope]) client = present roomOf history client := by
  rw [present, tally_append, tallyStep]
  split_ifs
  · rfl
  · rfl

theorem deliveries_register :
    deliveries roomOf (history ++ [.register other]) client = deliveries roomOf history client := by
  rw [deliveries, tally_append, tallyStep]
  split_ifs
  · rfl
  · rfl

theorem deliveries_unregister :
    deliveries roomOf (history ++ [.unregister other]) client =
      deliveries roomOf history client := by
  rw [deliveries, tally_append, tallyStep]
  split_ifs
  · rfl
  · rfl

theorem deliveries_broadcast {envelope : Envelope} :
    deliveries roomOf (history ++ [.broadcast envelope]) client =
      if present roomOf history client = true ∧ envelope.roomID = roomOf client then
        deliveries roomOf history client ++ [envelope.payload]
      else deliveries roomOf history client := by
  rw [deliveries, tally_append, tallyStep, present]
  split_ifs
  · rfl
  · rfl

theorem deliveries_grow (roomOf : Client → Bytes) {before history : List (Message Client)}
    (grown : before <+: history) (client : Client) :
    deliveries roomOf before client <+: deliveries roomOf history client := by
  obtain ⟨later, rfl⟩ := grown
  induction later using List.reverseRecOn with
  | nil => exact (List.append_nil before).symm ▸ List.prefix_rfl
  | append_singleton later message induction =>
      rw [← List.append_assoc]
      cases message with
      | register other => rwa [deliveries_register]
      | unregister other => rwa [deliveries_unregister]
      | broadcast envelope =>
          rw [deliveries_broadcast]
          split_ifs
          · exact induction.trans (List.prefix_append _ _)
          · exact induction

theorem present_registered (here : present roomOf history client = true) :
    Message.register client ∈ history := by
  induction history using List.reverseRecOn with
  | nil => cases here
  | append_singleton history message induction =>
      apply List.mem_append.mpr
      cases message with
      | register other =>
          rw [present_register] at here
          split_ifs at here with same
          · rw [same]
            exact .inr List.mem_cons_self
          · exact .inl (induction here)
      | unregister other =>
          rw [present_unregister] at here
          split_ifs at here
          exact .inl (induction here)
      | broadcast envelope =>
          rw [present_broadcast] at here
          exact .inl (induction here)

end Specification

section Loop

structure SendChannel where
  buffered : List Bytes
  closed : Bool
  deriving DecidableEq

inductive Stage (Client : Type) where
  | selecting
  | sending (payload : Bytes) (remaining : List Client)
  | panicked

/-- `history` has the messages taken so far, `puts` everything put on a client's
channel, and `closings` the channels closed. -/
structure HubState (Client : Type) [DecidableEq Client] where
  rooms : Hub (id : Client → Client)
  sends : Client → SendChannel
  stage : Stage Client
  subscriptions : List Bytes
  history : List (Message Client)
  puts : Client → List Bytes
  closings : List Client

/-- `targets` is the order in which the loop over the room meets its clients.
`receive` is a `WritePump` taking from its channel. -/
inductive HubAction (Client : Type) where
  | register (client : Client)
  | unregister (client : Client)
  | broadcast (envelope : Envelope) (targets : List Client)
  | send
  | next
  | receive (client : Client)

variable {Client : Type} [DecidableEq Client]

def start : HubState Client :=
  ⟨newHub, fun _ => ⟨[], false⟩, .selecting, [], [], fun _ => [], []⟩

def registerCase (variant : Variant) (roomOf : Client → Bytes) (state : HubState Client)
    (client : Client) : HubState Client :=
  let known := (state.rooms.members (roomOf client)).isSome
  { state with
    rooms := state.rooms.join client (roomOf client)
    subscriptions := match variant, known with
      | .naiveScale, false => state.subscriptions ++ [roomChannel (roomOf client)]
      | _, _ => state.subscriptions
    history := state.history ++ [.register client] }

/-- `close(c.send)` panics if the channel is closed. -/
def unregisterCase (variant : Variant) (roomOf : Client → Bytes) (state : HubState Client)
    (client : Client) : HubState Client :=
  let taken := { state with history := state.history ++ [.unregister client] }
  if (state.rooms.clientAt (roomOf client) client).isSome then
    if (state.sends client).closed then { taken with stage := .panicked }
    else
      let rooms := state.rooms.leave client (roomOf client)
      let gone := (rooms.members (roomOf client)).isNone
      { taken with
        rooms := rooms
        sends := Function.update state.sends client { state.sends client with closed := true }
        closings := state.closings ++ [client]
        subscriptions := match variant, gone with
          | .naiveScale, true => state.subscriptions.erase (roomChannel (roomOf client))
          | _, _ => state.subscriptions }
  else taken

/-- The send to the next client of the loop: it panics on a closed channel and
waits while the buffer is full. -/
def sendCase (state : HubState Client) (payload : Bytes) (client : Client) (rest : List Client) :
    Option (HubState Client) :=
  let channel := state.sends client
  if channel.closed then some { state with stage := .panicked }
  else if channel.buffered.length < sendBuffer then
    some { state with
      sends := Function.update state.sends client
        { channel with buffered := channel.buffered ++ [payload] }
      puts := Function.update state.puts client (state.puts client ++ [payload])
      stage := .sending payload rest }
  else none

def receiveCase (state : HubState Client) (client : Client) : Option (HubState Client) :=
  match state.sends client with
  | ⟨_ :: rest, closed⟩ =>
      some { state with sends := Function.update state.sends client ⟨rest, closed⟩ }
  | ⟨[], _⟩ => none

def hubStep (variant : Variant) (roomOf : Client → Bytes) (state : HubState Client)
    (action : HubAction Client) : Option (HubState Client) :=
  match state.stage, action with
  | .selecting, .register client => some (registerCase variant roomOf state client)
  | .selecting, .unregister client => some (unregisterCase variant roomOf state client)
  | .selecting, .broadcast envelope targets =>
      if targets.Perm ((state.rooms.members envelope.roomID).getD []) then
        some { state with
          stage := .sending envelope.payload targets
          history := state.history ++ [.broadcast envelope] }
      else none
  | .sending payload (client :: rest), .send => sendCase state payload client rest
  | .sending _ [], .next => some { state with stage := .selecting }
  | _, .receive client => receiveCase state client
  | _, _ => none

theorem hub_step_receive (variant : Variant) (roomOf : Client → Bytes) (hub : HubState Client)
    (client : Client) : hubStep variant roomOf hub (.receive client) = receiveCase hub client := by
  rcases hub with ⟨rooms, sends, stage, subscriptions, history, puts, closings⟩
  cases stage with
  | selecting => rfl
  | sending payload remaining =>
      cases remaining with
      | nil => rfl
      | cons first rest => rfl
  | panicked => rfl

/-- `handleWS` registers each client it makes once. -/
def RegistersOnce (state : HubState Client) : HubAction Client → Prop
  | .register client => Message.register client ∉ state.history
  | _ => True

end Loop

end ChatScale.RoomHubRun
