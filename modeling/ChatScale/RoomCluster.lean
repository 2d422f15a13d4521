import ChatScale.RoomHistory
import ChatScale.RoomSockets

/-!
# The earlier stages as one system

The tables with the calls of `HandleIncoming`, a server at every place with its
relay and its hub, and a client that walks back through the history of a room.
In the single instance the relay's `Broadcast` and `Run` meet at an unbuffered
channel. In naive-scale `Broadcast` publishes to Redis, which passes the message
on to servers, in the order of the publishes; `consume` takes one after the
other, and Redis or the client library may lose any of them on the way.
-/

namespace ChatScale.RoomCluster

open ChatScale.ByteText ChatScale.HubRooms ChatScale.RoomHubRun ChatScale.RoomHubMembership
open ChatScale.RoomSockets ChatScale.TransitionSystem
open ChatScale.RoomHubModel (Variant Envelope roomChannel roomOfChannel)
open ChatScale.RoomOutboxModel (Columns Request RelayStage OutboxEvent Handover ChatMessage
  unmarshalChatMessage)
open ChatScale.RoomOutboxClaims ChatScale.RoomRows
open ChatScale.RoomHistory (StoreWalk StoreAction storeStep storeStart)

set_option autoImplicit false

section Model

/-- `room` and `limit` are those of the walk through the history. -/
structure Setup (Writer Client : Type) where
  variant : Variant
  columns : Columns
  requests : Writer → Request
  roomOf : Client → Bytes
  room : Bytes
  limit : Nat

/-- `inbox` has what Redis has passed on to a server, a channel and a payload each. -/
structure Cluster (Writer Place Client : Type) [DecidableEq Client] where
  store : StoreWalk Writer Place
  servers : Place → Server Client
  inbox : Place → List (Bytes × Bytes)

/-- A dispatch of a relay is `broadcast` or `publish`; `reached` are the servers
Redis passes the message on to. -/
inductive Action (Writer Place Client : Type) where
  | store (action : StoreAction Writer Place)
  | server (place : Place) (action : RoomHubModel.Action Client)
  | broadcast (place : Place) (targets : List Client)
  | publish (place : Place) (published : Bool) (reached : Place → Bool)
  | consume (place : Place)
  | lose (place : Place) (index : Nat)

variable {Writer Place Client : Type}

def isDispatch : StoreAction Writer Place → Bool
  | .store (.relay _ (.dispatch _)) => true
  | _ => false

/-- The steps of a server that are not its relay's or its `consume`'s. -/
def isOwn : RoomHubModel.Action Client → Bool
  | .broadcast _ => false
  | .consume _ _ => false
  | _ => true

/-- The event that a relay hands over next. -/
def nextEvent : RelayStage → Option OutboxEvent
  | .dispatching _ (event :: _) => some event
  | _ => none

/-- What `Broadcast` makes of an event. -/
def envelopeOf (event : OutboxEvent) : Envelope := ⟨event.roomID, event.message.marshal⟩

/-- What `consume` makes of a message. -/
def envelopeFrom (message : Bytes × Bytes) : Envelope := ⟨roomOfChannel message.1, message.2⟩

variable [DecidableEq Client] [DecidableEq Place]

def start : Cluster Writer Place Client := ⟨storeStart, fun _ => started, fun _ => []⟩

def setServer (cluster : Cluster Writer Place Client) (place : Place) (server : Server Client) :
    Cluster Writer Place Client :=
  { cluster with servers := Function.update cluster.servers place server }

/-- `Broadcast` and `Run` at their channel. -/
def meet (setup : Setup Writer Client) (server : Server Client) (envelope : Envelope)
    (targets : List Client) : Option (Server Client) :=
  (serverStep setup.variant setup.roomOf server (.broadcast envelope)).bind fun offered =>
    serverStep setup.variant setup.roomOf offered (.handle envelope targets)

def passOn (cluster : Cluster Writer Place Client) (event : OutboxEvent) (reached : Place → Bool)
    (place : Place) : List (Bytes × Bytes) :=
  if reached place then
    cluster.inbox place ++ [(roomChannel event.roomID, event.message.marshal)]
  else cluster.inbox place

variable [DecidableEq Writer] [Fintype Place]

def setupStore (setup : Setup Writer Client) (store : StoreWalk Writer Place) :
    StoreAction Writer Place → Option (StoreWalk Writer Place) :=
  storeStep setup.variant setup.columns setup.requests setup.room setup.limit store

def dispatch (setup : Setup Writer Client) (store : StoreWalk Writer Place) (place : Place)
    (published : Bool) : Option (OutboxEvent × StoreWalk Writer Place) :=
  (nextEvent (store.store.relays place)).bind fun event =>
    (setupStore setup store (.store (.relay place (.dispatch published)))).map fun next =>
      (event, next)

def step (setup : Setup Writer Client) (cluster : Cluster Writer Place Client) :
    Action Writer Place Client → Option (Cluster Writer Place Client)
  | .store action =>
      if isDispatch action then none
      else (setupStore setup cluster.store action).map fun store => { cluster with store := store }
  | .server place action =>
      if isOwn action then
        (serverStep setup.variant setup.roomOf (cluster.servers place) action).map
          (setServer cluster place)
      else none
  | .broadcast place targets =>
      match setup.variant with
      | .singleInstance => do
          let (event, store) ← dispatch setup cluster.store place true
          let server ← meet setup (cluster.servers place) (envelopeOf event) targets
          some { setServer cluster place server with store := store }
      | .naiveScale => none
  | .publish place published reached =>
      match setup.variant with
      | .singleInstance => none
      | .naiveScale => do
          let (event, store) ← dispatch setup cluster.store place published
          some { cluster with store := store, inbox := passOn cluster event reached }
  | .consume place =>
      match setup.variant, cluster.inbox place with
      | .naiveScale, message :: rest => do
          let server ← serverStep setup.variant setup.roomOf (cluster.servers place)
            (.consume message.1 message.2)
          some { setServer cluster place server with
            inbox := Function.update cluster.inbox place rest }
      | _, _ => none
  | .lose place index => some { cluster with
      inbox := Function.update cluster.inbox place ((cluster.inbox place).eraseIdx index) }

/-- What each action does where it can be taken. -/
inductive Stepped (setup : Setup Writer Client) (cluster : Cluster Writer Place Client) :
    Action Writer Place Client → Cluster Writer Place Client → Prop where
  | store (action : StoreAction Writer Place) (store : StoreWalk Writer Place)
      (quiet : isDispatch action = false)
      (stepped : setupStore setup cluster.store action = some store) :
      Stepped setup cluster (.store action) { cluster with store := store }
  | server (place : Place) (action : RoomHubModel.Action Client) (server : Server Client)
      (own : isOwn action = true)
      (stepped : serverStep setup.variant setup.roomOf (cluster.servers place) action =
        some server) :
      Stepped setup cluster (.server place action) (setServer cluster place server)
  | broadcast (place : Place) (targets : List Client) (event : OutboxEvent)
      (store : StoreWalk Writer Place) (server : Server Client)
      (single : setup.variant = .singleInstance)
      (dispatched : dispatch setup cluster.store place true = some (event, store))
      (met : meet setup (cluster.servers place) (envelopeOf event) targets = some server) :
      Stepped setup cluster (.broadcast place targets)
        { setServer cluster place server with store := store }
  | publish (place : Place) (published : Bool) (reached : Place → Bool) (event : OutboxEvent)
      (store : StoreWalk Writer Place) (naive : setup.variant = .naiveScale)
      (dispatched : dispatch setup cluster.store place published = some (event, store)) :
      Stepped setup cluster (.publish place published reached)
        { cluster with store := store, inbox := passOn cluster event reached }
  | consume (place : Place) (message : Bytes × Bytes) (rest : List (Bytes × Bytes))
      (server : Server Client) (naive : setup.variant = .naiveScale)
      (waiting : cluster.inbox place = message :: rest)
      (stepped : serverStep setup.variant setup.roomOf (cluster.servers place)
        (.consume message.1 message.2) = some server) :
      Stepped setup cluster (.consume place) { setServer cluster place server with
        inbox := Function.update cluster.inbox place rest }
  | lose (place : Place) (index : Nat) :
      Stepped setup cluster (.lose place index) { cluster with
        inbox := Function.update cluster.inbox place ((cluster.inbox place).eraseIdx index) }

theorem step_cases {setup : Setup Writer Client} {cluster after : Cluster Writer Place Client}
    {action : Action Writer Place Client} (stepped : step setup cluster action = some after) :
    Stepped setup cluster action after := by
  cases action with
  | store action =>
      simp only [step, Option.ite_none_left_eq_some, Bool.not_eq_true] at stepped
      rcases stepped with ⟨quiet, moved⟩
      rcases Option.map_eq_some_iff.mp moved with ⟨store, stored, rfl⟩
      exact .store action store quiet stored
  | server place action =>
      simp only [step, Option.ite_none_right_eq_some] at stepped
      rcases stepped with ⟨own, moved⟩
      rcases Option.map_eq_some_iff.mp moved with ⟨server, ran, rfl⟩
      exact .server place action server own ran
  | broadcast place targets =>
      unfold step at stepped
      dsimp only at stepped
      split at stepped
      · rename_i single
        rcases Option.bind_eq_some_iff.mp stepped with ⟨⟨event, store⟩, dispatched, rest⟩
        rcases Option.bind_eq_some_iff.mp rest with ⟨server, met, last⟩
        cases last
        exact .broadcast place targets event store server single dispatched met
      · cases stepped
  | publish place published reached =>
      unfold step at stepped
      dsimp only at stepped
      split at stepped
      · cases stepped
      · rename_i naive
        rcases Option.bind_eq_some_iff.mp stepped with ⟨⟨event, store⟩, dispatched, last⟩
        cases last
        exact .publish place published reached event store naive dispatched
  | consume place =>
      unfold step at stepped
      dsimp only at stepped
      split at stepped
      · rename_i message rest naive waiting
        rcases Option.bind_eq_some_iff.mp stepped with ⟨server, ran, last⟩
        cases last
        exact .consume place message rest server naive waiting ran
      · cases stepped
  | lose place index =>
      cases stepped
      exact .lose place index

end Model

section Handovers

variable {Writer Place Client : Type} [DecidableEq Writer] [DecidableEq Place] [Fintype Place]
  {setup : Setup Writer Client} {store next : StoreWalk Writer Place}

theorem quiet_effect {variant : Variant} {outbox : List RoomOutboxModel.OutboxRow}
    {elsewhere : Nat → Bool} {stage : RelayStage} {move : RoomOutboxModel.RelayMove}
    {effect : RoomOutboxModel.Effect}
    (moves : RelayMoves variant outbox elsewhere stage move effect)
    (quiet : ∀ published, move ≠ .dispatch published) : effect.handed = [] := by
  cases moves with
  | dispatch => exact absurd rfl (quiet _)
  | _ => rfl

/-- Only a dispatch hands something over. -/
theorem quiet_handovers {action : StoreAction Writer Place} (quiet : isDispatch action = false)
    (stepped : setupStore setup store action = some next) :
    next.store.handovers = store.store.handovers := by
  cases action with
  | request =>
      rcases Option.map_eq_some_iff.mp stepped with ⟨walk, _, rfl⟩
      rfl
  | store action =>
      rcases Option.map_eq_some_iff.mp stepped with ⟨state, moved, rfl⟩
      rcases RoomOutboxClaims.step_cases moved with ⟨_, _, _, _, rfl, _, rfl⟩ |
        ⟨relay, move, effect, rfl, moves, rfl⟩
      · rfl
      · have nothing : effect.handed = [] := by
          apply quiet_effect moves
          rintro published rfl
          cases quiet
        simp only [RoomOutboxModel.applyEffect, nothing, List.append_nil]

/-- A dispatch hands over the next event of the relay, and turns no page. -/
theorem dispatch_cases {place : Place} {published : Bool} {event : OutboxEvent}
    (dispatched : dispatch setup store place published = some (event, next)) :
    setupStore setup store (.store (.relay place (.dispatch published))) = some next ∧
      next.store.handovers = store.store.handovers ++ [⟨event, published⟩] ∧
      next.walk.pages = store.walk.pages ∧ next.walk.atFirst = store.walk.atFirst := by
  rcases Option.bind_eq_some_iff.mp dispatched with ⟨found, first, rest⟩
  rcases Option.map_eq_some_iff.mp rest with ⟨after, stepped, same⟩
  cases same
  refine ⟨stepped, ?_⟩
  rcases Option.map_eq_some_iff.mp stepped with ⟨state, moved, rfl⟩
  rcases Option.map_eq_some_iff.mp moved with ⟨effect, does, rfl⟩
  refine ⟨?_, rfl, rfl⟩
  unfold nextEvent at first
  split at first
  · rename_i handed waiting stage
    cases first
    rw [stage] at does
    cases does
    rfl
  · cases first

end Handovers

section Pipeline

variable {Client : Type}

/-- The envelopes that `Run` has taken. -/
def handled (history : List (Message Client)) : List Envelope :=
  history.filterMap fun
    | .broadcast envelope => some envelope
    | _ => none

def roomPayloads (room : Bytes) (envelopes : List Envelope) : List Bytes :=
  (envelopes.filter fun envelope => envelope.roomID == room).map Envelope.payload

theorem handled_append (history more : List (Message Client)) :
    handled (history ++ more) = handled history ++ handled more := List.filterMap_append

theorem room_payloads_append (room : Bytes) (envelopes more : List Envelope) :
    roomPayloads room (envelopes ++ more) =
      roomPayloads room envelopes ++ roomPayloads room more := by
  rw [roomPayloads, List.filter_append, List.map_append, roomPayloads, roomPayloads]

theorem room_payloads_sublist (room : Bytes) {fewer more : List Envelope}
    (sub : fewer.Sublist more) : (roomPayloads room fewer).Sublist (roomPayloads room more) :=
  (sub.filter _).map _

variable [DecidableEq Client] {variant : Variant} {roomOf : Client → Bytes}
  {server after : Server Client}

/-- What a server does on its own to the messages taken and the envelopes offered. -/
inductive OwnStep (server after : Server Client) : Prop where
  | quiet (history : after.history = server.history)
      (offered : after.state.offered = server.state.offered)
  | register (client : Client) (history : after.history = server.history ++ [.register client])
      (offered : after.state.offered = server.state.offered)
  | unregister (client : Client) (history : after.history = server.history ++ [.unregister client])
      (offered : after.state.offered = server.state.offered)
  | take (envelope : Envelope) (listed : envelope ∈ server.state.offered)
      (history : after.history = server.history ++ [.broadcast envelope])
      (offered : after.state.offered = server.state.offered.erase envelope)

theorem own_step_cases {action : RoomHubModel.Action Client} (own : isOwn action = true)
    (stepped : serverStep variant roomOf server action = some after) : OwnStep server after := by
  rcases Option.map_eq_some_iff.mp stepped with ⟨next, moved, rfl⟩
  cases RoomHubModel.step_cases moved with
  | @register client => exact .register client rfl rfl
  | @leave client => exact .unregister client rfl rfl
  | @unknown client => exact .unregister client rfl rfl
  | broadcast single => cases own
  | consume naive idle => cases own
  | @handle envelope targets selecting offered => exact .take envelope offered rfl rfl
  | _ => exact .quiet (List.append_nil _) rfl

/-- An envelope moves from the offered ones to the taken ones, or none. -/
theorem own_step_moves (own : OwnStep server after)
    (narrow : server.state.offered.length ≤ 1) :
    handled after.history ++ after.state.offered =
        handled server.history ++ server.state.offered ∧
      after.state.offered.length ≤ server.state.offered.length := by
  cases own with
  | quiet history offered =>
      rw [history, offered]
      exact ⟨rfl, le_refl _⟩
  | register client history offered =>
      rw [history, offered, handled_append]
      exact ⟨congrArg (· ++ _) (List.append_nil _), le_refl _⟩
  | unregister client history offered =>
      rw [history, offered, handled_append]
      exact ⟨congrArg (· ++ _) (List.append_nil _), le_refl _⟩
  | take envelope listed history left =>
      -- At most one envelope is offered, so it is this one.
      rcases List.length_eq_one_iff.mp (le_antisymm narrow (List.length_pos_of_mem listed)) with
        ⟨single, offered⟩
      rw [offered] at listed left ⊢
      rw [history, left, handled_append, List.mem_singleton.mp listed]
      simp [handled]

/-- `consume` offers one envelope, when the last one is taken. -/
theorem consume_pipeline {channel payload : Bytes}
    (stepped : serverStep variant roomOf server (.consume channel payload) = some after) :
    after.history = server.history ∧ server.state.offered = [] ∧
      after.state.offered = [⟨roomOfChannel channel, payload⟩] := by
  rcases Option.map_eq_some_iff.mp stepped with ⟨next, moved, rfl⟩
  cases RoomHubModel.step_cases moved with
  | consume naive idle => exact ⟨List.append_nil _, idle, rfl⟩

variable {Writer : Type} {setup : Setup Writer Client}

/-- The relay and `Run` meet: the envelope is taken and nothing stays offered. -/
theorem meet_pipeline {envelope : Envelope} {targets : List Client}
    (idle : server.state.offered = [])
    (met : meet setup server envelope targets = some after) :
    after.history = server.history ++ [.broadcast envelope] ∧ after.state.offered = [] := by
  rcases Option.bind_eq_some_iff.mp met with ⟨offering, offered, taken⟩
  rcases Option.map_eq_some_iff.mp offered with ⟨middle, moved, rfl⟩
  rcases Option.map_eq_some_iff.mp taken with ⟨last, handles, rfl⟩
  cases RoomHubModel.step_cases moved
  cases RoomHubModel.step_cases handles
  simp [record, RoomSockets.taken, idle]

end Pipeline

section Invariant

variable {Writer Place Client : Type} [DecidableEq Writer] [DecidableEq Place] [Fintype Place]
  [DecidableEq Client] {setup : Setup Writer Client} {cluster after : Cluster Writer Place Client}

/-- The envelopes of the `Broadcast` calls. -/
def broadcasts (cluster : Cluster Writer Place Client) : List Envelope :=
  cluster.store.store.handovers.map fun handover => envelopeOf handover.event

/-- What a server has been passed, in the order in which it takes it. -/
def passed (cluster : Cluster Writer Place Client) (place : Place) : List Envelope :=
  handled (cluster.servers place).history ++ (cluster.servers place).state.offered ++
    (cluster.inbox place).map envelopeFrom

structure ClusterSound (setup : Setup Writer Client) (cluster : Cluster Writer Place Client) :
    Prop where
  stored : Reachable (setupStore setup) anyStep storeStart cluster.store
  claims : ClaimsSound cluster.store.store
  servers : ∀ place, ServerSound setup.variant setup.roomOf (cluster.servers place)
  narrow : ∀ place, (cluster.servers place).state.offered.length ≤ 1
  idle : setup.variant = .singleInstance → ∀ place, (cluster.servers place).state.offered = [] ∧
    cluster.inbox place = []
  ordered : ∀ place, (passed cluster place).Sublist (broadcasts cluster)
  alone : setup.variant = .singleInstance → (∀ left right : Place, left = right) → ∀ place,
    handled (cluster.servers place).history = broadcasts cluster

theorem start_sound : ClusterSound setup (start : Cluster Writer Place Client) where
  stored := reachable_start
  claims := started_claims_sound empty_database_untouched
  servers := fun _ => started_server_sound _ _
  narrow := fun _ => Nat.zero_le _
  idle := fun _ _ => ⟨rfl, rfl⟩
  ordered := fun _ => List.Sublist.refl _
  alone := fun _ _ _ => rfl

theorem store_claims {store : StoreWalk Writer Place} {action : StoreAction Writer Place}
    (claims : ClaimsSound cluster.store.store)
    (stepped : setupStore setup cluster.store action = some store) : ClaimsSound store.store := by
  cases action with
  | request =>
      rcases Option.map_eq_some_iff.mp stepped with ⟨walk, _, rfl⟩
      exact claims
  | store action =>
      rcases Option.map_eq_some_iff.mp stepped with ⟨state, moved, rfl⟩
      exact step_claims_sound claims moved

/-- A step of the store that hands nothing over. -/
theorem quiet_cluster_sound {store : StoreWalk Writer Place} {action : StoreAction Writer Place}
    (sound : ClusterSound setup cluster) (quiet : isDispatch action = false)
    (stepped : setupStore setup cluster.store action = some store) :
    ClusterSound setup { cluster with store := store } where
  stored := reachable_step sound.stored trivial stepped
  claims := store_claims sound.claims stepped
  servers := sound.servers
  narrow := sound.narrow
  idle := sound.idle
  ordered := by
    intro place
    rw [broadcasts, quiet_handovers quiet stepped]
    exact sound.ordered place
  alone := by
    intro single one place
    rw [broadcasts, quiet_handovers quiet stepped]
    exact sound.alone single one place

omit [DecidableEq Writer] [Fintype Place] in
@[simp] theorem set_server_self (cluster : Cluster Writer Place Client) (place : Place)
    (server : Server Client) : (setServer cluster place server).servers place = server :=
  Function.update_self _ _ _

omit [DecidableEq Writer] [Fintype Place] in
theorem set_server_other (cluster : Cluster Writer Place Client) {place other : Place}
    (server : Server Client) (apart : other ≠ place) :
    (setServer cluster place server).servers other = cluster.servers other :=
  Function.update_of_ne apart _ _

omit [DecidableEq Writer] [Fintype Place] in
/-- What holds of the new server and of all others before holds of all after. -/
theorem set_server_all (holds : Server Client → Prop) {place : Place} {server : Server Client}
    (new : holds server) (others : ∀ other, holds (cluster.servers other)) (other : Place) :
    holds ((setServer cluster place server).servers other) := by
  by_cases same : other = place
  · rw [same, set_server_self]
    exact new
  · rw [set_server_other cluster server same]
    exact others other

/-- A step of a server on its own moves an envelope on, or none. -/
theorem own_cluster_sound {place : Place} {action : RoomHubModel.Action Client}
    {server : Server Client} (sound : ClusterSound setup cluster) (own : isOwn action = true)
    (stepped : serverStep setup.variant setup.roomOf (cluster.servers place) action =
      some server) : ClusterSound setup (setServer cluster place server) := by
  have narrow := sound.narrow place
  have moves := own_step_moves (own_step_cases own stepped) narrow
  have none : setup.variant = .singleInstance → server.state.offered = [] := by
    intro single
    rw [(sound.idle single place).1] at moves
    exact List.eq_nil_of_length_eq_zero (Nat.le_zero.mp moves.2)
  refine ⟨sound.stored, sound.claims, ?_, ?_, ?_, ?_, ?_⟩
  · exact set_server_all _ (server_step_sound (sound.servers place) stepped) sound.servers
  · exact set_server_all (fun server => server.state.offered.length ≤ 1) (moves.2.trans narrow)
      sound.narrow
  · intro single other
    refine ⟨?_, (sound.idle single other).2⟩
    exact set_server_all (fun server => server.state.offered = []) (none single)
      (fun other => (sound.idle single other).1) other
  · intro other
    have same : passed (setServer cluster place server) other = passed cluster other := by
      by_cases here : other = place
      · rw [passed, here, set_server_self, moves.1]
        rfl
      · rw [passed, set_server_other cluster server here]
        rfl
    rw [same]
    exact sound.ordered other
  · intro single one
    rw [(sound.idle single place).1, none single, List.append_nil, List.append_nil] at moves
    apply set_server_all (fun server => handled server.history = broadcasts cluster) _
      (sound.alone single one)
    rw [moves.1]
    exact sound.alone single one place

theorem broadcast_cluster_sound {place : Place} {targets : List Client} {event : OutboxEvent}
    {store : StoreWalk Writer Place} {server : Server Client} (sound : ClusterSound setup cluster)
    (single : setup.variant = .singleInstance)
    (dispatched : dispatch setup cluster.store place true = some (event, store))
    (met : meet setup (cluster.servers place) (envelopeOf event) targets = some server) :
    ClusterSound setup { setServer cluster place server with store := store } := by
  rcases dispatch_cases dispatched with ⟨stepped, handovers, _, _⟩
  have idle := (sound.idle single place).1
  rcases meet_pipeline idle met with ⟨history, offered⟩
  have taken : handled server.history =
      handled (cluster.servers place).history ++ [envelopeOf event] := by
    rw [history, handled_append]
    rfl
  have more : broadcasts { setServer cluster place server with store := store } =
      broadcasts cluster ++ [envelopeOf event] := by
    rw [broadcasts, handovers, List.map_append]
    rfl
  rcases Option.bind_eq_some_iff.mp met with ⟨offering, first, second⟩
  have served := server_step_sound (server_step_sound (sound.servers place) first) second
  refine ⟨reachable_step sound.stored trivial stepped, store_claims sound.claims stepped, ?_, ?_,
    ?_, ?_, ?_⟩
  · exact set_server_all _ served sound.servers
  · refine set_server_all (fun server => server.state.offered.length ≤ 1) ?_ sound.narrow
    rw [offered]
    exact Nat.zero_le _
  · intro _ other
    refine ⟨?_, (sound.idle single other).2⟩
    exact set_server_all (fun server => server.state.offered = []) offered
      (fun other => (sound.idle single other).1) other
  · intro other
    rw [more]
    have before := sound.ordered other
    by_cases here : other = place
    · rw [here] at before ⊢
      rw [passed, idle, (sound.idle single place).2] at before
      simp only [passed, set_server_self, taken, offered]
      change List.Sublist (_ ++ [] ++ (cluster.inbox place).map envelopeFrom) _
      rw [(sound.idle single place).2]
      simpa using before
    · have same : passed { setServer cluster place server with store := store } other =
          passed cluster other := by
        simp only [passed, set_server_other cluster server here]
        rfl
      rw [same]
      exact before.trans (List.sublist_append_left _ _)
  · intro _ one other
    rw [more, one other place, ← sound.alone single one place, ← taken]
    exact congrArg (fun one => handled one.history) (set_server_self cluster place server)

theorem publish_cluster_sound {place : Place} {published : Bool} {reached : Place → Bool}
    {event : OutboxEvent} {store : StoreWalk Writer Place} (sound : ClusterSound setup cluster)
    (naive : setup.variant = .naiveScale)
    (dispatched : dispatch setup cluster.store place published = some (event, store)) :
    ClusterSound setup { cluster with store := store, inbox := passOn cluster event reached } := by
  rcases dispatch_cases dispatched with ⟨stepped, handovers, _, _⟩
  have more : broadcasts { cluster with store := store, inbox := passOn cluster event reached } =
      broadcasts cluster ++ [envelopeOf event] := by
    rw [broadcasts, handovers, List.map_append]
    rfl
  refine ⟨reachable_step sound.stored trivial stepped, store_claims sound.claims stepped,
    sound.servers, sound.narrow, ?_, ?_, ?_⟩
  · intro single
    cases single.symm.trans naive
  · intro other
    rw [more]
    have before := sound.ordered other
    by_cases received : reached other = true
    · have longer : passed { cluster with
          store := store, inbox := passOn cluster event reached } other =
            passed cluster other ++ [envelopeOf event] := by
        simp only [passed, passOn, received, if_true, List.map_append, List.map_singleton,
          envelopeFrom, room_of_room_channel, List.append_assoc]
        rfl
      rw [longer]
      exact before.append (List.Sublist.refl _)
    · have same : passed { cluster with
          store := store, inbox := passOn cluster event reached } other = passed cluster other := by
        simp only [passed, passOn, received, if_false, Bool.false_eq_true]
      rw [same]
      exact before.trans (List.sublist_append_left _ _)
  · intro single
    cases single.symm.trans naive

theorem consume_cluster_sound {place : Place} {message : Bytes × Bytes}
    {rest : List (Bytes × Bytes)} {server : Server Client} (sound : ClusterSound setup cluster)
    (naive : setup.variant = .naiveScale) (waiting : cluster.inbox place = message :: rest)
    (stepped : serverStep setup.variant setup.roomOf (cluster.servers place)
      (.consume message.1 message.2) = some server) :
    ClusterSound setup { setServer cluster place server with
      inbox := Function.update cluster.inbox place rest } := by
  rcases consume_pipeline stepped with ⟨history, idle, offered⟩
  refine ⟨sound.stored, sound.claims, ?_, ?_, ?_, ?_, ?_⟩
  · exact set_server_all _ (server_step_sound (sound.servers place) stepped) sound.servers
  · refine set_server_all (fun server => server.state.offered.length ≤ 1) ?_ sound.narrow
    rw [offered]
    exact le_refl _
  · intro single
    cases single.symm.trans naive
  · intro other
    have same : passed { setServer cluster place server with
        inbox := Function.update cluster.inbox place rest } other = passed cluster other := by
      by_cases here : other = place
      · simp only [passed, here, set_server_self, history, offered, Function.update_self, idle,
          waiting, List.map_cons]
        simp [envelopeFrom]
      · simp only [passed, set_server_other cluster server here, Function.update_of_ne here]
    rw [same]
    exact sound.ordered other
  · intro single
    cases single.symm.trans naive

theorem lose_cluster_sound (sound : ClusterSound setup cluster) (place : Place) (index : Nat) :
    ClusterSound setup { cluster with
      inbox := Function.update cluster.inbox place ((cluster.inbox place).eraseIdx index) } := by
  refine ⟨sound.stored, sound.claims, sound.servers, sound.narrow, ?_, ?_, sound.alone⟩
  · intro single other
    refine ⟨(sound.idle single other).1, ?_⟩
    dsimp only
    by_cases here : other = place
    · rw [here, Function.update_self, (sound.idle single place).2, List.eraseIdx_nil]
    · rw [Function.update_of_ne here, (sound.idle single other).2]
  · intro other
    refine List.Sublist.trans ?_ (sound.ordered other)
    refine List.Sublist.append (List.Sublist.refl _) (List.Sublist.map _ ?_)
    dsimp only
    by_cases here : other = place
    · rw [here, Function.update_self]
      exact List.eraseIdx_sublist _ _
    · rw [Function.update_of_ne here]

theorem step_cluster_sound {action : Action Writer Place Client}
    (sound : ClusterSound setup cluster) (stepped : step setup cluster action = some after) :
    ClusterSound setup after := by
  cases step_cases stepped with
  | store action store quiet moved => exact quiet_cluster_sound sound quiet moved
  | server place action server own moved => exact own_cluster_sound sound own moved
  | broadcast place targets event store server single dispatched met =>
      exact broadcast_cluster_sound sound single dispatched met
  | publish place published reached event store naive dispatched =>
      exact publish_cluster_sound sound naive dispatched
  | consume place message rest server naive waiting moved =>
      exact consume_cluster_sound sound naive waiting moved
  | lose place index => exact lose_cluster_sound sound place index

theorem reachable_cluster_sound {allowed : Cluster Writer Place Client →
    Action Writer Place Client → Prop}
    (reached : Reachable (step setup) allowed start cluster) : ClusterSound setup cluster := by
  apply reachable_invariant (ClusterSound setup) start_sound _ reached
  intro before action after sound _ stepped
  exact step_cluster_sound sound stepped

end Invariant

end ChatScale.RoomCluster
