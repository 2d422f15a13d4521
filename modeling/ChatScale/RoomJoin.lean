import ChatScale.RoomSubscriptions
import ChatScale.RoomViews

/-!
# A client that joins a room misses nothing

A client registers with the hub first and then walks back through the history of
its room; in naive-scale the subscription of its server has to land before the
first page is read. A message that was committed when the first page was read is
on the pages. One that is committed later is dispatched later, when the client is
in the room, and so is on its way to the client. Once the walk has ended and all
is at rest, the client has every message of the room.
-/

namespace ChatScale.RoomJoin

open ChatScale.ByteText ChatScale.HubRooms ChatScale.RoomHubRun ChatScale.RoomHubMembership
open ChatScale.RoomSockets ChatScale.TransitionSystem
open ChatScale.RoomHubModel (Variant Envelope roomChannel)
open ChatScale.RoomOutboxModel (Columns OutboxEvent OutboxRow Handover MessageRow ChatMessage
  unmarshalChatMessage outboxEvent)
open ChatScale.RoomOutboxClaims ChatScale.RoomRows ChatScale.RoomViews ChatScale.RoomCluster
open ChatScale.RoomHistory (StoreWalk StoreAction rowMessage)

set_option autoImplicit false

section Deliveries

variable {Client : Type} [DecidableEq Client] {roomOf : Client → Bytes}
  {server after : Server Client} {client : Client}

/-- A client that is in its room was there before or registers now. -/
theorem own_present (own : OwnStep server after)
    (once : after.history.count (.register client) ≤ 1)
    (here : present roomOf after.history client = true) :
    present roomOf server.history client = true ∨ Message.register client ∉ server.history := by
  cases own with
  | quiet history offered =>
      rw [history] at here
      exact .inl here
  | register other history offered =>
      rw [history] at here once
      rw [present_register] at here
      split_ifs at here with same
      · right
        intro listed
        have some := List.count_pos_iff.mpr listed
        simp [List.count_append, same] at once
        omega
      · exact .inl here
  | unregister other history offered =>
      rw [history, present_unregister] at here
      split_ifs at here
      exact .inl here
  | take envelope listed history offered =>
      rw [history, present_broadcast] at here
      exact .inl here

theorem own_history (own : OwnStep server after) : server.history <+: after.history := by
  cases own with
  | quiet history offered => rw [history]
  | register other history offered =>
      rw [history]
      exact List.prefix_append _ _
  | unregister other history offered =>
      rw [history]
      exact List.prefix_append _ _
  | take envelope listed history offered =>
      rw [history]
      exact List.prefix_append _ _

/-- What is offered for the room of a client stays offered or is delivered to it. -/
theorem offered_delivered (own : OwnStep server after)
    (here : present roomOf after.history client = true) {payload : Bytes}
    (offers : (⟨roomOf client, payload⟩ : Envelope) ∈ server.state.offered) :
    payload ∈ deliveries roomOf after.history client ∨
      (⟨roomOf client, payload⟩ : Envelope) ∈ after.state.offered := by
  cases own with
  | quiet history offered =>
      rw [offered]
      exact .inr offers
  | register other history offered =>
      rw [offered]
      exact .inr offers
  | unregister other history offered =>
      rw [offered]
      exact .inr offers
  | take envelope listed history offered =>
      by_cases same : envelope = ⟨roomOf client, payload⟩
      · left
        rw [history, present_broadcast] at here
        rw [history, same, deliveries_broadcast, if_pos ⟨here, rfl⟩]
        exact List.mem_append_right _ List.mem_cons_self
      · right
        rw [offered]
        exact (List.mem_erase_of_ne fun equal => same equal.symm).mpr offers

end Deliveries

section Invariant

variable {Writer Place Client : Type} [DecidableEq Client]

/-- The client asks for history only after its registration, and what is published for
its room after its first page arrives at its server. -/
def Arrives (setup : Setup Writer Client) (place : Place) (client : Client)
    (cluster : Cluster Writer Place Client) : Action Writer Place Client → Prop
  | .store .request => pastRegister ((cluster.servers place).state.clients client).read = true
  | .publish relay _ reached => cluster.store.walk.pages ≠ [] →
      present setup.roomOf (cluster.servers place).history client = true →
        ∀ event ∈ nextEvent (cluster.store.store.relays relay),
          event.roomID = setup.roomOf client → reached place = true
  | .lose other _ => other ≠ place
  | _ => True

/-- The payload is delivered to the client or on its way to the hub. -/
def Coming (roomOf : Client → Bytes) (cluster : Cluster Writer Place Client) (place : Place)
    (client : Client) (payload : Bytes) : Prop :=
  payload ∈ deliveries roomOf (cluster.servers place).history client ∨
    (⟨roomOf client, payload⟩ : Envelope) ∈ (cluster.servers place).state.offered ∨
    (⟨roomOf client, payload⟩ : Envelope) ∈ (cluster.inbox place).map envelopeFrom

structure JoinSound (setup : Setup Writer Client) (place : Place) (client : Client)
    (cluster : Cluster Writer Place Client) : Prop where
  walked : cluster.store.walk.pages ≠ [] →
    Message.register client ∈ (cluster.servers place).history
  covered : present setup.roomOf (cluster.servers place).history client = true →
    cluster.store.walk.pages ≠ [] → ∀ handover ∈ cluster.store.store.handovers,
      handover.event.roomID = setup.roomOf client →
        (∃ row ∈ cluster.store.walk.atFirst,
          ShowsRow setup.columns row handover.event.message) ∨
        Coming setup.roomOf cluster place client handover.event.message.marshal

variable {setup : Setup Writer Client} {place : Place} {client : Client}
  {cluster after : Cluster Writer Place Client}

theorem start_join_sound : JoinSound setup place client (start : Cluster Writer Place Client) where
  walked := fun pages => absurd rfl pages
  covered := fun _ pages => absurd rfl pages

variable [DecidableEq Place]

omit [DecidableEq Place] in
/-- What happens elsewhere. -/
theorem elsewhere_join_sound (sound : JoinSound setup place client cluster)
    (store : after.store = cluster.store)
    (server : after.servers place = cluster.servers place)
    (inbox : after.inbox place = cluster.inbox place) : JoinSound setup place client after := by
  constructor
  · rw [store, server]
    exact sound.walked
  · unfold Coming
    rw [store, server, inbox]
    exact sound.covered

/-- A step of a server on its own, at this place or another. -/
theorem server_join_sound {other : Place} {server : Server Client}
    (sound : JoinSound setup place client cluster) (own : OwnStep (cluster.servers other) server)
    (served : ServerSound setup.variant setup.roomOf server) :
    JoinSound setup place client (setServer cluster other server) := by
  by_cases same : place = other
  · subst same
    have now : (setServer cluster place server).servers place = server := set_server_self _ _ _
    constructor
    · intro started
      rw [now]
      exact (own_history own).subset (sound.walked started)
    · intro here started handover handed room
      rw [now] at here
      rcases own_present own (served.once client) here with before | new
      · refine (sound.covered before started handover handed room).imp_right ?_
        unfold Coming
        rw [now]
        rintro (delivered | offers | waits)
        · exact .inl ((deliveries_grow _ (own_history own) client).subset delivered)
        · exact (offered_delivered own here offers).imp_right .inl
        · exact .inr (.inr waits)
      · exact absurd (sound.walked started) new
  · exact elsewhere_join_sound sound rfl (set_server_other _ _ same) rfl

theorem consume_join_sound {other : Place} {message : Bytes × Bytes}
    {rest : List (Bytes × Bytes)} {server : Server Client}
    (sound : JoinSound setup place client cluster)
    (waiting : cluster.inbox other = message :: rest)
    (stepped : serverStep setup.variant setup.roomOf (cluster.servers other)
      (.consume message.1 message.2) = some server) :
    JoinSound setup place client { setServer cluster other server with
      inbox := Function.update cluster.inbox other rest } := by
  rcases consume_pipeline stepped with ⟨history, idle, offered⟩
  by_cases same : place = other
  · subst same
    have now : (setServer cluster place server).servers place = server := set_server_self _ _ _
    constructor
    · dsimp only
      rw [now, history]
      exact sound.walked
    · intro here started handover handed room
      dsimp only at here
      rw [now, history] at here
      refine (sound.covered here started handover handed room).imp_right ?_
      rintro (delivered | offers | waits)
      · refine .inl ?_
        dsimp only
        rw [now, history]
        exact delivered
      · rw [idle] at offers
        cases offers
      · rw [waiting, List.map_cons] at waits
        rcases List.mem_cons.mp waits with head | later
        · refine .inr (.inl ?_)
          dsimp only
          rw [now, offered, head]
          exact List.mem_cons_self
        · refine .inr (.inr ?_)
          dsimp only
          rw [Function.update_self]
          exact later
  · exact elsewhere_join_sound sound rfl (set_server_other _ _ same)
      (Function.update_of_ne same _ _)

variable [DecidableEq Writer] [Fintype Place]

/-- What a step of the store that hands nothing over does to the walk. -/
theorem quiet_walk {store : StoreWalk Writer Place} {action : StoreAction Writer Place}
    (stepped : setupStore setup cluster.store action = some store) :
    store.walk.pages = cluster.store.walk.pages ∧
        store.walk.atFirst = cluster.store.walk.atFirst ∨
      action = .request ∧ store.store = cluster.store.store ∧
        store.walk.atFirst = if cluster.store.walk.pages = [] then cluster.store.walk.table
          else cluster.store.walk.atFirst := by
  cases action with
  | store action =>
      rcases Option.map_eq_some_iff.mp stepped with ⟨state, moved, rfl⟩
      exact .inl ⟨rfl, rfl⟩
  | request =>
      rcases Option.map_eq_some_iff.mp stepped with ⟨walk, moved, rfl⟩
      rcases RoomHistory.request_turns moved with ⟨page, rfl⟩
      exact .inr ⟨rfl, rfl, rfl⟩

/-- The first page finds the messages of everything handed over so far. -/
theorem quiet_join_sound {store : StoreWalk Writer Place} {action : StoreAction Writer Place}
    (keeps : ColumnsKeep setup.columns) (cleared : ClusterSound setup cluster)
    (sound : JoinSound setup place client cluster)
    (arrives : Arrives setup place client cluster (.store action))
    (quiet : isDispatch action = false)
    (stepped : setupStore setup cluster.store action = some store) :
    JoinSound setup place client { cluster with store := store } := by
  have handovers := quiet_handovers quiet stepped
  rcases quiet_walk stepped with ⟨pages, first⟩ | ⟨rfl, same, first⟩
  · constructor
    · intro started
      exact sound.walked (pages ▸ started)
    · intro here started handover handed room
      dsimp only at started handed ⊢
      rw [handovers] at handed
      rw [pages] at started
      rw [first]
      exact sound.covered here started handover handed room
  · constructor
    · intro _
      exact ((cleared.servers place).registered client).mpr arrives
    · intro here _ handover handed room
      dsimp only at handed ⊢
      rw [handovers] at handed
      by_cases opening : cluster.store.walk.pages = []
      · left
        rcases handover_shows keeps cleared handed with ⟨_, _, _, row, stored, _, _, shows, _⟩
        refine ⟨row, ?_, shows⟩
        rw [first, if_pos opening, (RoomHistory.store_walk_reachable keeps cleared.stored).2.1]
        exact stored
      · rw [first, if_neg opening]
        exact sound.covered here opening handover handed room

/-- A handover that comes while the client is in its room is on its way to it. -/
theorem handed_join_sound {store : StoreWalk Writer Place} {relay : Place} {published : Bool}
    {event : OutboxEvent} (sound : JoinSound setup place client cluster)
    (dispatched : dispatch setup cluster.store relay published = some (event, store))
    (servers : after.store = store)
    (registered : ∀ client, Message.register client ∈ (cluster.servers place).history →
      Message.register client ∈ (after.servers place).history)
    (here : present setup.roomOf (after.servers place).history client = true →
      present setup.roomOf (cluster.servers place).history client = true)
    (still : ∀ payload, Coming setup.roomOf cluster place client payload →
      Coming setup.roomOf after place client payload)
    (new : cluster.store.walk.pages ≠ [] →
      present setup.roomOf (cluster.servers place).history client = true →
        event.roomID = setup.roomOf client →
          Coming setup.roomOf after place client event.message.marshal) :
    JoinSound setup place client after := by
  rcases dispatch_cases dispatched with ⟨_, handovers, pages, first⟩
  constructor
  · rw [servers, pages]
    exact fun started => registered client (sound.walked started)
  · rw [servers, pages, first, handovers]
    intro present started handover handed room
    rcases List.mem_append.mp handed with before | last
    · exact (sound.covered (here present) started handover before room).imp_right (still _)
    · rw [List.mem_singleton.mp last] at room ⊢
      exact .inr (new started (here present) room)

theorem broadcast_join_sound {relay : Place} {targets : List Client} {event : OutboxEvent}
    {store : StoreWalk Writer Place} {server : Server Client}
    (cleared : ClusterSound setup cluster) (sound : JoinSound setup place client cluster)
    (one : ∀ left right : Place, left = right) (single : setup.variant = .singleInstance)
    (dispatched : dispatch setup cluster.store relay true = some (event, store))
    (met : meet setup (cluster.servers relay) (envelopeOf event) targets = some server) :
    JoinSound setup place client { setServer cluster relay server with store := store } := by
  rcases one relay place with rfl
  have idle := cleared.idle single relay
  rcases meet_pipeline idle.1 met with ⟨history, _⟩
  have now : (setServer cluster relay server).servers relay = server := set_server_self _ _ _
  apply handed_join_sound sound dispatched rfl
  · intro other listed
    dsimp only
    rw [now, history]
    exact List.mem_append_left _ listed
  · dsimp only
    rw [now, history, present_broadcast]
    exact fun here => here
  · intro payload coming
    rw [Coming, idle.1, idle.2] at coming
    rcases coming with delivered | offers | waits
    · left
      dsimp only
      rw [now, history]
      exact (deliveries_grow _ (List.prefix_append _ _) client).subset delivered
    · cases offers
    · cases waits
  · intro _ here room
    left
    dsimp only
    rw [now, history, deliveries_broadcast, if_pos ⟨here, room⟩]
    exact List.mem_append_right _ List.mem_cons_self

theorem publish_join_sound {relay : Place} {published : Bool} {reached : Place → Bool}
    {event : OutboxEvent} {store : StoreWalk Writer Place}
    (sound : JoinSound setup place client cluster)
    (arrives : Arrives setup place client cluster (.publish relay published reached))
    (dispatched : dispatch setup cluster.store relay published = some (event, store)) :
    JoinSound setup place client
      { cluster with store := store, inbox := passOn cluster event reached } := by
  apply handed_join_sound sound dispatched rfl
  · exact fun _ listed => listed
  · exact fun here => here
  · intro payload coming
    rcases coming with delivered | offers | waits
    · exact .inl delivered
    · exact .inr (.inl offers)
    · refine .inr (.inr ?_)
      dsimp only [passOn]
      split_ifs
      · rw [List.map_append]
        exact List.mem_append_left _ waits
      · exact waits
  · intro started here room
    rcases Option.bind_eq_some_iff.mp dispatched with ⟨found, next, rest⟩
    rcases Option.map_eq_some_iff.mp rest with ⟨_, _, same⟩
    cases same
    refine .inr (.inr ?_)
    dsimp only [passOn]
    rw [if_pos (arrives started here event next room), List.map_append, ← room]
    apply List.mem_append_right
    rw [List.map_singleton, envelopeFrom, room_of_room_channel]
    exact List.mem_cons_self

theorem step_join_sound {action : Action Writer Place Client} (keeps : ColumnsKeep setup.columns)
    (one : setup.variant = .singleInstance → ∀ left right : Place, left = right)
    (cleared : ClusterSound setup cluster) (sound : JoinSound setup place client cluster)
    (arrives : Arrives setup place client cluster action)
    (stepped : step setup cluster action = some after) :
    JoinSound setup place client after := by
  cases step_cases stepped with
  | store action store quiet moved =>
      exact quiet_join_sound keeps cleared sound arrives quiet moved
  | server other action server own moved =>
      exact server_join_sound sound (own_step_cases own moved)
        (server_step_sound (cleared.servers other) moved)
  | broadcast relay targets event store server single dispatched met =>
      exact broadcast_join_sound cleared sound (one single) single dispatched met
  | publish relay published reached event store naive dispatched =>
      exact publish_join_sound sound arrives dispatched
  | consume other message rest server naive waiting moved =>
      exact consume_join_sound sound waiting moved
  | lose other index =>
      exact elsewhere_join_sound sound rfl rfl (Function.update_of_ne (Ne.symm arrives) _ _)

theorem reachable_join_sound (keeps : ColumnsKeep setup.columns)
    (one : setup.variant = .singleInstance → ∀ left right : Place, left = right)
    (reached : Reachable (step setup) (Arrives setup place client) start cluster) :
    JoinSound setup place client cluster := by
  refine reachable_induction (JoinSound setup place client) start_join_sound ?_ reached
  intro before action after earlier sound arrives stepped
  exact step_join_sound keeps one (reachable_cluster_sound earlier) sound arrives stepped

end Invariant

section Landing

open ChatScale.RoomSubscriptions (Brokered awaits awaits_eq_false Settles landed_iff sent_apart
  sent_same subscriptionsAt reachable_settles)

variable {Writer Place Client : Type} [DecidableEq Client]

/-- The client asks for history only after its registration and once no command for the
channel of its room is under way. After its first page every PUBLISH for the room
succeeds, and one that finds the subscription of its server reaches it. -/
def Joins (setup : Setup Writer Client) (place : Place) (client : Client)
    (state : Brokered Writer Place Client) : RoomSubscriptions.Action Writer Place Client → Prop
  | .cluster (.store .request) =>
      pastRegister ((state.cluster.servers place).state.clients client).read = true ∧
        awaits state place (roomChannel (setup.roomOf client)) = false
  | .cluster (.publish relay published reached) =>
      state.cluster.store.walk.pages.isEmpty = false →
        ∀ event ∈ nextEvent (state.cluster.store.store.relays relay),
          event.roomID = setup.roomOf client → published = true ∧
            ((state.channels place).contains (roomChannel event.roomID) = true →
              reached place = true)
  | .cluster (.lose other _) => other ≠ place
  | _ => True

instance [DecidableEq Place] (setup : Setup Writer Client) (place : Place) (client : Client)
    (state : Brokered Writer Place Client)
    (action : RoomSubscriptions.Action Writer Place Client) :
    Decidable (Joins setup place client state action) :=
  match action with
  | .cluster (.store .request) =>
      inferInstanceAs (Decidable (pastRegister _ = true ∧ awaits _ _ _ = false))
  | .cluster (.publish _ published reached) =>
      inferInstanceAs (Decidable (_ = false → ∀ event ∈ nextEvent _, event.roomID = _ →
        published = true ∧ (List.contains _ (roomChannel event.roomID) = true →
          reached place = true)))
  | .cluster (.lose other _) => inferInstanceAs (Decidable (other ≠ place))
  | .cluster (.store (.store _)) => inferInstanceAs (Decidable True)
  | .cluster (.server _ _) => inferInstanceAs (Decidable True)
  | .cluster (.broadcast _ _) => inferInstanceAs (Decidable True)
  | .cluster (.consume _) => inferInstanceAs (Decidable True)
  | .execute _ => inferInstanceAs (Decidable True)

/-- After the first page nothing is under way for the channel of a client in its room. -/
def Landed (setup : Setup Writer Client) (place : Place) (client : Client)
    (state : Brokered Writer Place Client) : Prop :=
  state.cluster.store.walk.pages ≠ [] →
    present setup.roomOf (state.cluster.servers place).history client = true →
      awaits state place (roomChannel (setup.roomOf client)) = false

variable {setup : Setup Writer Client} {place : Place} {client : Client}
  {cluster after : Cluster Writer Place Client} {state next : Brokered Writer Place Client}

/-- The server of a client in a room is subscribed to the channel of the room. -/
theorem present_subscribed
    (served : ServerSound setup.variant setup.roomOf (cluster.servers place))
    (naive : setup.variant = .naiveScale)
    (here : present setup.roomOf (cluster.servers place).history client = true) :
    roomChannel (setup.roomOf client) ∈ subscriptionsAt cluster place := by
  have placed := (place_present served.hub client).mpr here
  exact ((served.hub.subscribed naive).2 _).mpr ⟨_, room_known placed, rfl⟩

variable [DecidableEq Writer] [DecidableEq Place] [Fintype Place]

/-- A walk that has its first page had it before, or gets it now. -/
theorem step_started {action : Action Writer Place Client}
    (stepped : step setup cluster action = some after) (started : after.store.walk.pages ≠ []) :
    cluster.store.walk.pages ≠ [] ∨ action = .store .request ∧ after.servers = cluster.servers := by
  cases step_cases stepped with
  | store action store quiet moved =>
      rcases quiet_walk moved with ⟨pages, _⟩ | ⟨rfl, _, _⟩
      · exact .inl (pages ▸ started)
      · exact .inr ⟨rfl, rfl⟩
  | broadcast relay targets event store server single dispatched met =>
      exact .inl ((dispatch_cases dispatched).2.2.1 ▸ started)
  | publish relay published reached event store naive dispatched =>
      exact .inl ((dispatch_cases dispatched).2.2.1 ▸ started)
  | server other action server own moved => exact .inl started
  | consume other message rest server naive waiting moved => exact .inl started
  | lose other index => exact .inl started

/-- A client that walks does not register any more. -/
theorem step_present {action : Action Writer Place Client} (cleared : ClusterSound setup cluster)
    (sound : JoinSound setup place client cluster) (naive : setup.variant = .naiveScale)
    (stepped : step setup cluster action = some after) (started : cluster.store.walk.pages ≠ [])
    (here : present setup.roomOf (after.servers place).history client = true) :
    present setup.roomOf (cluster.servers place).history client = true := by
  cases step_cases stepped with
  | store action store quiet moved => exact here
  | publish relay published reached event store _ dispatched => exact here
  | lose other index => exact here
  | broadcast relay targets event store server single dispatched met =>
      rw [naive] at single
      cases single
  | server other action server own moved =>
      by_cases same : place = other
      · subst same
        rw [set_server_self] at here
        rcases own_present (own_step_cases own moved)
          ((server_step_sound (cleared.servers place) moved).once client) here with before | new
        · exact before
        · exact absurd (sound.walked started) new
      · rw [set_server_other _ _ same] at here
        exact here
  | consume other message rest server _ waiting moved =>
      dsimp only at here
      by_cases same : place = other
      · subst same
        rw [set_server_self, (consume_pipeline moved).1] at here
        exact here
      · rw [set_server_other _ _ same] at here
        exact here

/-- What the client waits for and what is under way to Redis together make what is
published arrive. -/
theorem joins_arrives {action : Action Writer Place Client}
    (cleared : ClusterSound setup state.cluster) (settles : Settles state)
    (landed : setup.variant = .naiveScale → Landed setup place client state)
    (joins : Joins setup place client state (.cluster action))
    (stepped : step setup state.cluster action = some after) :
    Arrives setup place client state.cluster action := by
  cases step_cases stepped with
  | store action store quiet moved =>
      cases action with
      | request => exact joins.1
      | store action => trivial
  | publish relay published reached event store naive dispatched =>
      intro started here event handed room
      have listed : roomChannel (setup.roomOf client) ∈ state.channels place :=
        (landed_iff settles (landed naive started here)).mpr
          (present_subscribed (cleared.servers place) naive here)
      apply (joins (by simpa using started) event handed room).2
      rw [room, List.contains_iff_mem]
      exact listed
  | lose other index => exact joins
  | server other action server own moved => trivial
  | broadcast relay targets event store server single dispatched met => trivial
  | consume other message rest server naive waiting moved => trivial

theorem step_landed {action : RoomSubscriptions.Action Writer Place Client}
    (cleared : ClusterSound setup state.cluster)
    (sound : JoinSound setup place client state.cluster)
    (naive : setup.variant = .naiveScale) (landed : Landed setup place client state)
    (joins : Joins setup place client state action)
    (stepped : RoomSubscriptions.step setup state action = some next) :
    Landed setup place client next := by
  cases RoomSubscriptions.step_cases stepped with
  | cluster action after moved =>
      intro started here
      have served := (step_cluster_sound cleared moved).servers place
      rw [awaits_eq_false]
      intro command listed
      rcases step_started moved started with earlier | ⟨rfl, same⟩
      · have was := step_present cleared sound naive moved earlier here
        rcases List.mem_append.mp listed with before | new
        · exact awaits_eq_false.mp (landed earlier was) command before
        · exact sent_apart (present_subscribed (cleared.servers place) naive was)
            (present_subscribed served naive here) command new
      · dsimp only [subscriptionsAt] at listed
        rw [same, sent_same, List.append_nil] at listed
        exact awaits_eq_false.mp joins.2 command listed
  | execute other command rest waiting =>
      intro started here
      rw [awaits_eq_false]
      intro later listed
      apply awaits_eq_false.mp (landed started here)
      by_cases same : place = other
      · subst same
        dsimp only at listed
        rw [Function.update_self] at listed
        rw [waiting]
        exact List.mem_cons_of_mem _ listed
      · dsimp only at listed
        rw [Function.update_of_ne same] at listed
        exact listed

/-- The cluster of a run with commands under way is one in which everything arrives. -/
theorem reachable_arrives (keeps : ColumnsKeep setup.columns)
    (one : setup.variant = .singleInstance → ∀ left right : Place, left = right)
    (reached : Reachable (RoomSubscriptions.step setup) (Joins setup place client)
      RoomSubscriptions.start state) :
    Reachable (step setup) (Arrives setup place client) start state.cluster ∧
      (setup.variant = .naiveScale → Landed setup place client state) := by
  refine reachable_induction (fun state : Brokered Writer Place Client =>
    Reachable (step setup) (Arrives setup place client) start state.cluster ∧
      (setup.variant = .naiveScale → Landed setup place client state)) ?_ ?_ reached
  · exact ⟨reachable_start, fun _ started => absurd rfl started⟩
  · intro before action after earlier known joins stepped
    have cleared := reachable_cluster_sound known.1
    have sound := reachable_join_sound keeps one known.1
    refine ⟨?_, fun naive => step_landed cleared sound naive (known.2 naive) joins stepped⟩
    cases RoomSubscriptions.step_cases stepped with
    | cluster action cluster moved =>
        exact reachable_step known.1
          (joins_arrives cleared (reachable_settles earlier) known.2 joins moved) moved
    | execute other command rest waiting => exact known.1

end Landing

section Results

variable {Writer Place Client : Type} [DecidableEq Writer] [DecidableEq Place] [Fintype Place]
  [DecidableEq Client] {setup : Setup Writer Client} {place : Place} {client : Client}
  {cluster : Cluster Writer Place Client}

/-- Everything is dispatched and nothing is between the relays and the socket. -/
structure AtRest (cluster : Cluster Writer Place Client) (place : Place) (client : Client) :
    Prop where
  dispatched : ∀ row ∈ cluster.store.store.db.outbox, row.dispatched = true
  inbox : cluster.inbox place = []
  offered : (cluster.servers place).state.offered = []
  run : (cluster.servers place).state.run = .selecting
  pump : ((cluster.servers place).state.clients client).pump = .waiting
  send : ((cluster.servers place).state.clients client).send = []

omit [DecidableEq Writer] [DecidableEq Place] [Fintype Place] in
/-- At rest everything that came has been written. -/
theorem rest_written (served : ServerSound setup.variant setup.roomOf (cluster.servers place))
    (rest : AtRest cluster place client) {payload : Bytes}
    (coming : Coming setup.roomOf cluster place client payload) :
    payload ∈ (cluster.servers place).written client := by
  have delivered := served.hub.delivered client
  have pumped := (served.sockets client).pumping (by simp [rest.pump])
  simp only [hubOf, rest.run, stageOf, pending, List.append_nil] at delivered
  simp only [rest.pump, rest.send, inHand, List.append_nil] at pumped
  rcases coming with there | offers | waits
  · rw [delivered, pumped] at there
    exact there
  · rw [rest.offered] at offers
    cases offers
  · rw [rest.inbox] at waits
    cases waits

/-- The row of a committed message has been handed over. -/
theorem dispatched_handover (keeps : ColumnsKeep setup.columns)
    (sound : ClusterSound setup cluster) (rest : AtRest cluster place client) {row : MessageRow}
    (stored : row ∈ cluster.store.store.db.messages) :
    ∃ handover ∈ cluster.store.store.handovers, handover.event.roomID = row.roomID ∧
      ShowsRow setup.columns row handover.event.message := by
  have rows := (RoomHistory.store_walk_reachable keeps sound.stored).1
  rcases (paired_right rows.paired rows.sequence.distinct (fun _ _ _ => carries_id) stored).exists
    with ⟨outbox, listed, carries⟩
  rcases sound.claims.dispatched outbox listed (rest.dispatched outbox listed) with
    ⟨handover, handed, read⟩
  rcases carries.decodes with ⟨event, again, id, body, createdAt, room, user⟩
  cases read.symm.trans again
  refine ⟨handover, handed, ?_, id, body, createdAt, room, user⟩
  rw [outbox_event_room read, carries.room]

/-- A message that was there at the first page is on the pages of a walk that has
ended. -/
theorem first_row_shown {limit : Nat} {room : Bytes} {walk : RoomHistory.Walk}
    (walked : RoomHistory.WalkSound room limit walk) (ended : walk.ended = true)
    {row : MessageRow} (listed : row ∈ walk.atFirst) (same : row.roomID = room) :
    rowMessage row ∈ walk.shown := by
  rcases walked.shows with ⟨rows, shown, known⟩
  have started : walk.pages ≠ [] := by
    intro fresh
    rw [(walked.fresh fresh).2] at ended
    cases ended
  rcases known.covered started row listed same with inside | ⟨going, _⟩
  · rw [shown]
    exact List.mem_map_of_mem inside
  · rw [ended] at going
    cases going

/-- A client that registers and then, with the subscription of its server landed, walks
back through the history of its room has, once the walk has ended and all is at rest,
every message of the room: on a page, or in a frame that was written to it. -/
theorem joined_client_complete (setup : Setup Writer Client) (keeps : ColumnsKeep setup.columns)
    (one : setup.variant = .singleInstance → ∀ left right : Place, left = right)
    (place : Place) (client : Client)
    (denotes : setup.columns.uuid setup.room = some (setup.roomOf client))
    (positive : 1 ≤ setup.limit) (small : setup.limit ≤ RoomHistory.maxHistoryLimit)
    (state : RoomSubscriptions.Brokered Writer Place Client)
    (reached : Reachable (RoomSubscriptions.step setup) (Joins setup place client)
      RoomSubscriptions.start state)
    (member : ((state.cluster.servers place).state.rooms.clientAt (setup.roomOf client)
      client).isSome = true)
    (ended : state.cluster.store.walk.ended = true) (rest : AtRest state.cluster place client) :
    ∀ row ∈ state.cluster.store.store.db.messages, row.roomID = setup.roomOf client →
      rowMessage row ∈ state.cluster.store.walk.shown ∨
        ∃ frame ∈ (state.cluster.servers place).written client,
          ∃ message, unmarshalChatMessage frame = some message ∧
            ShowsRow setup.columns row message := by
  intro row stored same
  have arrived := (reachable_arrives keeps one reached).1
  have sound := reachable_cluster_sound arrived
  have joined := reachable_join_sound keeps one arrived
  rcases RoomHistory.store_walk_reachable keeps sound.stored with ⟨rows, table, walked⟩
  have empty : RoomHistory.TableSound [] := ⟨List.nodup_nil, by simp⟩
  have walk : RoomHistory.WalkSound (setup.roomOf client) setup.limit state.cluster.store.walk :=
    RoomHistory.reachable_walk denotes positive small empty walked
  have started : state.cluster.store.walk.pages ≠ [] := by
    intro fresh
    rw [(walk.fresh fresh).2] at ended
    cases ended
  have here := (place_present (sound.servers place).hub client).mp member
  rcases dispatched_handover keeps sound rest stored with ⟨handover, handed, room, shows⟩
  rcases joined.covered here started handover handed (room.trans same) with
    ⟨first, listed, firstShows⟩ | coming
  · -- The ids of rows are distinct, so the row that was there at the first page is this one.
    have equal : first = row := by
      apply List.inj_on_of_nodup_map rows.sequence.distinct _ stored
      · exact Int.ofNat.inj (firstShows.id.symm.trans shows.id)
      · rw [← table]
        exact walk.known first listed
    rw [equal] at listed
    exact .inl (first_row_shown walk ended listed same)
  · rcases handover_shows keeps sound handed with ⟨_, _, _, _, _, _, _, _, decodes⟩
    exact .inr ⟨_, rest_written (sound.servers place) rest coming, _, decodes, shows⟩

end Results

section Samples

open RoomOutboxHandover (lobby)
open RoomSubscriptions (Brokered)

/-- The message is published before the subscription lands and reaches nobody. -/
def missedFrame : List (Action Bool Bool Unit) :=
  connect true ++ post false ++
    publishNext false (fun _ => false)

/-- A message is committed between the two pages of the client. -/
def lateWalk : List (Action Bool Bool Unit) :=
  [.store .request] ++ post true ++
    [.store .request] ++ publishNext false (fun place => place) ++ receive true (greetingFrame 2)

def lateJoin : List (RoomSubscriptions.Action Bool Bool Unit) :=
  missedFrame.map .cluster ++ [.execute true] ++ lateWalk.map .cluster

/-- `AtRest` for the client at `true`, after a walk that has ended, to be evaluated. -/
def hasJoined (cluster : Cluster Bool Bool Unit) : Bool :=
  cluster.store.store.db.outbox.all OutboxRow.dispatched && (cluster.inbox true).isEmpty &&
    (cluster.servers true).state.offered.isEmpty &&
    decide ((cluster.servers true).state.run = .selecting) &&
    decide (((cluster.servers true).state.clients ()).pump = .waiting) &&
    ((cluster.servers true).state.clients ()).send.isEmpty && cluster.store.walk.ended &&
    ((cluster.servers true).state.rooms.clientAt lobby ()).isSome

theorem late_join_complete :
    ∃ state : Brokered Bool Bool Unit,
      Reachable (RoomSubscriptions.step (lobbySetup Bool .naiveScale))
        (Joins (lobbySetup Bool .naiveScale) true ()) RoomSubscriptions.start state ∧
      (state.cluster.store.store.db.messages.length = 2 ∧
        (state.cluster.servers true).written () = [greetingFrame 2]) ∧
      ∀ row ∈ state.cluster.store.store.db.messages, row.roomID = lobby →
        rowMessage row ∈ state.cluster.store.walk.shown ∨
          ∃ frame ∈ (state.cluster.servers true).written (),
            ∃ message, unmarshalChatMessage frame = some message ∧
              ShowsRow keptColumns row message := by
  have ran : (runActions (RoomSubscriptions.step (lobbySetup Bool .naiveScale))
      (Joins (lobbySetup Bool .naiveScale) true ()) RoomSubscriptions.start lateJoin).any
      (fun state => hasJoined state.cluster &&
        decide (state.cluster.store.store.db.messages.length = 2 ∧
          (state.cluster.servers true).written () = [greetingFrame 2])) = true := by
    decide +kernel
  rcases (Option.any_eq_true _ _).mp ran with ⟨state, reached, checked⟩
  have reachable := reachable_run_actions reachable_start reached
  simp only [hasJoined, Bool.and_eq_true, List.all_eq_true, List.isEmpty_iff, decide_eq_true_eq]
    at checked
  rcases checked with
    ⟨⟨⟨⟨⟨⟨⟨⟨dispatched, inbox⟩, offered⟩, run⟩, pump⟩, send⟩, ended⟩, member⟩, seen⟩
  refine ⟨state, reachable, seen, ?_⟩
  have naive : (lobbySetup Bool .naiveScale).variant = .singleInstance →
      ∀ left right : Bool, left = right := by
    intro single
    cases single
  exact joined_client_complete (lobbySetup Bool .naiveScale) kept_columns_keep naive true ()
    (by decide +kernel) (by decide) (by decide) state reachable member ended
    ⟨dispatched, inbox, offered, run, pump, send⟩

end Samples

end ChatScale.RoomJoin
