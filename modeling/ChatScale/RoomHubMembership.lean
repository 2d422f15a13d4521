import ChatScale.RoomHubRun

/-!
# What `Run` keeps

Rooms, channels and subscriptions agree after any messages, as long as no client
is registered twice: the rooms hold exactly the clients that should be there,
their channels are open, and everything put on a channel is what was broadcast to
its client's room while the client was in it. So nothing is sent on a closed
channel, and no channel is closed twice.
-/

namespace ChatScale.RoomHubMembership

open ChatScale.ByteText ChatScale.HubRooms ChatScale.RoomHubModel
open ChatScale.RoomHubRun ChatScale.TransitionSystem

set_option autoImplicit false

section Invariant

variable {Client : Type} [DecidableEq Client]

/-- What the broadcast under way has still to put on a client's channel. -/
def pending : Stage Client → Client → List Bytes
  | .selecting, _ => []
  | .sending payload remaining, client => if client ∈ remaining then [payload] else []
  | .panicked, _ => []

/-- The loop of a broadcast has every client once, and only such as are in the
room. -/
def LoopSound (roomOf : Client → Bytes) (history : List (Message Client)) :
    Stage Client → Prop
  | .selecting => True
  | .sending _ remaining => remaining.Nodup ∧
      ∀ client ∈ remaining, present roomOf history client = true
  | .panicked => False

/-- The channels subscribed to are those of the rooms, each once. -/
def Subscribed (rooms : Hub (id : Client → Client)) (subscriptions : List Bytes) : Prop :=
  subscriptions.Nodup ∧ ∀ channel, channel ∈ subscriptions ↔
    ∃ roomID, (rooms.members roomID).isSome = true ∧ channel = roomChannel roomID

structure HubSound (variant : Variant) (roomOf : Client → Bytes) (state : HubState Client) :
    Prop where
  places : ∀ roomID client, state.rooms.clientAt roomID client =
    if roomID = roomOf client ∧ present roomOf state.history client = true then some client
    else none
  closed : ∀ client, (state.sends client).closed = true ↔ client ∈ state.closings
  once : state.closings.Nodup
  gone : ∀ client ∈ state.closings, present roomOf state.history client = false ∧
    Message.register client ∈ state.history
  loop : LoopSound roomOf state.history state.stage
  delivered : ∀ client, deliveries roomOf state.history client =
    state.puts client ++ pending state.stage client
  subscribed : variant = .naiveScale → Subscribed state.rooms state.subscriptions

theorem start_sound (variant : Variant) (roomOf : Client → Bytes) :
    HubSound variant roomOf start where
  places := by
    intro roomID client
    rw [if_neg fun both => Bool.false_ne_true both.2]
    rfl
  closed := by
    intro client
    exact iff_of_false Bool.false_ne_true List.not_mem_nil
  once := List.nodup_nil
  gone := by
    intro client listed
    cases listed
  loop := trivial
  delivered := fun _ => rfl
  subscribed := by
    intro _
    refine ⟨List.nodup_nil, fun channel => iff_of_false List.not_mem_nil ?_⟩
    rintro ⟨roomID, found, _⟩
    cases found

end Invariant

section Channels

variable {Client : Type} [DecidableEq Client] {rooms : Hub (id : Client → Client)}
  {subscriptions : List Bytes}

theorem room_channel_injective {left right : Bytes} (same : roomChannel left = roomChannel right) :
    left = right := List.append_cancel_left same

/-- `consume` gets back the room whose channel it was. -/
theorem room_of_room_channel (roomID : Bytes) : roomOfChannel (roomChannel roomID) = roomID := by
  have dropped : (roomChannel roomID).dropPrefix? roomChannelPrefix = some roomID :=
    List.dropPrefix?_eq_some_iff.mpr ⟨roomChannelPrefix, rfl, beq_self_eq_true _⟩
  rw [roomOfChannel, dropped, Option.getD_some]

/-- The first client of a room subscribes to its channel. -/
theorem join_subscribed (subscribed : Subscribed rooms subscriptions) (client : Client)
    (roomID : Bytes) :
    Subscribed (rooms.join client roomID) (match (rooms.members roomID).isSome with
      | false => subscriptions ++ [roomChannel roomID]
      | true => subscriptions) := by
  cases known : (rooms.members roomID).isSome with
  | true =>
      refine ⟨subscribed.1, fun channel => ?_⟩
      rw [subscribed.2]
      apply exists_congr
      intro other
      rw [members_join]
      apply and_congr_left
      intro _
      refine ⟨.inr, fun either => either.elim (fun same => ?_) (fun found => found)⟩
      rw [same, known]
  | false =>
      have fresh : roomChannel roomID ∉ subscriptions := by
        intro listed
        rcases (subscribed.2 _).mp listed with ⟨other, found, same⟩
        rw [← room_channel_injective same, known] at found
        cases found
      refine ⟨?_, fun channel => ?_⟩
      · rw [← List.concat_eq_append, List.nodup_concat]
        exact ⟨fresh, subscribed.1⟩
      · rw [List.mem_append, List.mem_singleton, subscribed.2]
        simp only [members_join, or_and_right, exists_or, exists_eq_left]
        exact or_comm

/-- The last client of a room unsubscribes from its channel. -/
theorem leave_subscribed (subscribed : Subscribed rooms subscriptions) (client : Client)
    {roomID : Bytes} (known : (rooms.members roomID).isSome = true) :
    Subscribed (rooms.leave client roomID)
      (match ((rooms.leave client roomID).members roomID).isNone with
      | true => subscriptions.erase (roomChannel roomID)
      | false => subscriptions) := by
  cases gone : ((rooms.leave client roomID).members roomID).isNone with
  | true =>
      have absent := Option.isNone_iff_eq_none.mp gone
      refine ⟨subscribed.1.erase _, fun channel => ?_⟩
      rw [subscribed.1.mem_erase_iff, subscribed.2]
      constructor
      · rintro ⟨differ, other, found, rfl⟩
        refine ⟨other, ?_, rfl⟩
        rw [members_leave_other]
        · exact found
        · intro same
          exact differ (congrArg roomChannel same)
      · rintro ⟨other, found, rfl⟩
        have differ : other ≠ roomID := by
          intro same
          rw [same, absent] at found
          cases found
        rw [members_leave_other rooms client differ] at found
        exact ⟨fun same => differ (room_channel_injective same), other, found, rfl⟩
  | false =>
      refine ⟨subscribed.1, fun channel => ?_⟩
      rw [subscribed.2]
      apply exists_congr
      intro other
      apply and_congr_left
      intro _
      by_cases same : other = roomID
      · rw [same, known, ← Option.not_isNone, gone]
        exact Iff.rfl
      · rw [members_leave_other rooms client same]

end Channels

section Steps

variable {Client : Type} [DecidableEq Client] {variant : Variant} {roomOf : Client → Bytes}
  {state after : HubState Client}

theorem register_sound (sound : HubSound variant roomOf state)
    (selecting : state.stage = .selecting) (client : Client)
    (first : Message.register client ∉ state.history) :
    HubSound variant roomOf (registerCase variant roomOf state client) where
  places := by
    intro roomID other
    simp only [registerCase, client_at_join, sound.places, present_register, id_eq]
    by_cases same : other = client
    · subst same
      simp only [and_true, if_true]
      by_cases here : roomID = roomOf other
      · rw [if_pos here, if_pos here]
      · rw [if_neg here, if_neg here, if_neg fun both => here both.1]
    · simp only [same, Ne.symm same, and_false, if_false]
  closed := sound.closed
  once := sound.once
  gone := by
    intro other listed
    rcases sound.gone other listed with ⟨absent, registered⟩
    refine ⟨?_, List.mem_append_left _ registered⟩
    simp only [registerCase, present_register]
    rw [if_neg, absent]
    intro same
    rw [same] at first
    exact first registered
  loop := by
    simp only [registerCase, selecting]
    trivial
  delivered := by
    intro other
    simp only [registerCase, deliveries_register]
    exact sound.delivered other
  subscribed := by
    intro scaled
    subst scaled
    have joined := join_subscribed (sound.subscribed rfl) client (roomOf client)
    simp only [registerCase]
    cases known : (state.rooms.members (roomOf client)).isSome with
    | true =>
        rw [known] at joined
        exact joined
    | false =>
        rw [known] at joined
        exact joined

theorem place_present (sound : HubSound variant roomOf state) (client : Client) :
    (state.rooms.clientAt (roomOf client) client).isSome = true ↔
      present roomOf state.history client = true := by
  rw [sound.places]
  by_cases here : present roomOf state.history client = true
  · rw [if_pos ⟨rfl, here⟩]
    exact iff_of_true rfl here
  · rw [if_neg fun both => here both.2]
    exact iff_of_false Bool.false_ne_true here

/-- A client in its room has an open channel. -/
theorem present_open (sound : HubSound variant roomOf state) {client : Client}
    (here : present roomOf state.history client = true) : client ∉ state.closings := by
  intro listed
  rw [(sound.gone client listed).1] at here
  cases here

theorem sound_open (sound : HubSound variant roomOf state) {client : Client}
    (here : present roomOf state.history client = true) : (state.sends client).closed = false :=
  Bool.eq_false_iff.mpr fun closed => present_open sound here ((sound.closed client).mp closed)

theorem present_after_unregister (history : List (Message Client)) (client other : Client) :
    present roomOf (history ++ [.unregister client]) other = true ↔
      other ≠ client ∧ present roomOf history other = true := by
  rw [present_unregister]
  by_cases same : client = other
  · rw [if_pos same]
    exact iff_of_false Bool.false_ne_true fun both => both.1 same.symm
  · rw [if_neg same]
    exact (and_iff_right fun equal => same equal.symm).symm

/-- A client that is in no room is left alone. -/
theorem unknown_sound (sound : HubSound variant roomOf state)
    (selecting : state.stage = .selecting) (client : Client)
    (absent : present roomOf state.history client = false) :
    HubSound variant roomOf
      { state with history := state.history ++ [.unregister client] } where
  places := by
    intro roomID other
    rw [sound.places]
    apply if_congr _ rfl rfl
    rw [present_after_unregister]
    apply and_congr_right
    intro _
    refine ⟨fun here => ⟨?_, here⟩, And.right⟩
    intro same
    rw [same, absent] at here
    cases here
  closed := sound.closed
  once := sound.once
  gone := by
    intro other listed
    rcases sound.gone other listed with ⟨gone, registered⟩
    refine ⟨?_, List.mem_append_left _ registered⟩
    rw [present_unregister, gone, ite_self]
  loop := by
    simp only [selecting]
    trivial
  delivered := by
    intro other
    rw [deliveries_unregister]
    exact sound.delivered other
  subscribed := sound.subscribed

theorem leave_sound (sound : HubSound variant roomOf state) (selecting : state.stage = .selecting)
    (client : Client) (here : present roomOf state.history client = true)
    (subscriptions : List Bytes)
    (subscribed : variant = .naiveScale →
      Subscribed (state.rooms.leave client (roomOf client)) subscriptions) :
    HubSound variant roomOf { state with
      rooms := state.rooms.leave client (roomOf client)
      sends := Function.update state.sends client { state.sends client with closed := true }
      subscriptions := subscriptions
      history := state.history ++ [.unregister client]
      closings := state.closings ++ [client] } where
  places := by
    intro roomID other
    rw [client_at_leave, sound.places]
    by_cases same : other = client
    · subst same
      have left : ¬ (roomID = roomOf other ∧
          present roomOf (state.history ++ [.unregister other]) other = true) :=
        fun both => ((present_after_unregister _ _ _).mp both.2).1 rfl
      rw [if_neg left]
      by_cases room : roomID = roomOf other
      · rw [if_pos ⟨room, rfl⟩]
      · rw [if_neg fun both => room both.1, if_neg fun both => room both.1]
    · rw [if_neg fun both => same both.2]
      apply if_congr _ rfl rfl
      rw [present_after_unregister, and_iff_right same]
  closed := by
    intro other
    dsimp only
    rw [List.mem_append, List.mem_singleton]
    by_cases same : other = client
    · rw [same, Function.update_self]
      exact iff_of_true rfl (.inr rfl)
    · rw [Function.update_of_ne same, sound.closed]
      exact (or_iff_left same).symm
  once := by
    dsimp only
    rw [← List.concat_eq_append, List.nodup_concat]
    exact ⟨present_open sound here, sound.once⟩
  gone := by
    intro other listed
    rw [present_unregister]
    by_cases same : client = other
    · rw [if_pos same, ← same]
      exact ⟨rfl, List.mem_append_left _ (present_registered here)⟩
    · have earlier : other ∈ state.closings :=
        (List.mem_append.mp listed).resolve_right
          fun last => same (List.mem_singleton.mp last).symm
      rcases sound.gone other earlier with ⟨gone, registered⟩
      rw [if_neg same]
      exact ⟨gone, List.mem_append_left _ registered⟩
  loop := by
    simp only [selecting]
    trivial
  delivered := by
    intro other
    rw [deliveries_unregister]
    exact sound.delivered other
  subscribed := subscribed

theorem room_known {rooms : Hub (id : Client → Client)} {roomID : Bytes} {client : Client}
    (found : (rooms.clientAt roomID client).isSome = true) :
    (rooms.members roomID).isSome = true := by
  rw [Hub.clientAt] at found
  rw [Hub.members, Option.isSome_map]
  cases known : rooms.rooms.lookup roomID with
  | none =>
      rw [known] at found
      cases found
  | some room => rfl

theorem unregister_sound (sound : HubSound variant roomOf state)
    (selecting : state.stage = .selecting) (client : Client) :
    HubSound variant roomOf (unregisterCase variant roomOf state client) := by
  rw [unregisterCase]
  by_cases member : (state.rooms.clientAt (roomOf client) client).isSome = true
  · have here := (place_present sound client).mp member
    rw [if_pos member, sound_open sound here, if_neg Bool.false_ne_true]
    apply leave_sound sound selecting client here
    intro scaled
    subst scaled
    have left := leave_subscribed (sound.subscribed rfl) client (room_known member)
    cases gone : ((state.rooms.leave client (roomOf client)).members (roomOf client)).isNone with
    | true =>
        rw [gone] at left
        exact left
    | false =>
        rw [gone] at left
        exact left
  · rw [if_neg member]
    apply unknown_sound sound selecting client
    rw [← Bool.not_eq_true]
    exact fun here => member ((place_present sound client).mpr here)

/-- The loop of a broadcast goes over the clients that are in its room. -/
theorem mem_targets (sound : HubSound variant roomOf state) {roomID : Bytes}
    {targets : List Client}
    (reordered : targets.Perm ((state.rooms.members roomID).getD [])) (client : Client) :
    client ∈ targets ↔ present roomOf state.history client = true ∧ roomID = roomOf client := by
  rw [reordered.mem_iff, and_comm]
  have place := sound.places roomID client
  cases found : state.rooms.members roomID with
  | none =>
      apply iff_of_false List.not_mem_nil
      intro both
      rw [if_pos both] at place
      have known := room_known (Option.isSome_iff_exists.mpr ⟨client, place⟩)
      rw [found] at known
      cases known
  | some members =>
      rw [Option.getD_some, mem_members state.rooms found]
      change state.rooms.clientAt roomID client = some client ↔ _
      rw [place]
      by_cases both : roomID = roomOf client ∧ present roomOf state.history client = true
      · rw [if_pos both]
        exact iff_of_true rfl both
      · rw [if_neg both]
        exact iff_of_false (fun same => by cases same) both

theorem targets_nodup {rooms : Hub (id : Client → Client)} {roomID : Bytes} {targets : List Client}
    (reordered : targets.Perm ((rooms.members roomID).getD [])) : targets.Nodup := by
  apply reordered.nodup_iff.mpr
  cases found : rooms.members roomID with
  | none => exact List.nodup_nil
  | some members => exact members_nodup rooms found

theorem broadcast_sound (sound : HubSound variant roomOf state)
    (selecting : state.stage = .selecting) (envelope : Envelope) {targets : List Client}
    (reordered : targets.Perm ((state.rooms.members envelope.roomID).getD [])) :
    HubSound variant roomOf { state with
      stage := .sending envelope.payload targets
      history := state.history ++ [.broadcast envelope] } where
  places := by
    intro roomID client
    rw [present_broadcast]
    exact sound.places roomID client
  closed := sound.closed
  once := sound.once
  gone := by
    intro client listed
    rw [present_broadcast]
    exact (sound.gone client listed).imp_right (List.mem_append_left _)
  loop := by
    refine ⟨targets_nodup reordered, fun client listed => ?_⟩
    rw [present_broadcast]
    exact ((mem_targets sound reordered client).mp listed).1
  delivered := by
    intro client
    have before := sound.delivered client
    rw [selecting, pending, List.append_nil] at before
    rw [deliveries_broadcast, pending, before]
    by_cases listed : client ∈ targets
    · rw [if_pos listed, if_pos ((mem_targets sound reordered client).mp listed)]
    · rw [if_neg listed, List.append_nil,
        if_neg fun both => listed ((mem_targets sound reordered client).mpr both)]
  subscribed := sound.subscribed

theorem send_sound (sound : HubSound variant roomOf state) {payload : Bytes} {client : Client}
    {rest : List Client} (sending : state.stage = .sending payload (client :: rest))
    (sent : sendCase state payload client rest = some after) : HubSound variant roomOf after := by
  have loop := sound.loop
  rw [sending] at loop
  have here := loop.2 client List.mem_cons_self
  have isOpen := sound_open sound here
  rw [sendCase, isOpen, if_neg Bool.false_ne_true] at sent
  split_ifs at sent
  cases sent
  refine ⟨sound.places, ?_, sound.once, sound.gone, ?_, ?_, sound.subscribed⟩
  · intro other
    dsimp only
    by_cases same : other = client
    · rw [same, Function.update_self, ← sound.closed, isOpen]
    · rw [Function.update_of_ne same, sound.closed]
  · exact ⟨(List.nodup_cons.mp loop.1).2,
      fun other listed => loop.2 other (List.mem_cons_of_mem _ listed)⟩
  · intro other
    have before := sound.delivered other
    rw [sending, pending] at before
    dsimp only
    rw [pending, before]
    by_cases same : other = client
    · have last : client ∉ rest := (List.nodup_cons.mp loop.1).1
      rw [same, Function.update_self, if_pos List.mem_cons_self, if_neg last, List.append_nil]
    · rw [Function.update_of_ne same]
      by_cases listed : other ∈ rest
      · rw [if_pos listed, if_pos (List.mem_cons_of_mem _ listed)]
      · rw [if_neg listed, if_neg fun either => (List.mem_cons.mp either).elim same listed]

theorem next_sound (sound : HubSound variant roomOf state) {payload : Bytes}
    (sending : state.stage = .sending payload []) :
    HubSound variant roomOf { state with stage := .selecting } where
  places := sound.places
  closed := sound.closed
  once := sound.once
  gone := sound.gone
  loop := trivial
  delivered := by
    intro client
    have before := sound.delivered client
    rw [sending, pending, if_neg List.not_mem_nil] at before
    exact before
  subscribed := sound.subscribed

/-- Taking from a channel concerns its buffer alone. -/
theorem receive_sound (sound : HubSound variant roomOf state) {client : Client}
    (received : receiveCase state client = some after) : HubSound variant roomOf after := by
  unfold receiveCase at received
  split at received
  · rename_i payload rest closed channel
    cases received
    refine ⟨sound.places, ?_, sound.once, sound.gone, sound.loop, sound.delivered,
      sound.subscribed⟩
    intro other
    dsimp only
    by_cases own : other = client
    · rw [own, Function.update_self, ← sound.closed, channel]
    · rw [Function.update_of_ne own, sound.closed]
  · cases received

theorem hub_step_sound {action : HubAction Client} (sound : HubSound variant roomOf state)
    (first : RegistersOnce state action)
    (stepped : hubStep variant roomOf state action = some after) :
    HubSound variant roomOf after := by
  unfold hubStep at stepped
  split at stepped
  · rename_i client selecting
    cases stepped
    exact register_sound sound selecting client first
  · rename_i client selecting
    cases stepped
    exact unregister_sound sound selecting client
  · rename_i envelope targets selecting
    split_ifs at stepped with reordered
    cases stepped
    exact broadcast_sound sound selecting envelope reordered
  · rename_i sending
    exact send_sound sound sending stepped
  · rename_i sending
    cases stepped
    exact next_sound sound sending
  · exact receive_sound sound stepped
  · cases stepped

theorem reachable_hub_sound
    (reached : Reachable (hubStep variant roomOf) RegistersOnce start state) :
    HubSound variant roomOf state :=
  reachable_invariant (HubSound variant roomOf) (start_sound variant roomOf)
    (fun _ _ _ sound first stepped => hub_step_sound sound first stepped) reached

end Steps

section Results

variable {Client : Type} [DecidableEq Client]

/-- The clients of a room in the map; none for a room that is not there. -/
def clientsIn (state : HubState Client) (roomID : Bytes) : List Client :=
  (state.rooms.members roomID).getD []

/-- What holds after any messages. The rooms have exactly the clients registered
and not unregistered since, each in its own room, and are never empty. A client
in a room has an open channel, no channel has been closed twice, and `Run` has not
panicked. On each channel are the payloads broadcast to the client's room while it
was there, each once and in the order of the broadcasts, up to those the broadcast
under way has still to put. With naive-scale the channels subscribed to are those of
the rooms, and their messages come back under the room's id. -/
structure Kept (variant : Variant) (roomOf : Client → Bytes) (state : HubState Client) : Prop where
  inhabited : ∀ roomID members, state.rooms.members roomID = some members → members ≠ []
  placed : ∀ roomID client, client ∈ clientsIn state roomID ↔
    present roomOf state.history client = true ∧ roomID = roomOf client
  channelOpen : ∀ roomID client, client ∈ clientsIn state roomID →
    (state.sends client).closed = false
  closedOnce : state.closings.Nodup
  running : state.stage ≠ .panicked
  delivered : ∀ client, deliveries roomOf state.history client =
    state.puts client ++ pending state.stage client
  subscribed : variant = .naiveScale → ∀ channel, channel ∈ state.subscriptions ↔
    ∃ roomID, (state.rooms.members roomID).isSome = true ∧ channel = roomChannel roomID
  consumed : ∀ roomID, (state.rooms.members roomID).isSome = true →
    roomOfChannel (roomChannel roomID) = roomID

theorem messages_keep_membership (variant : Variant) (roomOf : Client → Bytes)
    (state : HubState Client)
    (reached : Reachable (hubStep variant roomOf) RegistersOnce start state) :
    Kept variant roomOf state := by
  have sound := reachable_hub_sound reached
  have placed : ∀ roomID client, client ∈ clientsIn state roomID ↔
      present roomOf state.history client = true ∧ roomID = roomOf client :=
    fun roomID client => mem_targets sound (List.Perm.refl _) client
  refine ⟨?_, placed, ?_, sound.once, ?_, sound.delivered, ?_, ?_⟩
  · intro roomID members found
    exact members_inhabited state.rooms found
  · intro roomID client listed
    exact sound_open sound ((placed roomID client).mp listed).1
  · intro panicked
    have loop := sound.loop
    rw [panicked] at loop
    exact loop
  · intro scaled
    exact (sound.subscribed scaled).2
  · intro roomID _
    exact room_of_room_channel roomID

instance (state : HubState Client) (action : HubAction Client) :
    Decidable (RegistersOnce state action) :=
  match action with
  | .register client => inferInstanceAs (Decidable (Message.register client ∉ state.history))
  | .unregister _ => isTrue trivial
  | .broadcast _ _ => isTrue trivial
  | .send => isTrue trivial
  | .next => isTrue trivial
  | .receive _ => isTrue trivial

/-- Two clients in one room; the room empties, with repeated and unknown
unregistrations, and a third client opens it again. -/
def sampleActions : List (HubAction (Fin 3)) :=
  [.unregister 0, .register 0, .register 1, .broadcast ⟨ascii "lobby", ascii "hello"⟩ [1, 0],
    .send, .send, .next, .receive 0, .unregister 0, .unregister 0, .unregister 1,
    .broadcast ⟨ascii "lobby", ascii "lost"⟩ [], .next, .register 2,
    .broadcast ⟨ascii "lobby", ascii "again"⟩ [2], .send, .next]

theorem refilled_room_kept :
    ∃ state, runActions (hubStep .naiveScale fun _ : Fin 3 => ascii "lobby") RegistersOnce start
        sampleActions = some state ∧
      state.puts 2 = [ascii "again"] ∧ state.subscriptions = [ascii "room:lobby"] ∧
      Kept .naiveScale (fun _ => ascii "lobby") state := by
  have ends : (runActions (hubStep .naiveScale fun _ : Fin 3 => ascii "lobby") RegistersOnce start
      sampleActions).any (fun state => state.puts 2 = [ascii "again"] ∧
        state.subscriptions = [ascii "room:lobby"]) = true := by
    decide +kernel
  rcases (Option.any_eq_true _ _).mp ends with ⟨state, ran, checked⟩
  have facts := of_decide_eq_true checked
  exact ⟨state, ran, facts.1, facts.2, messages_keep_membership .naiveScale
    (fun _ => ascii "lobby") state (reachable_run_actions reachable_start ran)⟩

end Results

end ChatScale.RoomHubMembership
