import ChatScale.LiveHubModel

/-!
# Which connection of a client the hub has

The hub keeps one connection per room and client id: a later registration takes
the place of an earlier one. Unregistering goes by the client id too, so the end
of an older connection removes the newer one with it.
-/

namespace ChatScale.LiveHubRegistration

open ChatScale.ByteText ChatScale.HubRooms ChatScale.LiveHubModel ChatScale.TransitionSystem

set_option autoImplicit false

variable {Conn : Type} [DecidableEq Conn] {profiles : Conn → Profile}

/-- The connections of a client that named the room, in the order in which they
were registered. -/
def registrations (profiles : Conn → Profile) (order : List Conn) (client room : Bytes) :
    List Conn :=
  order.filter fun conn =>
    (profiles conn).clientID == client && (profiles conn).roomIDs.contains room

/-- The connection is the last one that its client registered for the room. -/
def isLatest (profiles : Conn → Profile) (order : List Conn) (conn : Conn) (room : Bytes) : Bool :=
  (registrations profiles order (profiles conn).clientID room).getLast? == some conn

/-- The room's frames reach every live connection that is its client's latest
one for the room. -/
def LatestReached (state : State profiles) : Prop :=
  ∀ conn room, isLive (state.conns conn).serve = true →
    isLatest profiles state.order conn room = true →
    state.hub.clientAt room (profiles conn).clientID = some conn

/-- A connection unregisters only when its client has no live connection that is
the latest one for a room. -/
def leavesNoneBehind (state : State profiles) : Action Conn → Bool
  | .unregister conn => state.order.all fun other =>
      !((profiles other).clientID == (profiles conn).clientID &&
        isLive (state.conns other).serve &&
        (profiles other).roomIDs.any fun room => isLatest profiles state.order other room)
  | _ => true

section Latest

theorem latest_member {order : List Conn} {conn : Conn} {room : Bytes}
    (latest : isLatest profiles order conn room = true) :
    conn ∈ order ∧ room ∈ (profiles conn).roomIDs := by
  have last := eq_of_beq latest
  obtain ⟨listed, named⟩ := List.mem_filter.mp (List.mem_of_getLast? last)
  rw [Bool.and_eq_true, List.contains_iff_mem] at named
  exact ⟨listed, named.2⟩

theorem latest_append {order : List Conn} {new conn : Conn} {room : Bytes}
    (latest : isLatest profiles (order ++ [new]) conn room = true) :
    (profiles new).clientID = (profiles conn).clientID ∧ room ∈ (profiles new).roomIDs ∧
      conn = new ∨
    ¬ ((profiles new).clientID = (profiles conn).clientID ∧ room ∈ (profiles new).roomIDs) ∧
      isLatest profiles order conn room = true := by
  have last := eq_of_beq latest
  rw [registrations, List.filter_append] at last
  by_cases named : (profiles new).clientID = (profiles conn).clientID ∧
      room ∈ (profiles new).roomIDs
  · apply Or.inl
    have kept : [new].filter (fun other => (profiles other).clientID == (profiles conn).clientID &&
        (profiles other).roomIDs.contains room) = [new] := by
      simp only [List.filter_cons, named.1, beq_self_eq_true, Bool.true_and,
        List.contains_iff_mem.mpr named.2, if_true, List.filter_nil]
    rw [kept, List.getLast?_append, List.getLast?_singleton, Option.some_or,
      Option.some.injEq] at last
    exact ⟨named.1, named.2, last.symm⟩
  · apply Or.inr
    have dropped : [new].filter (fun other =>
        (profiles other).clientID == (profiles conn).clientID &&
          (profiles other).roomIDs.contains room) = [] := by
      apply List.filter_eq_nil_iff.mpr
      intro other member
      rw [List.mem_singleton.mp member, Bool.and_eq_true, beq_iff_eq, List.contains_iff_mem]
      exact named
    rw [dropped, List.append_nil] at last
    exact ⟨named, beq_iff_eq.mpr last⟩

end Latest

section Steps

variable {state after : State profiles}

theorem register_reached (reached : LatestReached state) {new : Conn}
    (stepped : registerStep state new = some after) : LatestReached after := by
  obtain ⟨_, pump, send, _, rfl⟩ := register_step_cases stepped
  intro conn room live latest
  rw [client_at_register]
  rcases latest_append latest with ⟨sameClient, named, rfl⟩ | ⟨unnamed, before⟩
  · rw [if_pos ⟨named, rfl⟩]
  · have differ : conn ≠ new := by
      intro same
      subst same
      exact unnamed ⟨rfl, (latest_member before).2⟩
    have unchanged := set_connection_other state ⟨.registered, pump, send⟩ differ
    have liveBefore : isLive (state.conns conn).serve = true := unchanged ▸ live
    rw [if_neg (fun both => unnamed ⟨both.2.symm, both.1⟩)]
    exact reached conn room liveBefore before

theorem unregister_live {leaver conn : Conn} (stepped : unregisterStep state leaver = some after)
    (live : isLive (after.conns conn).serve = true) :
    conn ≠ leaver ∧ after.conns conn = state.conns conn := by
  obtain ⟨_, pump, send, _, rfl⟩ := unregister_step_cases stepped
  have differ : conn ≠ leaver := by
    intro same
    subst same
    have closing : isLive ((setConnection state conn ⟨.closing, pump, send⟩).conns conn).serve =
      true := live
    rw [set_connection_self] at closing
    cases closing
  exact ⟨differ, set_connection_other state ⟨.closing, pump, send⟩ differ⟩

theorem unregister_reached (reached : LatestReached state) {leaver : Conn}
    (alone : leavesNoneBehind state (.unregister leaver) = true)
    (stepped : unregisterStep state leaver = some after) : LatestReached after := by
  intro conn room live latest
  obtain ⟨_, unchanged⟩ := unregister_live stepped live
  rw [unchanged] at live
  obtain ⟨_, pump, send, _, rfl⟩ := unregister_step_cases stepped
  have before : isLatest profiles state.order conn room = true := latest
  rw [client_at_unregister]
  by_cases sameClient : (profiles conn).clientID = (profiles leaver).clientID
  · obtain ⟨listed, named⟩ := latest_member before
    have excluded := List.all_eq_true.mp alone conn listed
    have latestSomewhere : (profiles conn).roomIDs.any
        (fun room => isLatest profiles state.order conn room) = true :=
      List.any_eq_true.mpr ⟨room, named, before⟩
    rw [sameClient, beq_self_eq_true, live, latestSomewhere] at excluded
    cases excluded
  · rw [if_neg sameClient]
    exact reached conn room live before

theorem step_reached (reached : LatestReached state) {action : Action Conn}
    (alone : leavesNoneBehind state action = true) (stepped : step state action = some after) :
    LatestReached after := by
  cases action with
  | connection mover move =>
      obtain ⟨connection, moved, rfl⟩ := Option.map_eq_some_iff.mp stepped
      intro conn room live latest
      apply reached conn room _ latest
      by_cases same : conn = mover
      · subst same
        rw [set_connection_self] at live
        exact (connection_move_effect moved).live live
      · rw [set_connection_other state connection same] at live
        exact live
  | register new => exact register_reached reached stepped
  | unregister leaver => exact unregister_reached reached alone stepped
  | dispatch event targets =>
      obtain ⟨_, rfl | ⟨frame, conns, _, _, rfl⟩⟩ := dispatch_step_cases stepped
      · exact reached
      · exact reached
  | send =>
      obtain ⟨frame, receiver, rest, _, _, rfl⟩ := send_step_cases stepped
      intro conn room live latest
      apply reached conn room _ latest
      by_cases same : conn = receiver
      · subst same
        have kept : isLive ((setConnection state conn { state.conns conn with
            send := (state.conns conn).send ++ [frame] }).conns conn).serve = true := live
        rw [set_connection_self] at kept
        exact kept
      · have unchanged := set_connection_other state
          { state.conns receiver with send := (state.conns receiver).send ++ [frame] } same
        exact unchanged ▸ live
  | release =>
      simp only [step] at stepped
      split at stepped
      · cases stepped
        exact reached
      · cases stepped

theorem initial_reached : LatestReached (initial profiles) := by
  intro conn room live
  cases live

/-- A step that leaves such a connection behind takes it out of the hub. -/
theorem left_behind {action : Action Conn} (stepped : step state action = some after)
    (behind : leavesNoneBehind state action = false) : ¬ LatestReached after := by
  cases action with
  | unregister leaver =>
      intro reached
      obtain ⟨conn, _, caught⟩ := List.all_eq_false.mp behind
      rw [Bool.not_eq_true', Bool.not_eq_false, Bool.and_eq_true, Bool.and_eq_true] at caught
      obtain ⟨⟨sameClient, live⟩, somewhere⟩ := caught
      obtain ⟨room, _, latest⟩ := List.any_eq_true.mp somewhere
      obtain ⟨_, pump, send, disconnecting, rfl⟩ := unregister_step_cases stepped
      have differ : conn ≠ leaver := by
        intro same
        subst same
        rw [disconnecting] at live
        cases live
      have unchanged := set_connection_other state ⟨.closing, pump, send⟩ differ
      have found := reached conn room (unchanged.symm ▸ live) latest
      rw [client_at_unregister, if_pos (eq_of_beq sameClient)] at found
      cases found
  | _ => cases behind

end Steps

section Results

/-- Both sockets of a client that reconnects. -/
def twoSockets (_ : Fin 2) : Profile := ⟨ascii "ann", [ascii "lobby"]⟩

def serveTo (conn : Fin 2) : List (Action (Fin 2)) :=
  [.connection conn .configure, .register conn, .connection conn .startPump]

def tearDown (conn : Fin 2) : List (Action (Fin 2)) :=
  [.connection conn .readFail, .unregister conn]

/-- The old socket is torn down after the new one was registered. -/
theorem reconnect_unregistered :
    ∃ state : State twoSockets, Reachable step anyStep (initial twoSockets) state ∧
      isLive (state.conns 1).serve = true ∧
      isLatest twoSockets state.order 1 (ascii "lobby") = true ∧
      state.hub.clientAt (ascii "lobby") (ascii "ann") = none ∧ ¬ LatestReached state := by
  have ran : (runActions step anyStep (initial twoSockets)
      (serveTo 0 ++ serveTo 1 ++ tearDown 0)).map
      (fun state => (isLive (state.conns 1).serve,
        isLatest twoSockets state.order 1 (ascii "lobby"),
        state.hub.clientAt (ascii "lobby") (ascii "ann"))) = some (true, true, none) := by
    decide +kernel
  obtain ⟨state, reached, parts⟩ := Option.map_eq_some_iff.mp ran
  simp only [Prod.mk.injEq] at parts
  refine ⟨state, reachable_run_actions reachable_start reached, parts.1, parts.2.1, parts.2.2, ?_⟩
  intro allReached
  have found := allReached 1 (ascii "lobby") parts.1 parts.2.1
  cases parts.2.2.symm.trans found

/-- As long as no connection unregisters over a newer one of its client, the
latest live connection of a client for a room is the one in the hub; the first
step that does so takes one out. -/
theorem latest_connection_reached (profiles : Conn → Profile) :
    (∀ state, Reachable step (fun state action => leavesNoneBehind state action = true)
      (initial profiles) state → LatestReached state) ∧
    ∀ (state after : State profiles) (action : Action Conn), step state action = some after →
      leavesNoneBehind state action = false → ¬ LatestReached after := by
  refine ⟨?_, fun state after action => left_behind⟩
  intro state reached
  exact reachable_invariant LatestReached initial_reached
    (fun _ _ _ known alone stepped => step_reached known alone stepped) reached

theorem orderly_reconnect_reached :
    ∃ state : State twoSockets,
      Reachable step (fun state action => leavesNoneBehind state action = true)
        (initial twoSockets) state ∧
      isLatest twoSockets state.order 1 (ascii "lobby") = true ∧
      state.hub.clientAt (ascii "lobby") (ascii "ann") = some 1 := by
  have ran : (runActions step (fun state action => leavesNoneBehind state action = true)
      (initial twoSockets) (serveTo 0 ++ tearDown 0 ++ serveTo 1)).map
      (fun state => (isLive (state.conns 1).serve,
        isLatest twoSockets state.order 1 (ascii "lobby"))) = some (true, true) := by
    decide +kernel
  obtain ⟨state, reached, parts⟩ := Option.map_eq_some_iff.mp ran
  simp only [Prod.mk.injEq] at parts
  have reachable := reachable_run_actions reachable_start reached
  exact ⟨state, reachable, parts.2,
    (latest_connection_reached twoSockets).1 state reachable 1 (ascii "lobby") parts.1 parts.2⟩

end Results

end ChatScale.LiveHubRegistration
